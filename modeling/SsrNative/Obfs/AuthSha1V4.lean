import SsrNative.Obfs.AuthAes128
import SsrNative.Obfs.Checksums

/-!
# AuthSha1V4 — the auth_sha1_v4 protocol

The length of a frame is guarded by a truncated CRC-32, the whole frame by Adler-32.  The client's
first frame carries an authentication header under a keyed hash instead.  Both directions are
modelled as `auth.c` builds and reads them; random choices and the clock are arguments.
-/

namespace SsrNative
namespace Obfs
namespace AuthSha1V4

open Bytes
open Checksums
open Lib.Segments
open Lib.Framing
open AuthAes128 (GlobalData AUTH_SIMPLE_PACK_UNIT_SIZE MAX_TIME_DIF)

/-! ## Data -/

/-- The part of `struct server_info_t` that the protocol reads. -/
structure ServerInfo where
  iv : Bytes
  recvIv : Bytes
  key : Bytes

/-- The part of `auth_simple_local_data` that the protocol uses; its other fields are constants. -/
structure LocalData where
  hasSentHeader : Bool
  recvBuffer : Bytes
  hasRecvHeader : Bool
  clientId : ℕ
  connectionId : ℕ

def localDataInit : LocalData := ⟨false, [], false, 0, 0⟩

/-- `local->salt`. -/
def SALT : Bytes := ascii "auth_sha1_v4"

/-- The random choices for an authentication frame, and the time. -/
structure AuthDraws where
  rand : ℕ
  time : ℕ
  clientId : ℕ → UInt8
  connectionId : ℕ

/-- The choices of one call of the client; `frame` is indexed by the frames of the call. -/
structure SendDraws where
  auth : AuthDraws
  frame : ℕ → ℕ

/-! ## Frames -/

def getRandLen (datalength draw : ℕ) : ℕ :=
  (if 1300 < datalength then 0 else if 400 < datalength then draw % 0x80 else draw % 0x400) + 1

/-- The padding, which starts with its own length in one or in three bytes; the rest of it is left
as `calloc` made it. -/
def padding (randLen : ℕ) : Bytes :=
  if randLen < 128 then UInt8.ofNat randLen :: List.replicate (randLen - 1) 0
  else
    [0xFF, UInt8.ofNat (randLen / 256), UInt8.ofNat randLen] ++ List.replicate (randLen - 3) 0

/-- A data frame. -/
def dataFrame (randLen : ℕ) (data : Bytes) : Bytes :=
  let size := be16 (randLen + data.length + 8)
  let head := size ++ le16 (crc32Imp size).toNat
  fillAdler32 (head ++ (padding randLen ++ data) ++ List.replicate 4 0)

def packData (draw : ℕ) (data : Bytes) : Bytes := dataFrame (getRandLen data.length draw) data

/-- A new connection id, and a new client id when the counter is used up. -/
def nextConnection (g : GlobalData) (d : AuthDraws) : GlobalData :=
  let id := g.connectionId + 1
  if 0xFF000000 < id then ⟨randBytes d.clientId 8, d.connectionId % 0x1000000⟩
  else { g with connectionId := id }

/-- The twelve bytes in front of the client's first data. -/
def authHead (g : GlobalData) (time : ℕ) : Bytes :=
  le32 time ++ (window g.localClientId 0 4 ++ le32 g.connectionId)

/-- The guard of the length in front of an authentication frame. -/
def sizeCheck (key size : Bytes) : UInt32 := crc32Imp (size ++ (SALT ++ key))

/-- The authentication frame, whose keyed hash is made with `info.iv` in front of the key. -/
def authFrame (H : Mac 20) (iv key : Bytes) (g : GlobalData) (d : AuthDraws) (data : Bytes) :
    Bytes :=
  let randLen := getRandLen data.length d.rand
  let size := be16 (randLen + 6 + data.length + 12 + 10)
  let body := size ++ (le32 (sizeCheck key size).toNat ++
    (padding randLen ++ (authHead g d.time ++ data)))
  body ++ (H.run body (iv ++ key)).take 10

def packAuthData (H : Mac 20) (info : ServerInfo) (g : GlobalData) (d : AuthDraws) (data : Bytes) :
    GlobalData × Bytes :=
  let g := nextConnection g d
  (g, authFrame H info.iv info.key g d data)

/-! ## Sending -/

/-- `get_s5_head_size`. -/
def getS5HeadSize (plaindata : Bytes) (defSize : ℕ) : ℕ :=
  if plaindata.length < 2 then defSize
  else
    match (byteAt plaindata 0).toNat % 8 with
    | 1 => 7
    | 4 => 19
    | 3 => 4 + (byteAt plaindata 1).toNat
    | _ => defSize

/-- The loop over units of 2000 bytes; `i` counts the frames.  What is left goes into a last frame:
the server makes it `always`, the client only when it is not empty. -/
def packUnits (always : Bool) (draws : ℕ → ℕ) : ℕ → ℕ → Bytes → Bytes
  | 0, _, _ => []
  | fuel + 1, i, data =>
      if AUTH_SIMPLE_PACK_UNIT_SIZE < data.length then
        packData (draws i) (data.take AUTH_SIMPLE_PACK_UNIT_SIZE) ++
          packUnits always draws fuel (i + 1) (data.drop AUTH_SIMPLE_PACK_UNIT_SIZE)
      else if always = true ∨ 0 < data.length then packData (draws i) data
      else []

def clientPreEncrypt (H : Mac 20) (info : ServerInfo) (st : GlobalData × LocalData) (d : SendDraws)
    (data : Bytes) : (GlobalData × LocalData) × Bytes :=
  let headSize := min (getS5HeadSize data 30) data.length
  if 0 < data.length ∧ st.2.hasSentHeader = false then
    let r := packAuthData H info st.1 d.auth (data.take headSize)
    let rest := data.drop headSize
    ((r.1, { st.2 with hasSentHeader := true }),
      r.2 ++ packUnits false d.frame (rest.length + 1) 0 rest)
  else (st, packUnits false d.frame (data.length + 1) 0 data)

def serverPreEncrypt (draws : ℕ → ℕ) (buf : Bytes) : Bytes :=
  packUnits true draws (buf.length + 1) 0 buf

/-! ## Receiving -/

/-- Where the bytes behind the padding at `i` start. -/
def dataPos (b : Bytes) (i : ℕ) : ℕ :=
  if (byteAt b i).toNat < 255 then (byteAt b i).toNat + i else rdBe16 b (i + 1) + i

/-- What the server makes of the bytes in front of its receive loop. -/
inductive HeadResult where
  | wait
  | bad
  | crash
  | done (l : LocalData) (out : Bytes)

/-- The authentication frame at the front of `recv_buffer`. -/
def readHeader (H : Mac 20) (info : ServerInfo) (now : ℕ) (l : LocalData) : HeadResult :=
  let b := l.recvBuffer
  if b.length ≤ 6 then .wait
  else if (sizeCheck info.key (b.take 2)).toNat ≠ rdLe32 b 2 then .bad
  else
    let length := rdBe16 b 0
    if b.length < length then .wait
    -- sizes are unsigned: below zero they wrap around
    else if length < 10 then .crash
    else if (H.run (b.take (length - 10)) (info.recvIv ++ info.key)).take 10 ≠
        window b (length - 10) 10 then .bad
    else
      let pos := dataPos b 6
      if length - 10 < pos then .crash
      else
        let out := (b.drop pos).take (length - 10 - pos)
        if out.length < 12 then .bad
        else if MAX_TIME_DIF < timeDiff now (rdLe32 out 0) then .bad
        else
          .done
            { l with
              clientId := rdLe32 out 4
              connectionId := rdLe32 out 8
              recvBuffer := shortenedTo b length (subSize b.length length)
              hasRecvHeader := true }
            (shortenedTo out 12 (subSize out.length 12))

/-- Why a receive loop ends early: a check fails, with or without the server emptying
`recv_buffer`, or the padding of a frame reaches behind its end. -/
inductive RecvError where
  | invalid (reset : Bool)
  | overrun
  deriving DecidableEq

/-- One pass of the receive loop of either side; the state is the server's `sendback`. -/
def recvStep (sendback : Bool) (b : Bytes) : Peel Bool UInt8 RecvError :=
  if b.length ≤ 4 then .more sendback
  else if (crc32Imp (b.take 2)).toNat % 65536 ≠ rdLe16 b 2 then .halt sendback (.invalid false)
  else
    let length := rdBe16 b 0
    if 8192 ≤ length ∨ length < 7 then .halt sendback (.invalid true)
    else if b.length < length then .more sendback
    else if checkAdler32 b length = false then .halt sendback (.invalid true)
    else
      let pos := dataPos b 4
      if length - 4 < pos then .halt sendback .overrun
      else .took (sendback || pos == length - 4) ((b.drop pos).take (length - 4 - pos)) length

/-- The server's loop, with the bytes that the authentication frame has already given.  The result
is the buffer it returns and `need_feedback`. -/
def recvLoop (l : LocalData) (first : Bytes) (sendback : Bool) :
    LocalData × (Returned UInt8 × Bool) :=
  let d := drain recvStep (l.recvBuffer.length + 1) sendback l.recvBuffer first
  match d.stop with
  | none => ({ l with recvBuffer := d.rest }, (.out d.out, d.state))
  | some (.invalid reset) =>
      ({ l with recvBuffer := if reset = true then [] else d.rest }, (.error, d.state))
  | some .overrun => ({ l with recvBuffer := d.rest }, (.crash, d.state))

/-- The server's call at the time `now`. -/
def serverPostDecrypt (H : Mac 20) (info : ServerInfo) (l : LocalData) (call : ℕ × Bytes) :
    LocalData × (Returned UInt8 × Bool) :=
  let l := { l with recvBuffer := l.recvBuffer ++ call.2 }
  if l.hasRecvHeader = true then recvLoop l [] false
  else
    match readHeader H info call.1 l with
    | .wait => (l, (.out [], false))
    | .bad => (l, (.error, false))
    | .crash => (l, (.crash, false))
    | .done l out => recvLoop l out true

/-- `auth_sha1_v4_client_post_decrypt` behind its check of the length; every error empties
`recv_buffer`. -/
def receive (l : LocalData) (seg : Bytes) : LocalData × Returned UInt8 :=
  let b := l.recvBuffer ++ seg
  let d := drain recvStep (b.length + 1) false b []
  match d.stop with
  | none => ({ l with recvBuffer := d.rest }, .out d.out)
  | some (.invalid _) => ({ l with recvBuffer := [] }, .error)
  | some .overrun => ({ l with recvBuffer := d.rest }, .crash)

/-- `auth_sha1_v4_client_post_decrypt`. -/
def clientPostDecrypt (l : LocalData) (seg : Bytes) : LocalData × Returned UInt8 :=
  if 16384 < l.recvBuffer.length + seg.length then (l, .error) else receive l seg

end AuthSha1V4
end Obfs
end SsrNative
