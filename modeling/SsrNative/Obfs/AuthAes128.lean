import SsrNative.Crypto
import SsrNative.Lib.Framing

/-!
# AuthAes128 — the auth_aes128_md5 and auth_aes128_sha1 protocols

The client's first payload travels in an authentication frame, everything else in data frames with
random padding.  Both are modelled as `auth.c` builds and reads them over TCP, in both directions.
Random choices and the clock are arguments.
-/

namespace SsrNative
namespace Obfs
namespace AuthAes128

open Bytes
open Lib.Segments
open Lib.Framing

/-! ## Data -/

/-- What the two protocols differ in: `local->hmac`, `local->hash` and `local->salt`. -/
structure Suite where
  size : ℕ
  hmac : Mac size
  size_le : 6 ≤ size
  hash : Bytes → Bytes
  salt : Bytes
  aes : BlockCipher

def authAes128Md5 : Suite :=
  ⟨16, hmacMd5, by decide, Lib.Hash.md5, ascii "auth_aes128_md5", aes128⟩

def authAes128Sha1 : Suite :=
  ⟨20, hmacSha1, by decide, Lib.Hash.sha1, ascii "auth_aes128_sha1", aes128⟩

/-- The part of `struct server_info_t` that the protocol reads.  `user` is a `uid:key` parameter of
the client, already split; `users` is the server's table from user ids to keys. -/
structure ServerInfo where
  iv : Bytes
  recvIv : Bytes
  key : Bytes
  bufferSize : ℕ
  user : Option (UInt32 × Bytes)
  users : Option (List (Bytes × Bytes))

/-- `auth_simple_local_data`. -/
structure LocalData where
  hasSentHeader : Bool
  recvBuffer : Bytes
  recvId : UInt32
  packId : UInt32
  userKey : Bytes
  uid : Bytes
  lastDataLen : ℕ
  hasRecvHeader : Bool
  extraWaitSize : ℕ
  clientId : ℕ
  connectionId : ℕ

def localDataInit (extraWaitSize : ℕ) : LocalData :=
  ⟨false, [], 1, 1, [], List.replicate 4 0, 0, false, extraWaitSize, 0, 0⟩

/-- `auth_simple_global_data`. -/
structure GlobalData where
  localClientId : Bytes
  connectionId : ℕ

/-- The random choices for one data frame. -/
structure FrameDraws where
  rand : ℕ
  pad : ℕ → UInt8

/-- The random choices for an authentication frame, and the time. -/
structure AuthDraws where
  rand : ℕ
  pad : ℕ → UInt8
  time : ℕ
  first : UInt8
  uid : ℕ → UInt8
  clientId : ℕ → UInt8
  connectionId : ℕ

/-- The choices of one call of the client; `frame` is indexed by the frames of the call. -/
structure SendDraws where
  auth : AuthDraws
  frame : ℕ → FrameDraws

def AUTH_SIMPLE_PACK_UNIT_SIZE : ℕ := 2000

def MAX_TIME_DIF : ℕ := 60 * 60 * 24

/-! ## Data frames -/

def getRandLen (datalength fulldatalength : ℕ) (l : LocalData) (info : ServerInfo) (draw : ℕ) : ℕ :=
  if 1300 < datalength ∨ 1300 < l.lastDataLen ∨ info.bufferSize ≤ fulldatalength then 0
  else if 1100 < datalength then draw % 0x80
  else if 900 < datalength then draw % 0x100
  else if 400 < datalength then draw % 0x200
  else draw % 0x400

/-- The padding, which starts with its own length in one or in three bytes. -/
def padding (randLen : ℕ) (pad : ℕ → UInt8) : Bytes :=
  if randLen < 128 then UInt8.ofNat randLen :: (randBytes pad randLen).drop 1
  else [0xFF, UInt8.ofNat randLen, UInt8.ofNat (randLen / 256)] ++ (randBytes pad randLen).drop 3

/-- A data frame whose keyed hashes are made with `key`. -/
def dataFrame (S : Suite) (key : Bytes) (randLen : ℕ) (pad : ℕ → UInt8) (data : Bytes) : Bytes :=
  let size := le16 (randLen + data.length + 8)
  let body := size ++ ((S.hmac.run size key).take 2 ++ (padding randLen pad ++ data))
  body ++ (S.hmac.run body key).take 4

/-- The key of a data frame: the user's key and the number of the frame. -/
def frameKey (userKey : Bytes) (id : UInt32) : Bytes := userKey ++ le32 id.toNat

def packData (S : Suite) (info : ServerInfo) (l : LocalData) (d : FrameDraws) (data : Bytes)
    (fulldatalength : ℕ) : LocalData × Bytes :=
  let randLen := getRandLen data.length fulldatalength l info d.rand + 1
  ({ l with packId := l.packId + 1 },
    dataFrame S (frameKey l.userKey l.packId) randLen d.pad data)

/-! ## The authentication frame -/

/-- `bytes_to_key_with_size` over the encoded key and the salt. -/
def encKey (S : Suite) (userKey : Bytes) : Bytes :=
  Lib.Hash.md5 (Lib.Hash.base64 userKey ++ S.salt)

/-- The user id and the user's key of a client. -/
def clientUser (S : Suite) (info : ServerInfo) (l : LocalData) (d : AuthDraws) : Bytes × Bytes :=
  if l.userKey.length = 0 then
    match info.user with
    | some (uid, key) => (le32 uid.toNat, S.hash key)
    | none => (randBytes d.uid 4, info.key)
  else (l.uid, l.userKey)

/-- A new connection id, and a new client id when the counter is used up. -/
def nextConnection (g : GlobalData) (d : AuthDraws) : GlobalData :=
  let id := g.connectionId + 1
  if 0xFF000000 < id then ⟨randBytes d.clientId 8, d.connectionId % 0x1000000⟩
  else { g with connectionId := id }

/-- The sixteen bytes that are encrypted. -/
def authHead (g : GlobalData) (time size randLen : ℕ) : Bytes :=
  le32 time ++ (window g.localClientId 0 4 ++ (le32 g.connectionId ++ (le16 size ++ le16 randLen)))

def authRandLen (datalength draw : ℕ) : ℕ :=
  if 400 < datalength then draw % 0x200 else draw % 0x400

/-- The encrypted header with its user id and its check. -/
def authCipher (S : Suite) (macKey : Bytes) (user : Bytes × Bytes) (head : Bytes) : Bytes :=
  let encrypt := user.1 ++ S.aes.encrypt (encKey S user.2) head
  encrypt ++ (S.hmac.run encrypt macKey).take 4

/-- The authentication frame. -/
def authFrame (S : Suite) (macKey : Bytes) (user : Bytes × Bytes) (g : GlobalData) (d : AuthDraws)
    (data : Bytes) : Bytes :=
  let randLen := authRandLen data.length d.rand
  let head := authHead g d.time (randLen + 31 + data.length + 4) randLen
  let body := [d.first] ++ ((S.hmac.run [d.first] macKey).take 6 ++
    (authCipher S macKey user head ++ (randBytes d.pad randLen ++ data)))
  body ++ (S.hmac.run body user.2).take 4

def packAuthData (S : Suite) (info : ServerInfo) (g : GlobalData) (l : LocalData) (d : AuthDraws)
    (data : Bytes) : (GlobalData × LocalData) × Bytes :=
  let g := nextConnection g d
  let user := clientUser S info l d
  ((g, { l with uid := user.1, userKey := user.2 }),
    authFrame S (info.iv ++ info.key) user g d data)

/-! ## The client's call -/

/-- The loop over units of `auth_simple_pack_unit_size`; `i` counts the frames. -/
def packUnits (S : Suite) (info : ServerInfo) (draws : ℕ → FrameDraws) (full : ℕ) :
    ℕ → ℕ → LocalData → Bytes → LocalData × Bytes
  | 0, _, l, _ => (l, [])
  | fuel + 1, i, l, data =>
      if AUTH_SIMPLE_PACK_UNIT_SIZE < data.length then
        let r := packData S info l (draws i) (data.take AUTH_SIMPLE_PACK_UNIT_SIZE) full
        let q := packUnits S info draws full fuel (i + 1) r.1 (data.drop AUTH_SIMPLE_PACK_UNIT_SIZE)
        (q.1, r.2 ++ q.2)
      else if 0 < data.length then packData S info l (draws i) data full
      else (l, [])

def clientPreEncrypt (S : Suite) (info : ServerInfo) (st : GlobalData × LocalData)
    (d : SendDraws) (data : Bytes) : (GlobalData × LocalData) × Bytes :=
  let headSize := min 1200 data.length
  let r : (GlobalData × LocalData) × Bytes :=
    if 0 < data.length ∧ st.2.hasSentHeader = false then
      let r := packAuthData S info st.1 st.2 d.auth (data.take headSize)
      ((r.1.1, { r.1.2 with hasSentHeader := true }), r.2)
    else (st, [])
  let rest := if 0 < data.length ∧ st.2.hasSentHeader = false then data.drop headSize else data
  let q := packUnits S info d.frame data.length (rest.length + 1) 0 r.1.2 rest
  ((r.1.1, { q.1 with lastDataLen := data.length }), r.2 ++ q.2)

/-! ## The server's call -/

/-- What the server's call returns: a buffer and `need_feedback`, the buffer of
`auth_aes128_not_match_return`, or nothing at all, because a size below zero reaches `memmove`. -/
inductive PostDecrypt where
  | out (buf : Bytes) (feedback : Bool)
  | notMatch (buf : Bytes)
  | crash

/-- The decrypted bytes of a call that reports no error. -/
def PostDecrypt.bytes? : PostDecrypt → Option Bytes
  | .out buf _ => some buf
  | .notMatch _ => none
  | .crash => none

def notMatchReturn (S : Suite) (l : LocalData) : LocalData × PostDecrypt :=
  (l, .notMatch (if S.salt = [] then l.recvBuffer else List.replicate 2048 0x45 ++ [0]))

/-- The text of a signed 32-bit number. -/
def signedDecimal (n : ℕ) : Bytes :=
  if n % 4294967296 < 2147483648 then decimal (n % 4294967296)
  else ascii "-" ++ decimal (4294967296 - n % 4294967296)

/-- The key that the server has for a user id. -/
def serverUserKey (S : Suite) (info : ServerInfo) (uid : Bytes) : Bytes :=
  match info.users with
  | none => info.key
  | some table =>
      match table.lookup (signedDecimal (rdLe32 uid 0)) with
      | some key => S.hash key
      | none => info.recvIv

/-- What the server makes of the bytes in front of its receive loop. -/
inductive HeadResult where
  | wait (l : LocalData)
  | bad (l : LocalData)
  | crash (l : LocalData)
  | done (l : LocalData) (out : Bytes)

/-- The authentication frame at the front of `recv_buffer`. -/
def readHeader (S : Suite) (info : ServerInfo) (now : ℕ) (l : LocalData) : HeadResult :=
  let b := l.recvBuffer
  let macKey := info.recvIv ++ info.key
  let n := min b.length 7 - 1
  -- two or three bytes are checked at once, four to six only when the seventh has arrived
  if (7 ≤ b.length ∨ b.length = 2 ∨ b.length = 3) ∧
      (S.hmac.run (b.take 1) macKey).take n ≠ window b 1 n then .bad l
  else if b.length < 31 then .wait l
  else if (S.hmac.run (window b 7 20) macKey).take 4 ≠ window b 27 4 then
    if b.length < 31 + l.extraWaitSize then .wait l else .bad l
  else
    let uid := window b 7 4
    let userKey := serverUserKey S info uid
    let l := { l with uid := uid, userKey := userKey }
    let head := S.aes.decrypt (encKey S userKey) (window b 11 16)
    let length := rdLe16 head 12
    if b.length < length then .wait l
    -- sizes are unsigned: below zero they wrap around
    else if length < 4 then .crash l
    else if (S.hmac.run (b.take (length - 4)) userKey).take 4 ≠ window b (length - 4) 4 then .bad l
    else if MAX_TIME_DIF < timeDiff now (rdLe32 head 0) then .bad l
    else
      let start := 31 + rdLe16 head 14
      if length - 4 < start then .crash l
      else
        .done
          { l with
            hasRecvHeader := true
            clientId := rdLe32 head 4
            connectionId := rdLe32 head 8
            recvBuffer := shortenedTo b length (subSize b.length length) }
          ((b.drop start).take (length - 4 - start))

/-- Why the receive loop ends early: a check fails, with or without emptying `recv_buffer`, or the
padding of a frame reaches behind its end. -/
inductive RecvError where
  | invalid (reset : Bool)
  | overrun
  deriving DecidableEq

/-- Where the payload of the frame at the front of `b` starts. -/
def payloadPos (b : Bytes) : ℕ :=
  if (byteAt b 4).toNat < 255 then (byteAt b 4).toNat + 4 else rdLe16 b 5 + 4

/-- One pass of the receive loop; the state is `recv_id` and `sendback`. -/
def recvStep (S : Suite) (userKey : Bytes) (st : UInt32 × Bool) (b : Bytes) :
    Peel (UInt32 × Bool) UInt8 RecvError :=
  if b.length ≤ 4 then .more st
  else
    let macKey := frameKey userKey st.1
    if (S.hmac.run (b.take 2) macKey).take 2 ≠ window b 2 2 then .halt st (.invalid false)
    else
      let length := rdLe16 b 0
      if 8192 ≤ length ∨ length < 7 then .halt st (.invalid true)
      else if b.length < length then .more st
      else if (S.hmac.run (b.take (length - 4)) macKey).take 4 ≠ window b (length - 4) 4 then
        .halt st (.invalid true)
      else
        let pos := payloadPos b
        if length - 4 < pos then .halt st .overrun
        else
          .took (st.1 + 1, st.2 || pos == length - 4) ((b.drop pos).take (length - 4 - pos)) length

/-- The receive loop, with the bytes that the authentication frame has already given. -/
def recvLoop (S : Suite) (l : LocalData) (first : Bytes) (sendback : Bool) :
    LocalData × PostDecrypt :=
  let d := drain (recvStep S l.userKey) (l.recvBuffer.length + 1) (l.recvId, sendback)
    l.recvBuffer first
  match d.stop with
  | none => ({ l with recvId := d.state.1, recvBuffer := d.rest }, .out d.out d.state.2)
  | some (.invalid reset) =>
      notMatchReturn S
        { l with recvId := d.state.1, recvBuffer := if reset = true then [] else d.rest }
  | some .overrun => ({ l with recvId := d.state.1, recvBuffer := d.rest }, .crash)

/-- The server's call at the time `now`. -/
def serverPostDecrypt (S : Suite) (info : ServerInfo) (l : LocalData) (call : ℕ × Bytes) :
    LocalData × PostDecrypt :=
  let l := { l with recvBuffer := l.recvBuffer ++ call.2 }
  if l.hasRecvHeader = true then recvLoop S l [] false
  else
    match readHeader S info call.1 l with
    | .wait l => (l, .out [] false)
    | .bad l => notMatchReturn S l
    | .crash l => (l, .crash)
    | .done l out => recvLoop S l out true

/-! ## Server to client -/

/-- `auth_aes128_sha1_server_pre_encrypt`; `unit_len` is 2000, as in the client's loop. -/
def serverPreEncrypt (S : Suite) (info : ServerInfo) (l : LocalData) (draws : ℕ → FrameDraws)
    (buf : Bytes) : LocalData × Bytes :=
  packUnits S info draws buf.length (buf.length + 1) 0 l buf

/-- One pass of the client's receive loop.  It asks for one byte more than the server's, and every
error empties `recv_buffer`. -/
def clientRecvStep (S : Suite) (userKey : Bytes) (id : UInt32) (b : Bytes) :
    Peel UInt32 UInt8 RecvError :=
  if b.length ≤ 4 then .more id
  else
    let macKey := frameKey userKey id
    if (S.hmac.run (b.take 2) macKey).take 2 ≠ window b 2 2 then .halt id (.invalid true)
    else
      let length := rdLe16 b 0
      if 8192 ≤ length ∨ length < 8 then .halt id (.invalid true)
      else if b.length < length then .more id
      else if (S.hmac.run (b.take (length - 4)) macKey).take 4 ≠ window b (length - 4) 4 then
        .halt id (.invalid true)
      else
        let pos := payloadPos b
        if length - 4 < pos then .halt (id + 1) .overrun
        else .took (id + 1) ((b.drop pos).take (length - pos - 4)) length

/-- `auth_aes128_sha1_client_post_decrypt` behind its check of the length. -/
def receive (S : Suite) (l : LocalData) (seg : Bytes) : LocalData × Returned UInt8 :=
  let b := l.recvBuffer ++ seg
  let d := drain (clientRecvStep S l.userKey) (b.length + 1) l.recvId b []
  match d.stop with
  | none => ({ l with recvId := d.state, recvBuffer := d.rest }, .out d.out)
  | some (.invalid _) => ({ l with recvId := d.state, recvBuffer := [] }, .error)
  | some .overrun => ({ l with recvId := d.state, recvBuffer := d.rest }, .crash)

/-- `auth_aes128_sha1_client_post_decrypt`. -/
def clientPostDecrypt (S : Suite) (l : LocalData) (seg : Bytes) : LocalData × Returned UInt8 :=
  if 16384 < l.recvBuffer.length + seg.length then (l, .error) else receive S l seg

end AuthAes128
end Obfs
end SsrNative
