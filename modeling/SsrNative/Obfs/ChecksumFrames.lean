import SsrNative.Obfs.AuthSha1V4

/-!
# ChecksumFrames — the protocols verify_simple, auth_simple, auth_sha1 and auth_sha1_v2

All four send frames of a length, padding that starts with its own size, the data and an unkeyed
checksum, and the client reads them with the same loop.  They differ in the checksum, in how the
size of the padding is written, and in the header of the client's first frame.  Random choices and
the clock are arguments.
-/

namespace SsrNative
namespace Obfs
namespace ChecksumFrames

open Bytes
open Checksums
open Lib.Segments
open Lib.Framing
open AuthAes128 (GlobalData FrameDraws AUTH_SIMPLE_PACK_UNIT_SIZE)
open AuthSha1V4 (ServerInfo AuthDraws nextConnection authHead getS5HeadSize getRandLen dataPos)

/-! ## Frames -/

def frame (fill : Bytes → Bytes) (padding data : Bytes) : Bytes :=
  fill (be16 (padding.length + data.length + 6) ++ (padding ++ data) ++ List.replicate 4 0)

/-- `(xorshift128plus() & 0xF) + 1`. -/
def shortRandLen (draw : ℕ) : ℕ := draw % 16 + 1

/-- Padding with its size in one byte; the rest of it is left as `calloc` made it. -/
def shortPadding (randLen : ℕ) : Bytes := UInt8.ofNat randLen :: List.replicate (randLen - 1) 0

def verifySimplePackData (d : FrameDraws) (data : Bytes) : Bytes :=
  let randLen := shortRandLen d.rand
  frame fillCrc32 (UInt8.ofNat randLen :: (randBytes d.pad randLen).drop 1) data

def authSimplePackData (d : FrameDraws) (data : Bytes) : Bytes :=
  frame fillCrc32 (shortPadding (shortRandLen d.rand)) data

def authSha1PackData (d : FrameDraws) (data : Bytes) : Bytes :=
  frame fillAdler32 (shortPadding (shortRandLen d.rand)) data

def authSha1V2PackData (d : FrameDraws) (data : Bytes) : Bytes :=
  frame fillAdler32 (AuthSha1V4.padding (getRandLen data.length d.rand)) data

/-! ## The client's first frame -/

def authSimplePackAuthData (g : GlobalData) (d : AuthDraws) (data : Bytes) : GlobalData × Bytes :=
  let g := nextConnection g d
  (g, frame fillCrc32 (shortPadding (shortRandLen d.rand)) (authHead g d.time ++ data))

/-- A first frame under a keyed hash: the checksum `guard`, the length, the padding, twelve bytes
that name the client and the data. -/
def macFrame (H : Mac 20) (info : ServerInfo) (guard padding client data : Bytes) : Bytes :=
  let size := be16 (padding.length + 6 + data.length + 12 + 10)
  let body := guard ++ (size ++ (padding ++ (client ++ data)))
  body ++ (H.run body (info.iv ++ info.key)).take 10

def authSha1PackAuthData (H : Mac 20) (info : ServerInfo) (g : GlobalData) (d : AuthDraws)
    (data : Bytes) : GlobalData × Bytes :=
  let g := nextConnection g d
  (g, macFrame H info (fillCrc32To info.key) (shortPadding (d.rand % 0x80 + 1))
    (authHead g d.time) data)

def authSha1V2PackAuthData (H : Mac 20) (info : ServerInfo) (g : GlobalData) (d : AuthDraws)
    (data : Bytes) : GlobalData × Bytes :=
  let g := nextConnection g d
  (g, macFrame H info (fillCrc32To (ascii "auth_sha1_v2" ++ info.key))
    (AuthSha1V4.padding (getRandLen data.length d.rand))
    (window g.localClientId 0 8 ++ le32 g.connectionId) data)

/-! ## Sending -/

/-- The value of `(int)n`, unless it is negative. -/
def intLength (n : ℕ) : Option ℕ :=
  if n % 4294967296 < 2147483648 then some (n % 4294967296) else none

/-- What a call of the client's packs: the size of its scratch buffer, the bytes it writes there, and
what it returns.  It does not return when a negative length reaches `memmove`. -/
structure Packed where
  scratch : ℕ
  written : Bytes
  returned : Option ℕ

/-- The result of a call that counts the bytes in an `int`. -/
def packed (scratch : ℕ) (written : Bytes) : Packed := ⟨scratch, written, intLength written.length⟩

/-- The choices of one call; `frame` is indexed by the frames of the call. -/
structure SendDraws where
  auth : AuthDraws
  frame : ℕ → FrameDraws

/-- The loop over units of 2000 bytes; `i` counts the frames. -/
def packUnits (pack : FrameDraws → Bytes → Bytes) (draws : ℕ → FrameDraws) : ℕ → ℕ → Bytes → Bytes
  | 0, _, _ => []
  | fuel + 1, i, data =>
      if AUTH_SIMPLE_PACK_UNIT_SIZE < data.length then
        pack (draws i) (data.take AUTH_SIMPLE_PACK_UNIT_SIZE) ++
          packUnits pack draws fuel (i + 1) (data.drop AUTH_SIMPLE_PACK_UNIT_SIZE)
      else if 0 < data.length then pack (draws i) data
      else []

/-- `(int)*capacity < len`: the caller's buffer is made larger. -/
def grows (capacity len : ℕ) : Bool := (intLength capacity).all (· < len)

/-- The caller's buffer is made twice as large as the frames.  From 2^30 bytes on `len * 2` overflows, and there
is no such block. -/
def doubled (capacity : ℕ) (p : Packed) : Packed :=
  if grows capacity p.written.length = true ∧ 1073741824 ≤ p.written.length then { p with returned := none }
  else p

/-- The length is an `int` here, and nothing is sent when it is negative. -/
def verifySimpleClientPreEncrypt (draws : ℕ → FrameDraws) (capacity : ℕ) (data : Bytes) : Packed :=
  let rest := data.take ((intLength data.length).getD 0)
  doubled capacity
    (packed (data.length * 2 + 32) (packUnits verifySimplePackData draws (rest.length + 1) 0 rest))

/-- The call of the three other protocols; the flag is `has_sent_header`. -/
def clientPreEncrypt (packAuth : GlobalData → AuthDraws → Bytes → GlobalData × Bytes)
    (pack : FrameDraws → Bytes → Bytes) (room : ℕ) (st : GlobalData × Bool) (d : SendDraws)
    (data : Bytes) : (GlobalData × Bool) × Packed :=
  let headSize := min (getS5HeadSize data 30) data.length
  if 0 < data.length ∧ st.2 = false then
    let r := packAuth st.1 d.auth (data.take headSize)
    let rest := data.drop headSize
    ((r.1, true),
      packed (data.length * 2 + room) (r.2 ++ packUnits pack d.frame (rest.length + 1) 0 rest))
  else (st, packed (data.length * 2 + room) (packUnits pack d.frame (data.length + 1) 0 data))

def SSR_BUFF_SIZE : ℕ := 2048

def authSimpleClientPreEncrypt : GlobalData × Bool → SendDraws → Bytes → (GlobalData × Bool) × Packed :=
  clientPreEncrypt authSimplePackAuthData authSimplePackData 64

def authSha1ClientPreEncrypt (H : Mac 20) (info : ServerInfo) :
    GlobalData × Bool → SendDraws → Bytes → (GlobalData × Bool) × Packed :=
  clientPreEncrypt (authSha1PackAuthData H info) authSha1PackData 256

def authSha1V2ClientPreEncrypt (H : Mac 20) (info : ServerInfo) :
    GlobalData × Bool → SendDraws → Bytes → (GlobalData × Bool) × Packed :=
  clientPreEncrypt (authSha1V2PackAuthData H info) authSha1V2PackData (SSR_BUFF_SIZE * 2)

/-! ## Receiving -/

/-- Why the receive loop ends early: a check fails, or the padding of a frame reaches behind its end
and the size of the data wraps around. -/
inductive RecvError where
  | invalid
  | overrun
  deriving DecidableEq

/-- Where the data starts when the padding has its size in one byte. -/
def shortPos (b : Bytes) : ℕ := (byteAt b 2).toNat + 2

/-- One pass of the receive loop. -/
def recvStep (check : Bytes → ℕ → Bool) (pos : Bytes → ℕ) (_ : Unit) (b : Bytes) :
    Peel Unit UInt8 RecvError :=
  if b.length ≤ 2 then .more ()
  else
    let length := rdBe16 b 0
    if 8192 ≤ length ∨ length < 7 then .halt () .invalid
    else if b.length < length then .more ()
    else if check b length = false then .halt () .invalid
    -- sizes are unsigned: below zero they wrap around
    else if length - 4 < pos b then .halt () .overrun
    else .took () ((b.drop (pos b)).take (length - 4 - pos b)) length

/-- A call of the client behind its check of the length; the state is `recv_buffer`, which every
error empties. -/
def receive (check : Bytes → ℕ → Bool) (pos : Bytes → ℕ) (recvBuffer seg : Bytes) :
    Bytes × Returned UInt8 :=
  let b := recvBuffer ++ seg
  let d := drain (recvStep check pos) (b.length + 1) () b []
  match d.stop with
  | none => (d.rest, .out d.out)
  | some .invalid => ([], .error)
  | some .overrun => (d.rest, .crash)

def clientPostDecrypt (check : Bytes → ℕ → Bool) (pos : Bytes → ℕ) (recvBuffer seg : Bytes) :
    Bytes × Returned UInt8 :=
  if 16384 < recvBuffer.length + seg.length then (recvBuffer, .error)
  else receive check pos recvBuffer seg

def verifySimpleClientPostDecrypt : Bytes → Bytes → Bytes × Returned UInt8 :=
  clientPostDecrypt checkCrc32 shortPos

def authSimpleClientPostDecrypt : Bytes → Bytes → Bytes × Returned UInt8 :=
  clientPostDecrypt checkCrc32 shortPos

def authSha1ClientPostDecrypt : Bytes → Bytes → Bytes × Returned UInt8 :=
  clientPostDecrypt checkAdler32 shortPos

def authSha1V2ClientPostDecrypt : Bytes → Bytes → Bytes × Returned UInt8 :=
  clientPostDecrypt checkAdler32 fun b => dataPos b 2

end ChecksumFrames
end Obfs
end SsrNative
