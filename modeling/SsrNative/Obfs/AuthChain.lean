import SsrNative.Crypto
import SsrNative.Lib.Framing
import SsrNative.Lib.Rc4
import SsrNative.Obfs.AuthChainRand

/-!
# AuthChain — the auth_chain_a to auth_chain_f protocols

The first call of the client emits a header of 36 bytes; everything else, in both directions,
travels in frames.  The length in front of a frame is masked with the hash of the frame before it,
and the same hash decides where the padding lies.  The model follows `auth_chain.c` over TCP.
Random choices and the clock are arguments.
-/

namespace SsrNative
namespace Obfs
namespace AuthChain

open Bytes
open Lib.Segments
open Lib.Framing

/-! ## Data -/

/-- The primitives.  `rc4Key` stands for `cipher_env_new_instance(password, "rc4")` with a new
context; the method has no IV. -/
structure Suite where
  hmac : Mac 16
  aes : BlockCipher
  rc4 : ByteCipher
  rc4Key : (password : Bytes) → rc4.State

def suite : Suite where
  hmac := hmacMd5
  aes := aes128
  rc4 := ⟨Lib.Rc4.State, Lib.Rc4.crypt, Lib.Rc4.crypt, Lib.Rc4.crypt_crypt⟩
  rc4Key password := Lib.Rc4.setKey (Lib.Hash.md5 password)

/-- The part of `struct server_info_t` that the protocol only reads.  `user` is a `uid:key`
parameter of the client, already split. -/
structure ServerInfo where
  iv : Bytes
  recvIv : Bytes
  key : Bytes
  overhead : ℕ
  user : Option (UInt32 × Bytes)

/-- One direction of a connection: the number of the next frame (`pack_id`, `recv_id`), the hash of
the last one (`last_client_hash`, `last_server_hash`), the generator (`random_client`,
`random_server`) and the keystream (`encrypt_ctx`, `decrypt_ctx`). -/
structure Chain (S : Suite) where
  id : UInt32
  hash : Bytes
  random : Shift128Plus
  cipher : S.rc4.State

/-- `auth_chain_a_context`, with `server_info.tcp_mss`.  On the client `sent` is the direction with
`last_client_hash` and `random_client`, on the server the one with `last_server_hash` and
`random_server`.  The ciphers are set with the header; no frame is made or read before. -/
structure Context (S : Suite) where
  hasSentHeader : Bool
  hasRecvHeader : Bool
  recvBuffer : Bytes
  userKey : Bytes
  uid : Bytes
  lastDataLen : ℕ
  sent : Chain S
  received : Chain S
  userIdNum : ℕ
  clientOverHead : ℕ
  unitLen : ℕ
  clientId : ℕ
  connectionId : ℕ
  tcpMss : ℕ

def chainInit (S : Suite) : Chain S := ⟨1, List.replicate 16 0, ⟨0, 0⟩, S.rc4Key []⟩

def contextInit (S : Suite) (tcpMss : ℕ) : Context S :=
  ⟨false, false, [], [], List.replicate 4 0, 0, chainInit S, chainInit S, 0, 0, 0, 0, 0, tcpMss⟩

def MAX_TIME_DIF : ℕ := 60 * 60 * 24

/-- `auth_chain_global_data`. -/
structure GlobalData where
  localClientId : Bytes
  connectionId : ℕ

/-- The random choices for the header, and the time. -/
structure AuthDraws where
  head : ℕ → UInt8
  time : ℕ
  uid : ℕ → UInt8
  clientId : ℕ → UInt8
  connectionId : ℕ

/-- The choices of one call of the client; `pad` is indexed by the frames of the call. -/
structure SendDraws where
  auth : AuthDraws
  pad : ℕ → ℕ → UInt8

/-! ## Frames -/

section Frame

variable (V : Variant) (S : Suite)

/-- The length in front of a frame. -/
def maskLen (hash : Bytes) (n : ℕ) : Bytes :=
  [UInt8.ofNat n ^^^ byteAt hash 14, UInt8.ofNat (n / 256) ^^^ byteAt hash 15]

/-- The length that a receiver reads; a byte that has not arrived reads as zero. -/
def unmaskLen (hash b : Bytes) : ℕ :=
  (byteAt b 1 ^^^ byteAt hash 15).toNat * 256 + (byteAt b 0 ^^^ byteAt hash 14).toNat

/-- The key of the hash of a frame: the user's key and the number of the frame. -/
def frameKey (userKey : Bytes) (id : UInt32) : Bytes := userKey ++ le32 id.toNat

/-- A frame in one direction of a connection. -/
def packFrame (userKey : Bytes) (c : Chain S) (pad : ℕ → UInt8) (data : Bytes) : Chain S × Bytes :=
  let rand := V.getTcpRandLen data.length c.random c.hash
  let cipher := run S.rc4.enc c.cipher data
  let start := if 0 < data.length then getRandStartPos rand.2 rand.1 else (rand.1, 0)
  let rnd := randBytes pad rand.2
  let body := maskLen c.hash data.length ++ (rnd.take start.2 ++ (cipher.2 ++ rnd.drop start.2))
  let hash := S.hmac.run body (frameKey userKey c.id)
  (⟨c.id + 1, hash, start.1, cipher.1⟩, body ++ hash.take 2)

/-- `auth_chain_a_pack_client_data`. -/
def packClientData (l : Context S) (pad : ℕ → UInt8) (data : Bytes) : Context S × Bytes :=
  let r := packFrame V S l.userKey l.sent pad data
  ({ l with sent := r.1 }, r.2)

/-- `auth_chain_a_pack_server_data`, with `auth_chain_a_rnd_data`. -/
def packServerData (l : Context S) (pad : ℕ → UInt8) (data : Bytes) : Context S × Bytes :=
  let r := packFrame V S l.userKey l.sent pad data
  ({ l with sent := r.1 }, r.2)

/-- One look at the front of `recv_buffer`.  The generator is reseeded whenever a receiver looks. -/
def readFrame (userKey : Bytes) (c : Chain S) (b : Bytes) : Peel (Chain S) UInt8 Unit :=
  let dataLen := unmaskLen c.hash b
  let rand := V.getTcpRandLen dataLen c.random c.hash
  let length := dataLen + rand.2
  if 4096 ≤ length then .halt { c with random := rand.1 } ()
  else if b.length < length + 4 then .more { c with random := rand.1 }
  else
    let hash := S.hmac.run (b.take (length + 2)) (frameKey userKey c.id)
    if hash.take 2 ≠ window b (length + 2) 2 then .halt { c with random := rand.1 } ()
    else
      let start := if 0 < dataLen ∧ 0 < rand.2 then getRandStartPos rand.2 rand.1 else (rand.1, 0)
      let plain := run S.rc4.dec c.cipher (window b (2 + start.2) dataLen)
      .took ⟨c.id + 1, hash, start.1, plain.1⟩ plain.2 (length + 4)

end Frame

/-! ## The header -/

section Header

variable (V : Variant) (S : Suite)

/-- `bytes_to_key_with_size` over the encoded key and the salt. -/
def encKey (userKey : Bytes) : Bytes := Lib.Hash.md5 (Lib.Hash.base64 userKey ++ V.salt)

def password (userKey clientHash : Bytes) : Bytes :=
  Lib.Hash.base64 userKey ++ Lib.Hash.base64 clientHash

/-- The user id and the user's key of a client. -/
def clientUser (info : ServerInfo) (l : Context S) (d : AuthDraws) : Bytes × Bytes :=
  if l.userKey.length = 0 then
    match info.user with
    | some (uid, key) =>
        if key.length = 0 then (randBytes d.uid 4, info.key) else (le32 uid.toNat, key)
    | none => (randBytes d.uid 4, info.key)
  else (l.uid, l.userKey)

/-- A new connection id, and a new client id when the counter is used up. -/
def nextConnection (g : GlobalData) (d : AuthDraws) : GlobalData :=
  let id := g.connectionId + 1
  if 0xFF000000 < id then ⟨randBytes d.clientId 4, d.connectionId % 0x1000000⟩
  else { g with connectionId := id }

/-- The sixteen bytes that are encrypted. -/
def authHead (g : GlobalData) (time overhead : ℕ) : Bytes :=
  le32 time ++ (window g.localClientId 0 4 ++ (le32 g.connectionId ++ (le16 overhead ++ [0, 0])))

/-- The user id under the mask of the first hash. -/
def maskedUid (uid clientHash : Bytes) : Bytes :=
  Lib.Hash.xorWith (window clientHash 8 4) uid

/-- The two directions behind the header. -/
def openChain (c : Chain S) (hash : Bytes) (userKey clientHash : Bytes) : Chain S :=
  { c with hash := hash, cipher := S.rc4Key (password userKey clientHash) }

/-- The header: four random bytes with their check, and the encrypted part with its own. -/
def authHeader (macKey head : Bytes) (user : Bytes × Bytes) (plain : Bytes) : Bytes :=
  let clientHash := S.hmac.run head macKey
  let encrypt := maskedUid user.1 clientHash ++ S.aes.encrypt (encKey V user.2) plain
  head ++ (clientHash.take 8 ++ (encrypt ++ (S.hmac.run encrypt user.2).take 4))

/-- The client's context behind the header. -/
def authContext (info : ServerInfo) (g : GlobalData) (l : Context S) (d : AuthDraws) : Context S :=
  let user := clientUser S info l d
  let clientHash := S.hmac.run (randBytes d.head 4) (info.iv ++ info.key)
  let plain := authHead g d.time info.overhead
  let encrypt := maskedUid user.1 clientHash ++ S.aes.encrypt (encKey V user.2) plain
  { l with
    uid := user.1
    userKey := user.2
    sent := openChain S l.sent clientHash user.2 clientHash
    received := openChain S l.received (S.hmac.run encrypt user.2) user.2 clientHash }

/-- `auth_chain_a_pack_auth_data`. -/
def packAuthData (info : ServerInfo) (g : GlobalData) (l : Context S) (d : SendDraws)
    (data : Bytes) : (GlobalData × Context S) × Bytes :=
  let g := nextConnection g d.auth
  let header := authHeader V S (info.iv ++ info.key) (randBytes d.auth.head 4)
    (clientUser S info l d.auth) (authHead g d.auth.time info.overhead)
  let r := packClientData V S (authContext V S info g l d.auth) (d.pad 0) data
  ((g, r.1), header ++ r.2)

/-- What the server makes of the bytes in front of its receive loop. -/
inductive HeadResult (S : Suite) where
  | wait (l : Context S)
  | done (l : Context S)

/-- The header at the front of `recv_buffer`; a bad one is kept, and looked at again. -/
def readHeader (info : ServerInfo) (now : ℕ) (l : Context S) : HeadResult S :=
  let b := l.recvBuffer
  let n := min b.length 12 - 4
  let clientHash := S.hmac.run (window b 0 4) (info.recvIv ++ info.key)
  -- seven or eight bytes are checked at once, nine to eleven only when the twelfth has arrived
  if (12 ≤ b.length ∨ b.length = 7 ∨ b.length = 8) ∧ clientHash.take n ≠ window b 4 n then .wait l
  else if b.length < 12 + 24 then .wait l
  else
    let uid := Lib.Hash.xorWith (window clientHash 8 4) (window b 12 4)
    let l :=
      { l with
        received := { l.received with hash := clientHash }
        userIdNum := rdLe32 uid 0
        userKey := info.key }
    let serverHash := S.hmac.run (window b 12 20) info.key
    if serverHash.take 4 ≠ window b 32 4 then .wait l
    else
      let head := S.aes.decrypt (encKey V info.key) (window b 16 16)
      let l :=
        { l with sent := { l.sent with hash := serverHash }, clientOverHead := rdLe16 head 12 }
      if MAX_TIME_DIF < timeDiff now (rdLe32 head 0) then .wait l
      else
        .done
          { l with
            clientId := rdLe32 head 4
            connectionId := rdLe32 head 8
            recvBuffer := shortenedTo b 36 (subSize b.length 36)
            hasRecvHeader := true
            sent := openChain S l.sent serverHash info.key clientHash
            received := openChain S l.received clientHash info.key clientHash }

end Header

/-! ## Client to server -/

section ToServer

variable (V : Variant) (S : Suite)

/-- The loop over units of `unit_size`; `i` counts the frames. -/
def packUnits (unitSize : ℕ) (pad : ℕ → ℕ → UInt8) : ℕ → ℕ → Context S → Bytes → Context S × Bytes
  | 0, _, l, _ => (l, [])
  | fuel + 1, i, l, data =>
      if unitSize < data.length then
        let r := packClientData V S l (pad i) (data.take unitSize)
        let q := packUnits unitSize pad fuel (i + 1) r.1 (data.drop unitSize)
        (q.1, r.2 ++ q.2)
      else if 0 < data.length then packClientData V S l (pad i) data
      else (l, [])

/-- `auth_chain_a_client_pre_encrypt`, in arrays that are large enough. -/
def clientPreEncrypt (info : ServerInfo) (st : GlobalData × Context S) (d : SendDraws)
    (data : Bytes) : (GlobalData × Context S) × Bytes :=
  let headSize := min 1200 data.length
  let r : (GlobalData × Context S) × Bytes :=
    if 0 < data.length ∧ st.2.hasSentHeader = false then
      let r := packAuthData V S info st.1 st.2 d (data.take headSize)
      ((r.1.1, { r.1.2 with hasSentHeader := true }), r.2)
    else (st, [])
  let rest := if 0 < data.length ∧ st.2.hasSentHeader = false then data.drop headSize else data
  let q := packUnits V S (subSize r.1.2.tcpMss info.overhead) d.pad (rest.length + 1) 1 r.1.2 rest
  ((r.1.1, { q.1 with lastDataLen := data.length }), r.2 ++ q.2)

def SSR_BUFF_SIZE : ℕ := 2048

/-- The size of `out_buffer`. -/
def outBufferSize (n : ℕ) : ℕ := n * 2 + SSR_BUFF_SIZE * 2

/-- The key of the connection in the arrays of `auth_chain_a_pack_auth_data`.  The loop of
`std_base64_encode` ends at `len - 2`, `password` takes 256 bytes with the encoded hash behind the encoded
key, and the length of the key of the first hash is a `uint8_t`. -/
structure KeyFits (info : ServerInfo) : Prop where
  encodable : 2 ≤ info.key.length
  password : (Lib.Hash.base64 info.key).length + 24 < 256
  macKey : info.iv.length + info.key.length < 256

instance (info : ServerInfo) : Decidable (KeyFits info) :=
  decidable_of_iff (2 ≤ info.key.length ∧ (Lib.Hash.base64 info.key).length + 24 < 256 ∧
    info.iv.length + info.key.length < 256) ⟨fun h => ⟨h.1, h.2.1, h.2.2⟩, fun h => ⟨h.1, h.2, h.3⟩⟩

/-- The same in its arrays, for a client without a user of its own; `none` when it leaves them. -/
def clientPreEncryptChecked (info : ServerInfo) (st : GlobalData × Context S) (d : SendDraws) (data : Bytes) :
    Option ((GlobalData × Context S) × Bytes) :=
  let r := clientPreEncrypt V S info st d data
  if 0 < data.length ∧ st.2.hasSentHeader = false ∧ ¬ KeyFits info then none
  else if outBufferSize data.length < r.2.length then none
  else some r

/-- Why the server's receive loop ends early: an invalid frame, with whether `recv_id` is zero, or the
assertion that a frame is not empty. -/
inductive ServerError where
  | invalid (zero : Bool)
  | assertion
  deriving DecidableEq

/-- One pass of the server's receive loop; the state has `need_feedback`.  The assertion is made behind
`auth_success`, which only the caller sets, and only in a build with assertions. -/
def serverRecvStep (authSuccess : Bool) (userKey : Bytes) (st : Chain S × Bool) (b : Bytes) :
    Peel (Chain S × Bool) UInt8 ServerError :=
  if b.length = 0 then .more st
  else if authSuccess = true ∧ unmaskLen st.1.hash b = 0 then .halt st .assertion
  else
    match readFrame V S userKey st.1 b with
    | .more c => .more (c, st.2)
    | .halt c _ => .halt (c, st.2) (.invalid (c.id == 0))
    | .took c out n => .took (c, st.2 || out.isEmpty) out n

/-- The receive loop.  An invalid frame empties `recv_buffer`, and the result is `NULL`, or an empty
buffer when `recv_id` is zero. -/
def serverRecvLoop (authSuccess : Bool) (l : Context S) (feedback : Bool) :
    Context S × (Returned UInt8 × Bool) :=
  let d := drain (serverRecvStep V S authSuccess l.userKey) (l.recvBuffer.length + 1)
    (l.received, feedback) l.recvBuffer []
  match d.stop with
  | none => ({ l with received := d.state.1, recvBuffer := d.rest }, (.out d.out, d.state.2))
  | some (.invalid zero) =>
      ({ l with received := d.state.1, recvBuffer := [] },
        (if zero = true then .out [] else .error, d.state.2))
  | some .assertion => ({ l with received := d.state.1, recvBuffer := d.rest }, (.crash, d.state.2))

/-- `auth_chain_a_server_post_decrypt` at the time `now`: the buffer, or `NULL`, and
`need_feedback`. -/
def serverPostDecrypt (info : ServerInfo) (authSuccess : Bool) (l : Context S) (call : ℕ × Bytes) :
    Context S × (Returned UInt8 × Bool) :=
  let l := { l with recvBuffer := l.recvBuffer ++ call.2 }
  if l.hasRecvHeader = true then serverRecvLoop V S authSuccess l false
  else
    match readHeader V S info call.1 l with
    | .wait l => (l, (.out [], false))
    | .done l => serverRecvLoop V S authSuccess l true

end ToServer

/-! ## Server to client -/

section ToClient

variable (V : Variant) (S : Suite)

/-- The loop over units of `unit_len`; the last frame may be empty. -/
def packReply (unitLen : ℕ) (pad : ℕ → ℕ → UInt8) : ℕ → ℕ → Context S → Bytes → Context S × Bytes
  | 0, _, l, _ => (l, [])
  | fuel + 1, i, l, data =>
      if unitLen < data.length then
        let r := packServerData V S l (pad i) (data.take unitLen)
        let q := packReply unitLen pad fuel (i + 1) r.1 (data.drop unitLen)
        (q.1, r.2 ++ q.2)
      else packServerData V S l (pad i) data

/-- `auth_chain_a_server_pre_encrypt`: the first frame of all starts with `tcp_mss`. -/
def serverPreEncrypt (l : Context S) (pad : ℕ → ℕ → UInt8) (buf : Bytes) : Context S × Bytes :=
  let data := if l.sent.id = 1 then le16 l.tcpMss ++ buf else buf
  let l := if l.sent.id = 1 then { l with unitLen := subSize l.tcpMss l.clientOverHead } else l
  packReply V S l.unitLen pad (data.length + 1) 0 l data

/-- Why the client's receive loop ends early: an invalid frame, or a first frame that is too short
for `tcp_mss`, where `memmove` runs with a length below zero. -/
inductive RecvError where
  | invalid
  | crash
  deriving DecidableEq

/-- One pass of the client's receive loop; the state has `server_info.tcp_mss`. -/
def clientRecvStep (userKey : Bytes) (st : Chain S × ℕ) (b : Bytes) :
    Peel (Chain S × ℕ) UInt8 RecvError :=
  if b.length ≤ 4 then .more st
  else
    match readFrame V S userKey st.1 b with
    | .more c => .more (c, st.2)
    | .halt c _ => .halt (c, st.2) .invalid
    | .took c out n =>
        if st.1.id = 1 then
          if out.length < 2 then .halt st .crash
          else .took (c, rdLe16 out 0) (out.drop 2) n
        else .took (c, st.2) out n

/-- `auth_chain_a_client_post_decrypt`. -/
def clientPostDecrypt (l : Context S) (seg : Bytes) : Context S × Returned UInt8 :=
  if 16384 < l.recvBuffer.length + seg.length then (l, .error)
  else
    let b := l.recvBuffer ++ seg
    let d := drain (clientRecvStep V S l.userKey) (b.length + 1) (l.received, l.tcpMss) b []
    let l := { l with received := d.state.1, tcpMss := d.state.2 }
    match d.stop with
    | none => ({ l with recvBuffer := d.rest }, .out d.out)
    | some .invalid => ({ l with recvBuffer := [] }, .error)
    | some .crash => ({ l with recvBuffer := d.rest }, .crash)

end ToClient

end AuthChain
end Obfs
end SsrNative
