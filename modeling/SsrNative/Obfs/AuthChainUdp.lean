import SsrNative.Base64
import SsrNative.Obfs.AuthChainBounds

/-!
# AuthChainUdp — the datagrams of the auth_chain protocols

A datagram is the encrypted data, padding, a trailer of seven bytes and one byte of a keyed hash.  The
length of the padding and the password of RC4 come from the hash of the trailer; towards the server only
the first three bytes of the trailer are hashed, the others mask the user id.
-/

namespace SsrNative
namespace Obfs
namespace AuthChain

open Bytes
open Base64
open Lib.Segments

/-! ## The padding -/

/-- `udp_get_rand_len` where a `size_t` has `w` bits: the value is cast before it is reduced. -/
def udpGetRandLenOn (w : ℕ) (lastHash : Bytes) : Shift128Plus × ℕ :=
  let r := (Shift128Plus.initFromBin lastHash).next
  (r.1, r.2.toNat % 2 ^ w % 127)

theorem udpGetRandLenOn_64 (lastHash : Bytes) : udpGetRandLenOn 64 lastHash = udpGetRandLen lastHash := by
  have hlt := (Shift128Plus.initFromBin lastHash).next.2.toNat_lt
  rw [udpGetRandLenOn, Nat.mod_eq_of_lt hlt]
  rfl

/-- Below 2^64 the upper half counts sixteenfold modulo 127. -/
theorem mod_cast_eq_iff (n : ℕ) : n % 2 ^ 32 % 127 = n % 127 ↔ 127 ∣ n / 2 ^ 32 := by
  omega

/-- The upper half of the value that is drawn for a hash. -/
def udpUpperHalf (lastHash : Bytes) : ℕ := (Shift128Plus.initFromBin lastHash).next.2.toNat / 2 ^ 32

/-- Two platforms, one with a `size_t` of 32 bits and one with 64, find the same padding exactly when
the upper half of the value drawn is a multiple of 127. -/
theorem udp_rand_len_platform_iff (lastHash : Bytes) :
    (udpGetRandLenOn 32 lastHash).2 = (udpGetRandLenOn 64 lastHash).2 ↔
      127 ∣ udpUpperHalf lastHash := by
  rw [udpGetRandLenOn_64]
  exact mod_cast_eq_iff _

/-- A hash for which 64 bytes of padding are made on one platform and 96 on the other. -/
theorem udp_rand_len_platform_differs :
    ¬ ∀ lastHash : Bytes, lastHash.length = 16 →
      (udpGetRandLenOn 32 lastHash).2 = (udpGetRandLenOn 64 lastHash).2 := by
  intro h
  have hsample := h [0, 0, 0, 0, 0, 0, 0, 0, 0, 0, 0, 0, 1, 0, 0, 0] rfl
  have hne : (udpGetRandLenOn 32 [0, 0, 0, 0, 0, 0, 0, 0, 0, 0, 0, 0, 1, 0, 0, 0]).2 ≠
      (udpGetRandLenOn 64 [0, 0, 0, 0, 0, 0, 0, 0, 0, 0, 0, 0, 1, 0, 0, 0]).2 := by decide
  exact hne hsample

/-! ## Sending -/

/-- The random choices of one datagram. -/
structure UdpDraws where
  authData : ℕ → UInt8
  uid : ℕ → UInt8
  pad : ℕ → UInt8

section Datagram

variable (S : Suite)

instance (key b : Bytes) : Decidable (UdpAccepted S key b) := inferInstanceAs (Decidable (_ = _))

/-- The user id and the user's key of a client, as for a connection. -/
def udpUser (info : ServerInfo) (l : Context S) (uid : ℕ → UInt8) : Bytes × Bytes :=
  if l.userKey.length = 0 then
    match info.user with
    | some (id, key) => if key.length = 0 then (randBytes uid 4, info.key) else (le32 id.toNat, key)
    | none => (randBytes uid 4, info.key)
  else (l.uid, l.userKey)

/-- The password as `std_base64_encode` writes it; the array is large enough. -/
def mixedKey (userKey md5data : Bytes) : Option Bytes := do
  let encodedKey ← stdBase64Encode userKey
  let encodedHash ← stdBase64Encode md5data
  return encodedKey ++ encodedHash

/-- `auth_chain_a_encryptor` when it encrypts. -/
def udpEncrypt (userKey md5data data : Bytes) : Option Bytes :=
  (mixedKey userKey md5data).map fun password => (run S.rc4.enc (S.rc4Key password) data).2

/-- `auth_chain_a_client_udp_pre_encrypt`; there is no result when an array is overrun. -/
def clientUdpPreEncrypt (info : ServerInfo) (l : Context S) (d : UdpDraws) (data : Bytes) :
    Option (Context S × Bytes) := do
  let user := udpUser S info l d.uid
  let authData := randBytes d.authData 3
  let md5data := S.hmac.run authData info.key
  let uid := Lib.Hash.xorWith (window md5data 0 4) (window user.1 0 4)
  let rand := udpGetRandLen md5data
  let encrypted ← udpEncrypt S user.2 md5data data
  let outBuf := encrypted ++ (randBytes d.pad rand.2 ++ (authData ++ uid))
  return ({ l with uid := user.1, userKey := user.2, sent := { l.sent with random := rand.1 } },
    outBuf ++ (S.hmac.run outBuf user.2).take 1)

/-- `auth_chain_a_server_udp_pre_encrypt`. -/
def serverUdpPreEncrypt (info : ServerInfo) (l : Context S) (d : UdpDraws) (data : Bytes) :
    Option (Context S × Bytes) := do
  let authData := randBytes d.authData 7
  let md5data := S.hmac.run authData info.key
  let rand := udpGetRandLen md5data
  let encrypted ← udpEncrypt S info.key md5data data
  let buf := encrypted ++ (randBytes d.pad rand.2 ++ authData)
  return ({ l with sent := { l.sent with random := rand.1 } },
    buf ++ (S.hmac.run buf info.key).take 1)

/-! ## Receiving -/

/-- `auth_chain_a_server_udp_post_decrypt` with the password written by `std_base64_encode`. -/
def serverUdpPostDecryptChecked (info : ServerInfo) (l : Context S) (b : Bytes) :
    Option (Context S × Option (Bytes × ℕ)) := do
  let r ← serverUdpPostDecrypt S info l b
  if r.2.isNone then return r
  let _ ← mixedKey info.key (S.hmac.run (window b (b.length - 8) 3) info.key)
  return r

/-- `auth_chain_a_client_udp_post_decrypt` with the password written by `std_base64_encode` into an
array of 256 bytes. -/
def clientUdpPostDecryptChecked (info : ServerInfo) (l : Context S) (b : Bytes) :
    Option (Context S × Bytes) := do
  let r ← clientUdpPostDecrypt S info l b
  if b.length ≤ 8 ∨ ¬ UdpAccepted S l.userKey b then return r
  let password ← mixedKey l.userKey (S.hmac.run (window b (b.length - 8) 7) info.key)
  if 256 ≤ password.length then none else return r

/-! ## What the receivers find -/

variable {S}

theorem mixedKey_of_le {userKey md5data : Bytes} (hkey : 2 ≤ userKey.length)
    (hhash : md5data.length = 16) : mixedKey userKey md5data = some (password userKey md5data) := by
  unfold mixedKey
  rw [stdBase64Encode_of_le hkey, stdBase64Encode_of_le (by omega)]
  rfl

theorem mixedKey_of_lt {userKey : Bytes} (hkey : userKey.length < 2) (md5data : Bytes) :
    mixedKey userKey md5data = none := by
  unfold mixedKey stdBase64Encode
  rw [if_pos hkey]
  rfl

theorem password_length (userKey : Bytes) {hash : Bytes} (hhash : hash.length = 16) :
    (password userKey hash).length = (userKey.length + 2) / 3 * 4 + 24 := by
  unfold password
  rw [List.length_append, base64_length, base64_length, hhash]

/-- The password fits its array for a key of at most 171 bytes. -/
theorem password_length_lt_iff (userKey : Bytes) {hash : Bytes} (hhash : hash.length = 16) :
    (password userKey hash).length < 256 ↔ userKey.length ≤ 171 := by
  rw [password_length userKey hhash]
  omega

theorem udpDecrypt_encrypted (userKey hash data : Bytes) :
    udpDecrypt S userKey hash (run S.rc4.enc (S.rc4Key (password userKey hash)) data).2 = data := by
  unfold udpDecrypt
  rw [S.rc4.run_dec_enc]

section Layout

variable (enc pad : Bytes) {trailer tag key : Bytes}

/-- A datagram: the data, padding, a trailer and the check of all of them. -/
def datagram (enc pad trailer tag : Bytes) : Bytes := (enc ++ (pad ++ trailer)) ++ tag

theorem datagram_length (htrailer : trailer.length = 7) (htag : tag.length = 1) :
    (datagram enc pad trailer tag).length = enc.length + pad.length + 8 := by
  unfold datagram
  simp only [List.length_append, htrailer, htag]
  omega

theorem datagram_take (htag : tag.length = 1) :
    (datagram enc pad trailer tag).take ((datagram enc pad trailer tag).length - 1) =
      enc ++ (pad ++ trailer) := by
  unfold datagram
  rw [List.length_append, htag, Nat.add_sub_cancel, List.take_left]

theorem datagram_accepted_iff (htag : tag.length = 1) :
    UdpAccepted S key (datagram enc pad trailer tag) ↔
      (S.hmac.run (enc ++ (pad ++ trailer)) key).take 1 = tag := by
  have hlast : window (datagram enc pad trailer tag) ((datagram enc pad trailer tag).length - 1) 1 =
      tag := by
    have hfield := window_field (a := enc ++ (pad ++ trailer)) (w := tag) (l := []) rfl htag
    rw [List.append_nil] at hfield
    unfold datagram
    rw [List.length_append, htag, Nat.add_sub_cancel]
    exact hfield
  unfold UdpAccepted
  rw [datagram_take enc pad htag, hlast]

/-- The first bytes of the trailer, at the eighth byte from the end. -/
theorem datagram_trailer {a b : Bytes} (htrailer : (a ++ b).length = 7) (htag : tag.length = 1) {n : ℕ}
    (ha : a.length = n) :
    window (datagram enc pad (a ++ b) tag) ((datagram enc pad (a ++ b) tag).length - 8) n = a := by
  -- the eighth byte from the end is the first one of the trailer
  have hpos : (datagram enc pad (a ++ b) tag).length - 8 = (enc ++ pad).length := by
    rw [datagram_length enc pad htrailer htag, List.length_append]
    omega
  have hcat : datagram enc pad (a ++ b) tag = (enc ++ pad) ++ (a ++ (b ++ tag)) := by
    unfold datagram
    simp only [List.append_assoc]
  rw [hpos, hcat]
  exact window_field rfl ha

theorem datagram_trailer_all (htrailer : trailer.length = 7) (htag : tag.length = 1) :
    window (datagram enc pad trailer tag) ((datagram enc pad trailer tag).length - 8) 7 = trailer := by
  have hfull : (trailer ++ []).length = 7 := by rwa [List.append_nil]
  have hwin := datagram_trailer enc pad hfull htag htrailer
  rwa [List.append_nil] at hwin

/-- The checked bytes and the check are among those received. -/
theorem received_checked {b : Bytes} (hlen : 8 ≤ b.length) :
    received b 0 (b.length - 1) = some (b.take (b.length - 1)) ∧
      received b (b.length - 1) 1 = some (window b (b.length - 1) 1) :=
  ⟨received_take (by omega) (by omega), received_eq (by omega) rfl (by omega)⟩

/-- What stands in front of the padding and the last eight bytes. -/
theorem datagram_received (htrailer : trailer.length = 7) (htag : tag.length = 1) :
    received (datagram enc pad trailer tag) 0
      ((datagram enc pad trailer tag).length - pad.length - 8) = some enc := by
  have hlen := datagram_length enc pad htrailer htag
  have htake : (datagram enc pad trailer tag).take enc.length = enc := by
    unfold datagram
    rw [List.append_assoc, List.take_left]
  have hread : (((datagram enc pad trailer tag).length : ℤ) - pad.length - 8) = (enc.length : ℕ) := by omega
  rw [received_take hread (by omega), htake]

variable {enc pad}

/-- The server finds the data of a datagram that it accepts. -/
theorem serverUdpPostDecrypt_datagram (info : ServerInfo) (l : Context S) {auth uid : Bytes}
    (hauth : auth.length = 3) (huid : uid.length = 4) (htag : tag.length = 1)
    (hpad : pad.length = (udpGetRandLen (S.hmac.run auth info.key)).2)
    (haccept : UdpAccepted S info.key (datagram enc pad (auth ++ uid) tag)) :
    ∃ l', serverUdpPostDecrypt S info l (datagram enc pad (auth ++ uid) tag) =
      some (l', some (udpDecrypt S info.key (S.hmac.run auth info.key) enc, 0)) := by
  have htrailer : (auth ++ uid).length = 7 := by rw [List.length_append, hauth, huid]
  have hlen := datagram_length enc pad htrailer htag
  have hfront := datagram_trailer enc pad htrailer htag hauth
  have hdata := datagram_received enc pad htrailer htag
  generalize datagram enc pad (auth ++ uid) tag = b at hlen hfront hdata haccept
  -- every read of the receiver lies inside the datagram
  have hmsg : received b (b.length - 8) 3 = some auth := by
    rw [← hfront]
    exact received_eq (by omega) rfl (by omega)
  have huid' : received b (b.length - 5) 4 = some (window b (b.length - 5) 4) :=
    received_eq (by omega) rfl (by omega)
  obtain ⟨hall, hcheck⟩ := received_checked (show 8 ≤ b.length by omega)
  unfold UdpAccepted at haccept
  rw [hpad] at hdata
  refine ⟨{ l with sent := { l.sent with random := (udpGetRandLen (S.hmac.run auth info.key)).1 } }, ?_⟩
  unfold serverUdpPostDecrypt
  simp only [hmsg, huid', hall, hcheck, Option.bind_eq_bind, Option.bind_some]
  rw [if_neg (not_not.2 haccept), hdata]
  rfl

/-- So does the client, behind a datagram that is not empty but for its last eight bytes. -/
theorem clientUdpPostDecrypt_datagram (info : ServerInfo) (l : Context S) {trailer : Bytes}
    (htrailer : trailer.length = 7) (htag : tag.length = 1) (hdata : enc ≠ [])
    (hpad : pad.length = (udpGetRandLen (S.hmac.run trailer info.key)).2)
    (haccept : UdpAccepted S l.userKey (datagram enc pad trailer tag)) :
    ∃ l', clientUdpPostDecrypt S info l (datagram enc pad trailer tag) =
      some (l', udpDecrypt S l.userKey (S.hmac.run trailer info.key) enc) := by
  have hpos := List.length_pos_iff.2 hdata
  have hlen := datagram_length enc pad htrailer htag
  have hfront := datagram_trailer_all enc pad htrailer htag
  have hread := datagram_received enc pad htrailer htag
  generalize datagram enc pad trailer tag = b at hlen hfront hread haccept
  -- as for the server, and the datagram is long enough for the first check
  have htail : received b (b.length - 8) 7 = some trailer := by
    rw [← hfront]
    exact received_eq (by omega) rfl (by omega)
  obtain ⟨hall, hcheck⟩ := received_checked (show 8 ≤ b.length by omega)
  unfold UdpAccepted at haccept
  rw [hpad] at hread
  refine ⟨{ l with
    received := { l.received with random := (udpGetRandLen (S.hmac.run trailer info.key)).1 } }, ?_⟩
  unfold clientUdpPostDecrypt
  rw [if_neg (by omega)]
  simp only [htail, hall, hcheck, Option.bind_eq_bind, Option.bind_some]
  rw [if_neg (not_not.2 haccept), hread]
  rfl

end Layout

/-! ## Round trips -/

/-- Without a `uid:key` parameter the user's key is the server's, from the first datagram on. -/
theorem udpUser_key {info : ServerInfo} (huser : info.user = none) {l : Context S}
    (hkey : l.userKey = [] ∨ l.userKey = info.key) (uid : ℕ → UInt8) :
    (udpUser S info l uid).2 = info.key := by
  unfold udpUser
  rw [huser]
  split
  · rfl
  · rename_i hne
    rcases hkey with hnil | hset
    · exact absurd (by rw [hnil]; rfl) hne
    · exact hset

theorem tag_length (S : Suite) (msg key : Bytes) : ((S.hmac.run msg key).take 1).length = 1 := by
  rw [List.length_take, S.hmac.run_length]
  rfl

/-- What `auth_chain_a_encryptor` makes of the data. -/
def encrypted (S : Suite) (key hash data : Bytes) : Bytes :=
  (run S.rc4.enc (S.rc4Key (password key hash)) data).2

/-- A datagram with the check that the key gives it. -/
def checked (S : Suite) (key enc pad trailer : Bytes) : Bytes :=
  datagram enc pad trailer ((S.hmac.run (enc ++ (pad ++ trailer)) key).take 1)

theorem checked_accepted (S : Suite) (key enc pad trailer : Bytes) :
    UdpAccepted S key (checked S key enc pad trailer) :=
  (datagram_accepted_iff enc pad (tag_length S _ key)).2 rfl

theorem udpEncrypt_of_le {key : Bytes} (hkey : 2 ≤ key.length) (msg macKey data : Bytes) :
    udpEncrypt S key (S.hmac.run msg macKey) data = some (encrypted S key (S.hmac.run msg macKey) data) := by
  unfold udpEncrypt
  rw [mixedKey_of_le hkey (S.hmac.run_length _ _)]
  rfl

theorem serverUdpPostDecryptChecked_checked (info : ServerInfo) (l : Context S) (enc : Bytes)
    {pad auth uid : Bytes} (hauth : auth.length = 3) (huid : uid.length = 4)
    (hpad : pad.length = (udpGetRandLen (S.hmac.run auth info.key)).2) :
    ∃ l', serverUdpPostDecryptChecked S info l (checked S info.key enc pad (auth ++ uid)) =
      (mixedKey info.key (S.hmac.run auth info.key)).map fun _ =>
        (l', some (udpDecrypt S info.key (S.hmac.run auth info.key) enc, 0)) := by
  have htrailer : (auth ++ uid).length = 7 := by rw [List.length_append, hauth, huid]
  have htag := tag_length S (enc ++ (pad ++ (auth ++ uid))) info.key
  obtain ⟨l', hrecv⟩ := serverUdpPostDecrypt_datagram info l hauth huid htag hpad
    (checked_accepted S info.key enc pad (auth ++ uid))
  have hfront := datagram_trailer enc pad htrailer htag hauth
  refine ⟨l', ?_⟩
  unfold serverUdpPostDecryptChecked checked
  rw [hrecv]
  simp only [Option.bind_eq_bind, Option.bind_some, Option.isNone_some, Bool.false_eq_true, if_false]
  rw [hfront, Option.map_eq_bind]
  rfl

theorem clientUdpPostDecryptChecked_checked (info : ServerInfo) (l : Context S) {enc pad trailer : Bytes}
    (htrailer : trailer.length = 7) (henc : enc ≠ [])
    (hpad : pad.length = (udpGetRandLen (S.hmac.run trailer info.key)).2) :
    ∃ l', clientUdpPostDecryptChecked S info l (checked S l.userKey enc pad trailer) =
      (mixedKey l.userKey (S.hmac.run trailer info.key)).bind fun password =>
        if 256 ≤ password.length then none
        else some (l', udpDecrypt S l.userKey (S.hmac.run trailer info.key) enc) := by
  have hpos := List.length_pos_iff.2 henc
  have htag := tag_length S (enc ++ (pad ++ trailer)) l.userKey
  have haccept := checked_accepted S l.userKey enc pad trailer
  obtain ⟨l', hrecv⟩ := clientUdpPostDecrypt_datagram info l htrailer htag henc hpad haccept
  have hfront := datagram_trailer_all enc pad htrailer htag
  have hlen := datagram_length enc pad htrailer htag
  -- neither of the two early returns is taken
  have hlook : ¬ ((checked S l.userKey enc pad trailer).length ≤ 8 ∨
      ¬ UdpAccepted S l.userKey (checked S l.userKey enc pad trailer)) := by
    rintro (hshort | hrefused)
    · unfold checked at hshort
      omega
    · exact hrefused haccept
  refine ⟨l', ?_⟩
  unfold clientUdpPostDecryptChecked
  unfold checked at hlook ⊢
  rw [hrecv]
  simp only [Option.bind_eq_bind, Option.bind_some, if_neg hlook]
  rw [hfront]
  rfl

/-- What a client sends, with a key of at least two bytes. -/
theorem clientUdpPreEncrypt_spec {info : ServerInfo} {l : Context S} {d : UdpDraws}
    (huserKey : (udpUser S info l d.uid).2 = info.key) (hkey : 2 ≤ info.key.length) (data : Bytes) :
    ∃ l' auth uid pad, auth.length = 3 ∧ uid.length = 4 ∧
      pad.length = (udpGetRandLen (S.hmac.run auth info.key)).2 ∧ l'.userKey = info.key ∧
      clientUdpPreEncrypt S info l d data =
        some (l', checked S info.key (encrypted S info.key (S.hmac.run auth info.key) data) pad
          (auth ++ uid)) := by
  let auth := randBytes d.authData 3
  let md5data := S.hmac.run auth info.key
  let user := udpUser S info l d.uid
  let rand := udpGetRandLen md5data
  refine ⟨{ l with uid := user.1, userKey := user.2, sent := { l.sent with random := rand.1 } }, auth,
    Lib.Hash.xorWith (window md5data 0 4) (window user.1 0 4), randBytes d.pad rand.2,
    randBytes_length _ _, ?_, randBytes_length _ _, huserKey, ?_⟩
  · rw [Lib.Hash.xorWith_length, window_length]
  · unfold clientUdpPreEncrypt
    dsimp only
    rw [huserKey, udpEncrypt_of_le hkey]
    rfl

theorem serverUdpPreEncrypt_spec (info : ServerInfo) (l : Context S) (d : UdpDraws)
    (hkey : 2 ≤ info.key.length) (data : Bytes) :
    ∃ l' auth pad, auth.length = 7 ∧ pad.length = (udpGetRandLen (S.hmac.run auth info.key)).2 ∧
      serverUdpPreEncrypt S info l d data =
        some (l', checked S info.key (encrypted S info.key (S.hmac.run auth info.key) data) pad
          auth) := by
  let auth := randBytes d.authData 7
  let rand := udpGetRandLen (S.hmac.run auth info.key)
  refine ⟨{ l with sent := { l.sent with random := rand.1 } }, auth, randBytes d.pad rand.2,
    randBytes_length _ _, randBytes_length _ _, ?_⟩
  unfold serverUdpPreEncrypt
  dsimp only
  rw [udpEncrypt_of_le hkey]
  rfl

/-- With a key of less than two bytes nothing is sent. -/
theorem clientUdpPreEncrypt_of_lt {info : ServerInfo} {l : Context S} {d : UdpDraws}
    (huserKey : (udpUser S info l d.uid).2 = info.key) (hkey : info.key.length < 2) (data : Bytes) :
    clientUdpPreEncrypt S info l d data = none := by
  unfold clientUdpPreEncrypt udpEncrypt
  dsimp only
  rw [huserKey, mixedKey_of_lt hkey]
  rfl

theorem serverUdpPreEncrypt_of_lt {info : ServerInfo} (hkey : info.key.length < 2) (l : Context S)
    (d : UdpDraws) (data : Bytes) : serverUdpPreEncrypt S info l d data = none := by
  unfold serverUdpPreEncrypt udpEncrypt
  dsimp only
  rw [mixedKey_of_lt hkey]
  rfl

/-- A datagram to the server is restored exactly when the key has two bytes. -/
theorem udp_toServer_iff {info : ServerInfo} (huser : info.user = none) {lc : Context S}
    (hkey : lc.userKey = [] ∨ lc.userKey = info.key) (ls : Context S) (d : UdpDraws) (data : Bytes) :
    (∃ lc' out ls', clientUdpPreEncrypt S info lc d data = some (lc', out) ∧
        serverUdpPostDecryptChecked S info ls out = some (ls', some (data, 0))) ↔
      2 ≤ info.key.length := by
  have huserKey := udpUser_key huser hkey d.uid
  constructor
  · -- with a shorter key nothing is sent
    rintro ⟨lc', out, ls', hsend, -⟩
    by_contra hshort
    rw [clientUdpPreEncrypt_of_lt huserKey (Nat.not_le.1 hshort) data] at hsend
    cases hsend
  · intro hlong
    obtain ⟨lc', auth, uid, pad, hauth, huid, hpad, -, hsend⟩ :=
      clientUdpPreEncrypt_spec huserKey hlong data
    obtain ⟨ls', hrecv⟩ := serverUdpPostDecryptChecked_checked info ls
      (encrypted S info.key (S.hmac.run auth info.key) data) hauth huid hpad
    refine ⟨lc', _, ls', hsend, ?_⟩
    rw [hrecv, mixedKey_of_le hlong (S.hmac.run_length _ _), encrypted, udpDecrypt_encrypted]
    rfl

theorem encrypted_ne_nil (S : Suite) (key hash : Bytes) {data : Bytes} (hdata : data ≠ []) :
    encrypted S key hash data ≠ [] := by
  intro hnil
  have hlen := run_snd_length S.rc4.enc (S.rc4Key (password key hash)) data
  rw [encrypted] at hnil
  rw [hnil, List.length_nil] at hlen
  exact hdata (List.length_eq_zero_iff.1 hlen.symm)

/-- A datagram to a client that has sent one is restored exactly when the key has two bytes and the
password fits its array. -/
theorem udp_toClient_iff {info : ServerInfo} {lc : Context S}
    (hset : lc.userKey = info.key) (ls : Context S) (d : UdpDraws) {data : Bytes} (hdata : data ≠ []) :
    (∃ ls' out lc', serverUdpPreEncrypt S info ls d data = some (ls', out) ∧
        clientUdpPostDecryptChecked S info lc out = some (lc', data)) ↔
      2 ≤ info.key.length ∧ info.key.length ≤ 171 := by
  by_cases hlong : 2 ≤ info.key.length
  · obtain ⟨ls', auth, pad, hauth, hpad, hsend⟩ := serverUdpPreEncrypt_spec (S := S) info ls d hlong data
    have hhash := S.hmac.run_length auth info.key
    obtain ⟨lc', hrecv⟩ := clientUdpPostDecryptChecked_checked (S := S) info lc hauth
      (encrypted_ne_nil S info.key (S.hmac.run auth info.key) hdata) hpad
    rw [hset, mixedKey_of_le hlong hhash, Option.bind_some, encrypted, udpDecrypt_encrypted] at hrecv
    have hfits := password_length_lt_iff info.key hhash
    rw [and_iff_right hlong, ← hfits]
    -- the password is 24 letters and the key's; `char password[256]` decides
    constructor
    · rintro ⟨_, out, lc'', hsend', hrecv'⟩
      rw [hsend] at hsend'
      cases hsend'
      by_contra hlarge
      rw [encrypted, hrecv, if_pos (Nat.not_lt.1 hlarge)] at hrecv'
      cases hrecv'
    · intro hsmall
      rw [if_neg (Nat.not_le.2 hsmall)] at hrecv
      exact ⟨ls', _, lc', hsend, hrecv⟩
  · refine iff_of_false ?_ fun h => hlong h.1
    rintro ⟨ls', out, lc', hsend, -⟩
    rw [serverUdpPreEncrypt_of_lt (Nat.not_le.1 hlong)] at hsend
    cases hsend

end Datagram

/-- The round trips of a datagram without a `uid:key` parameter.  A client that has sent one keeps the
server's key as its user's key; the server restores what such a client sends, or one that starts, exactly
when the key has two bytes, and the client what the server sends when, besides, the password fits. -/
theorem datagram_round_trip_iff (S : Suite) (info : ServerInfo) (huser : info.user = none) (lc ls : Context S)
    (hset : lc.userKey = [] ∨ lc.userKey = info.key) (d : UdpDraws) (data : Bytes) (hdata : data ≠ []) :
    (∀ lc' out, clientUdpPreEncrypt S info lc d data = some (lc', out) → lc'.userKey = info.key) ∧
    ((∃ lc' out ls', clientUdpPreEncrypt S info lc d data = some (lc', out) ∧
        serverUdpPostDecryptChecked S info ls out = some (ls', some (data, 0))) ↔
      2 ≤ info.key.length) ∧
    (lc.userKey = info.key →
      ((∃ ls' out lc', serverUdpPreEncrypt S info ls d data = some (ls', out) ∧
          clientUdpPostDecryptChecked S info lc out = some (lc', data)) ↔
        2 ≤ info.key.length ∧ info.key.length ≤ 171)) := by
  refine ⟨?_, udp_toServer_iff huser hset ls d data, fun hkey => udp_toClient_iff hkey ls d hdata⟩
  intro lc' out hsend
  have huserKey := udpUser_key huser hset d.uid
  by_cases hlong : 2 ≤ info.key.length
  · obtain ⟨_, _, _, _, -, -, -, hkey, hsend'⟩ := clientUdpPreEncrypt_spec huserKey hlong data
    rw [hsend] at hsend'
    cases hsend'
    exact hkey
  · rw [clientUdpPreEncrypt_of_lt huserKey (Nat.not_le.1 hlong)] at hsend
    cases hsend

def sampleUdpInfo (key : Bytes) : ServerInfo := ⟨[], [], key, 4, none⟩

def sampleUdpDraws : UdpDraws := ⟨fun i => UInt8.ofNat i, fun _ => 5, fun _ => 9⟩

/-- A client with a key of sixteen bytes, before its first datagram and behind it. -/
theorem datagram_round_trip_sample :
    let info := sampleUdpInfo (List.replicate 16 1)
    let lc := contextInit suite 1452
    (∃ lc' out ls', clientUdpPreEncrypt suite info lc sampleUdpDraws [7] = some (lc', out) ∧
        serverUdpPostDecryptChecked suite info lc out = some (ls', some ([7], 0))) ∧
      ∃ ls' out lc', serverUdpPreEncrypt suite info lc sampleUdpDraws [7] = some (ls', out) ∧
        clientUdpPostDecryptChecked suite info { lc with userKey := info.key } out =
          some (lc', [7]) := by
  intro info lc
  have hfirst := datagram_round_trip_iff suite info rfl lc lc (.inl rfl) sampleUdpDraws [7] (by decide)
  have hnext := datagram_round_trip_iff suite info rfl { lc with userKey := info.key } lc (.inr rfl)
    sampleUdpDraws [7] (by decide)
  exact ⟨hfirst.2.1.2 (by decide), (hnext.2.2 rfl).2 ⟨by decide, by decide⟩⟩

/-- With a key of one byte, as the method `table` has for a password of one letter, there is no
datagram. -/
theorem udp_short_key_fails :
    ¬ ∀ (key : Bytes) (data : Bytes), data ≠ [] →
      ∃ lc' out ls',
        clientUdpPreEncrypt suite (sampleUdpInfo key) (contextInit suite 1452) sampleUdpDraws data =
            some (lc', out) ∧
          serverUdpPostDecryptChecked suite (sampleUdpInfo key) (contextInit suite 1452) out =
            some (ls', some (data, 0)) := by
  intro h
  obtain ⟨lc', out, ls', hsend, -⟩ := h [0x61] [7] (by decide)
  rw [clientUdpPreEncrypt_of_lt rfl (by decide)] at hsend
  cases hsend

end AuthChain
end Obfs
end SsrNative
