import SsrNative.Aead

/-!
# AeadAll — the datagrams of the AEAD methods

A datagram is a salt and one box.  `aead_decrypt_all` has an error for a datagram that is too short, for a
salt that was used before and for a box that does not open; `ss_decrypt_all` asserts that there was none,
so that the two callbacks behind it never reach the place where they would drop the datagram.  The callback of
the client begins with an assertion on the address of the sender.
-/

namespace SsrNative
namespace Aead

open Bytes

/-- A method whose boxes are only those it has sealed: the tag is taken of what was encrypted. -/
structure SealedCipher extends AeadCipher where
  encrypt_of_decrypt : ∀ n k box m, decrypt n k box = some m → box = encrypt n k m

/-! ## Datagrams -/

section Definitions

variable (C : AeadCipher) (F : Bloom)

/-- `aead_encrypt_all`; `salt` is what `aead_ctx_init` draws. -/
def aeadEncryptAll (b : F.State) (salt plaintext : Bytes) : F.State × (CryptoResult × Bytes) :=
  let ctx := aeadCipherCtxSetKey C (aeadCtxInit C salt)
  (F.add b ctx.salt, (.ok, ctx.salt ++ C.encrypt ctx.nonce ctx.skey plaintext))

def aeadDecryptAll (b : F.State) (ciphertext : Bytes) : F.State × (CryptoResult × Bytes) :=
  if ciphertext.length ≤ C.keyLen + C.tagLen then (b, (.error, ciphertext))
  else
    let ctx := aeadCtxInit C (ciphertext.take C.keyLen)
    if F.check b ctx.salt = true then (b, (.error, ciphertext))
    else
      let ctx := aeadCipherCtxSetKey C ctx
      match C.decrypt ctx.nonce ctx.skey (ciphertext.drop C.keyLen) with
      | none => (b, (.error, ciphertext))
      | some plaintext => (F.add b ctx.salt, (.ok, plaintext))

/-- `ss_encrypt_all`; there is no result when the assertion on the result fails. -/
def ssEncryptAll (b : F.State) (salt plain : Bytes) : Option (F.State × (CryptoResult × Bytes)) :=
  let r := aeadEncryptAll C F b salt plain
  if r.2.1 = .ok then some r else none

/-- `ss_decrypt_all`, with the same assertion. -/
def ssDecryptAll (b : F.State) (cipher : Bytes) : Option (F.State × (CryptoResult × Bytes)) :=
  let r := aeadDecryptAll C F b cipher
  if r.2.1 = .ok then some r else none

/-! ## Callbacks -/

/-- What becomes of a datagram: an assertion ends the process, the datagram is dropped, or its plaintext
goes on to the protocol plugin and to the relay. -/
inductive Outcome where
  | aborted
  | dropped
  | decrypted (plain : Bytes)
  deriving DecidableEq

/-- The call of `ss_decrypt_all` and the test of its result, the same in both callbacks. -/
def decryptOrDrop (b : F.State) (buf : Bytes) : F.State × Outcome :=
  match ssDecryptAll C F b buf with
  | none => (b, .aborted)
  | some (b, err, buf) => if err ≠ .ok then (b, .dropped) else (b, .decrypted buf)

/-- `client_udp_remote_recv_cb` up to the protocol plugin.  The socket is not connected, so `addr`, the
first bytes of the sender's address, may be any; an assertion compares them with those of the server's. -/
def clientUdpRemoteRecvCb (serverAddr : Bytes) (addr : Option Bytes) (b : F.State) (data : Bytes) :
    F.State × Outcome :=
  if ∀ a ∈ addr, a = serverAddr then
    if data.length = 0 then (b, .dropped) else decryptOrDrop C F b data
  else (b, .aborted)

/-- `server_udp_listener_recv_cb` up to the protocol plugin; without an address nothing was received. -/
def serverUdpListenerRecvCb (packetSize : ℕ) (addr : Bool) (b : F.State) (data : Bytes) :
    F.State × Outcome :=
  if addr = false then (b, .dropped)
  else if data.length = 0 then (b, .dropped)
  else if packetSize < data.length then (b, .dropped)
  else decryptOrDrop C F b data

inductive Callback where
  | client (serverAddr : Bytes) (addr : Option Bytes)
  | server (packetSize : ℕ) (addr : Bool)

def Callback.recv (b : F.State) (data : Bytes) : Callback → F.State × Outcome
  | .client serverAddr addr => clientUdpRemoteRecvCb C F serverAddr addr b data
  | .server packetSize addr => serverUdpListenerRecvCb C F packetSize addr b data

/-- The client asserts that the datagram is from its server. -/
def Callback.Expected : Callback → Prop
  | .client serverAddr addr => ∀ a ∈ addr, a = serverAddr
  | .server _ _ => True

/-- The callback drops an expected datagram without a look into it. -/
def Callback.Screens (data : Bytes) : Callback → Prop
  | .client _ _ => data = []
  | .server packetSize addr => addr = false ∨ data = [] ∨ packetSize < data.length

/-! ## Statements -/

/-- `data` is what `ss_encrypt_all` makes of `plain`, under a salt that the filter does not report. -/
def SealedFresh (b : F.State) (plain data : Bytes) : Prop :=
  ∃ salt : Bytes, salt.length = C.keyLen ∧ F.check b salt = false ∧
    ∃ bEnc b', ssEncryptAll C F bEnc salt plain = some (b', .ok, data)

/-- No assertion fails at the datagram, and a plaintext that goes on is the one that was sealed. -/
structure Tolerated (cb : Callback) (b : F.State) (data : Bytes) : Prop where
  returns : (cb.recv C F b data).2 ≠ .aborted
  exact : ∀ plain, (cb.recv C F b data).2 = .decrypted plain → SealedFresh C F b plain data

end Definitions

/-! ## Decryption -/

section Datagram

variable {C : SealedCipher} {F : Bloom} {b : F.State} {plain data : Bytes}

theorem sealedFresh_iff :
    SealedFresh C.toAeadCipher F b plain data ↔ ∃ salt : Bytes, salt.length = C.keyLen ∧
      F.check b salt = false ∧
        data = salt ++ C.encrypt (List.replicate C.nonceLen 0) (subkey C.toAeadCipher salt) plain := by
  have hval : ∀ (bEnc : F.State) (salt : Bytes), ssEncryptAll C.toAeadCipher F bEnc salt plain =
      some (F.add bEnc salt, .ok,
        salt ++ C.encrypt (List.replicate C.nonceLen 0) (subkey C.toAeadCipher salt) plain) :=
    fun _ _ => rfl
  constructor
  · rintro ⟨salt, hlen, hfresh, bEnc, b', henc⟩
    rw [hval] at henc
    cases henc
    exact ⟨salt, hlen, hfresh, rfl⟩
  · rintro ⟨salt, hlen, hfresh, rfl⟩
    exact ⟨salt, hlen, hfresh, b, F.add b salt, hval b salt⟩

/-- Every error of `aead_decrypt_all` fails the assertion; what is left are the datagrams that were
sealed, and hold something. -/
theorem ssDecryptAll_eq_some_iff {r : F.State × (CryptoResult × Bytes)} :
    ssDecryptAll C.toAeadCipher F b data = some r ↔
      ∃ plain, plain ≠ [] ∧ SealedFresh C.toAeadCipher F b plain data ∧
        r = (F.add b (data.take C.keyLen), .ok, plain) := by
  by_cases hshort : data.length ≤ C.keyLen + C.tagLen
  · -- a box is longer than its tag only around a plaintext that is not empty
    have hnone : ssDecryptAll C.toAeadCipher F b data = none := by
      simp [ssDecryptAll, aeadDecryptAll, hshort]
    rw [hnone]
    refine ⟨nofun, ?_⟩
    rintro ⟨plain, hne, hsealed, -⟩
    obtain ⟨salt, hlen, -, rfl⟩ := sealedFresh_iff.1 hsealed
    rw [List.length_append, C.encrypt_length, hlen] at hshort
    exact absurd (List.length_eq_zero_iff.1 (by omega)) hne
  · by_cases hseen : F.check b (data.take C.keyLen) = true
    · -- a salt in the filter: `CRYPTO_ERROR`
      have hnone : ssDecryptAll C.toAeadCipher F b data = none := by
        simp [ssDecryptAll, aeadDecryptAll, hshort, aeadCtxInit, hseen]
      rw [hnone]
      refine ⟨nofun, ?_⟩
      rintro ⟨plain, -, hsealed, -⟩
      obtain ⟨salt, hlen, hfresh, rfl⟩ := sealedFresh_iff.1 hsealed
      rw [List.take_left' hlen, hfresh] at hseen
      cases hseen
    · -- what is left is the box, opened with the first nonce
      have hval : ssDecryptAll C.toAeadCipher F b data =
          (C.decrypt (List.replicate C.nonceLen 0) (subkey C.toAeadCipher (data.take C.keyLen))
            (data.drop C.keyLen)).map fun plain => (F.add b (data.take C.keyLen), .ok, plain) := by
        simp only [ssDecryptAll, aeadDecryptAll, if_neg hshort, aeadCtxInit, hseen, if_false,
          aeadCipherCtxSetKey]
        cases C.decrypt (List.replicate C.nonceLen 0)
          (subkey C.toAeadCipher (data.take C.keyLen)) (data.drop C.keyLen) <;> rfl
      rw [hval, Option.map_eq_some_iff]
      constructor
      · -- what opens was sealed: this direction needs `encrypt_of_decrypt`
        rintro ⟨plain, hdec, rfl⟩
        have hbox := C.encrypt_of_decrypt _ _ _ _ hdec
        refine ⟨plain, ?_, sealedFresh_iff.2 ⟨data.take C.keyLen, ?_, by simpa using hseen, ?_⟩, rfl⟩
        · rintro rfl
          have hlen := congrArg List.length hbox
          rw [List.length_drop, C.encrypt_length, List.length_nil] at hlen
          omega
        · rw [List.length_take]
          omega
        · rw [← hbox, List.take_append_drop]
      · rintro ⟨plain, -, hsealed, rfl⟩
        obtain ⟨salt, hlen, -, rfl⟩ := sealedFresh_iff.1 hsealed
        refine ⟨plain, ?_, rfl⟩
        rw [List.take_left' hlen, List.drop_left' hlen, C.decrypt_encrypt]

theorem decryptOrDrop_decrypted_iff :
    (decryptOrDrop C.toAeadCipher F b data).2 = .decrypted plain ↔
      plain ≠ [] ∧ SealedFresh C.toAeadCipher F b plain data := by
  unfold decryptOrDrop
  cases hdec : ssDecryptAll C.toAeadCipher F b data with
  | none =>
      refine ⟨nofun, ?_⟩
      rintro ⟨hne, hsealed⟩
      have hsome := ssDecryptAll_eq_some_iff.2 ⟨plain, hne, hsealed, rfl⟩
      rw [hdec] at hsome
      cases hsome
  | some r =>
      obtain ⟨plain', hne, hsealed, rfl⟩ := ssDecryptAll_eq_some_iff.1 hdec
      constructor
      · intro h
        cases h
        exact ⟨hne, hsealed⟩
      · rintro ⟨hne', hsealed'⟩
        have hsome := ssDecryptAll_eq_some_iff.2 ⟨plain, hne', hsealed', rfl⟩
        rw [hdec] at hsome
        cases hsome
        rfl

/-- There is no way to the place where the callbacks drop a datagram. -/
theorem decryptOrDrop_aborted_iff :
    (decryptOrDrop C.toAeadCipher F b data).2 = .aborted ↔
      ∀ plain, (decryptOrDrop C.toAeadCipher F b data).2 ≠ .decrypted plain := by
  unfold decryptOrDrop
  cases hdec : ssDecryptAll C.toAeadCipher F b data with
  | none => exact ⟨nofun, fun _ => rfl⟩
  | some r =>
      obtain ⟨plain, -, -, rfl⟩ := ssDecryptAll_eq_some_iff.1 hdec
      exact ⟨nofun, fun h => absurd rfl (h plain)⟩

theorem recv_unexpected {cb : Callback} (h : ¬ cb.Expected) (b : F.State) :
    (cb.recv C.toAeadCipher F b data).2 = .aborted := by
  cases cb with
  | client serverAddr addr =>
      have haddr : ¬ ∀ a ∈ addr, a = serverAddr := h
      rw [Callback.recv, clientUdpRemoteRecvCb, if_neg haddr]
  | server packetSize addr => exact absurd trivial h

theorem recv_screens {cb : Callback} (hexpected : cb.Expected) (h : cb.Screens data) (b : F.State) :
    (cb.recv C.toAeadCipher F b data).2 = .dropped := by
  cases cb with
  | client serverAddr addr =>
      have haddr : ∀ a ∈ addr, a = serverAddr := hexpected
      rw [Callback.recv, clientUdpRemoteRecvCb, if_pos haddr, show data = [] from h]
      rfl
  | server packetSize addr =>
      rcases h with rfl | rfl | hlong
      · simp [Callback.recv, serverUdpListenerRecvCb]
      · simp [Callback.recv, serverUdpListenerRecvCb]
      · simp [Callback.recv, serverUdpListenerRecvCb, hlong]

theorem recv_of_not_screens {cb : Callback} (hexpected : cb.Expected) (h : ¬ cb.Screens data) (b : F.State) :
    cb.recv C.toAeadCipher F b data = decryptOrDrop C.toAeadCipher F b data := by
  cases cb with
  | client serverAddr addr =>
      have haddr : ∀ a ∈ addr, a = serverAddr := hexpected
      have hne : data.length ≠ 0 := fun hlength => h (List.length_eq_zero_iff.1 hlength)
      rw [Callback.recv, clientUdpRemoteRecvCb, if_pos haddr, if_neg hne]
  | server packetSize addr =>
      simp only [Callback.Screens, not_or] at h
      simp [Callback.recv, serverUdpListenerRecvCb, h.1, h.2.1, h.2.2]

end Datagram

/-- A datagram is survived exactly if it is not from a stranger to the client, and the callback does not look
into it, or it was sealed around a plaintext that is not empty, under a salt that is not in the filter. -/
theorem hostile_datagram_iff (C : SealedCipher) (F : Bloom) (cb : Callback) (b : F.State)
    (data : Bytes) :
    Tolerated C.toAeadCipher F cb b data ↔
      cb.Expected ∧ (cb.Screens data ∨ ∃ plain, plain ≠ [] ∧ SealedFresh C.toAeadCipher F b plain data) := by
  by_cases hexpected : cb.Expected
  · rw [and_iff_right hexpected]
    by_cases hscreen : cb.Screens data
    · -- the callback returns before it decrypts
      have hdrop := recv_screens (C := C) hexpected hscreen b
      exact ⟨fun _ => .inl hscreen, fun _ => ⟨by simp [hdrop], by simp [hdrop]⟩⟩
    · have hrecv := recv_of_not_screens (C := C) hexpected hscreen b
      constructor
      · -- a call that returns has decrypted: there is no third outcome
        intro h
        have hreturns := h.returns
        rw [hrecv, Ne, decryptOrDrop_aborted_iff, not_forall] at hreturns
        obtain ⟨plain, hplain⟩ := hreturns
        exact .inr ⟨plain, decryptOrDrop_decrypted_iff.1 (not_not.1 hplain)⟩
      · rintro (hs | ⟨plain, hplain⟩)
        · exact absurd hs hscreen
        · have hout := decryptOrDrop_decrypted_iff.2 hplain
          refine ⟨by simp [hrecv, hout], ?_⟩
          intro plain' hplain'
          rw [hrecv] at hplain'
          exact (decryptOrDrop_decrypted_iff.1 hplain').2
  · have haborted : (cb.recv C.toAeadCipher F b data).2 = .aborted := recv_unexpected hexpected b
    exact iff_of_false (fun h => h.returns haborted) fun h => hexpected h.1

def chacha20IetfPoly1305Sealed (key : Bytes) : SealedCipher where
  toAeadCipher := chacha20IetfPoly1305 key
  encrypt_of_decrypt _ _ _ _ h := Lib.ChaCha20Poly1305.sealBox_of_openBox h

/-- 10.0.0.1:8388, and 10.0.0.2 with the same port. -/
def sampleAddr : Bytes := [2, 0, 0x20, 0xc4, 10, 0, 0, 1, 0, 0, 0, 0, 0, 0, 0, 0]

def strangeAddr : Bytes := [2, 0, 0x20, 0xc4, 10, 0, 0, 2, 0, 0, 0, 0, 0, 0, 0, 0]

/-- Three bytes end the client, when they are from its server's address, and the server; and a datagram without
any byte ends the client, when it is from another address. -/
theorem hostile_datagram_aborts :
    ¬ Tolerated (chacha20IetfPoly1305 sampleSalt) exactBloom (.client sampleAddr (some sampleAddr)) emptyBloom
        [1, 2, 3] ∧
      ¬ Tolerated (chacha20IetfPoly1305 sampleSalt) exactBloom (.server 65507 true) emptyBloom
        [1, 2, 3] ∧
      ¬ Tolerated (chacha20IetfPoly1305 sampleSalt) exactBloom (.client sampleAddr (some strangeAddr)) emptyBloom
        [] := by
  refine ⟨fun h => ?_, fun h => ?_, fun h => ?_⟩
  · exact h.returns rfl
  · exact h.returns rfl
  · exact h.returns rfl

end Aead
end SsrNative
