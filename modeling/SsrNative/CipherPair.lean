import SsrNative.Aead
import SsrNative.Encrypt

/-!
# CipherPair — the two ends of an encrypted connection

A tunnel over TLS has neither protocol nor obfuscation, so what crosses it is the output of
`ss_encrypt`.  `CipherPair` is a method at both ends, with what lets the receiver read what the sender
wrote, call by call.  The stream ciphers and the AEAD methods are its instances.
-/

namespace SsrNative

open Bytes
open Lib.Segments

/-- `ss_encrypt` at one end and `ss_decrypt` at the other; `none` is a non-zero return value.  While
the ends are `Synced` the output of a call that is allowed (`Fits`) is read in one piece; like the
callers of `ss_decrypt` the receiver passes an empty buffer by. -/
structure CipherPair where
  Sender : Type
  Receiver : Type
  ssEncrypt : Sender → Bytes → Sender × Option Bytes
  ssDecrypt : Receiver → Bytes → Receiver × Option Bytes
  Synced : Sender → Receiver → Prop
  Fits : Bytes → Prop
  decrypt_encrypt : ∀ {s r p}, Synced s r → Fits p → ∃ c, (ssEncrypt s p).2 = some c ∧
    (if 0 < c.length then ssDecrypt r c else (r, some c)).2 = some p ∧
    Synced (ssEncrypt s p).1 (if 0 < c.length then ssDecrypt r c else (r, some c)).1

/-! ## Stream ciphers -/

section Stream

variable (C : StreamCipher)

/-- A stream cipher whose IV is not empty; `iv` is the sender's. -/
def streamPair (hiv : 0 < C.ivLen) (iv : Bytes) (hlen : iv.length = C.ivLen) : CipherPair where
  Sender := EncCtx C
  Receiver := IvCache × EncCtx C
  ssEncrypt s p :=
    let r := ssEncrypt C iv s p
    (r.1, some r.2)
  ssDecrypt r c :=
    let q := ssDecrypt C r.1 r.2 c
    ((q.1, q.2.1), q.2.2)
  Synced s r := (s = ⟨none⟩ ∧ r.2 = ⟨none⟩ ∧ IvFresh C r.1 iv) ∨ ∃ st, s = ⟨some st⟩ ∧ r.2 = ⟨some st⟩
  Fits _ := True
  decrypt_encrypt := by
    rintro s ⟨cache, ctx⟩ p (⟨rfl, rfl, hfresh⟩ | ⟨st, rfl, rfl⟩) -
    · -- the first call, with the IV in front
      obtain ⟨cache', hdec⟩ := ssDecrypt_first hlen hfresh p
      refine ⟨iv ++ (run C.enc (C.setIv iv) p).2, rfl, ?_⟩
      rw [if_pos (by rw [List.length_append]; omega)]
      dsimp only
      rw [hdec]
      exact ⟨rfl, .inr ⟨_, rfl, rfl⟩⟩
    · have hdec := ssDecrypt_started cache st p
      refine ⟨(run C.enc st p).2, rfl, ?_⟩
      by_cases hpos : 0 < (run C.enc st p).2.length
      · rw [if_pos hpos]
        dsimp only
        rw [hdec]
        exact ⟨rfl, .inr ⟨_, rfl, rfl⟩⟩
      · have hp : p = [] := by
          rw [run_snd_length] at hpos
          exact List.eq_nil_of_length_eq_zero (by omega)
        subst hp
        exact ⟨rfl, .inr ⟨st, rfl, rfl⟩⟩

end Stream

/-! ## AEAD methods -/

namespace Aead

section Pair

open Lib.Framing

/-- One chunk and nothing else in a call. -/
theorem feed_chunk (C : AeadCipher) (skey nonce : Bytes) {p : Bytes} (hp : ChunkSized p) :
    feed (aeadChunkDecrypt C skey) (nonce, []) (chunkBytes C skey nonce p) =
      ((nextNonce nonce, []), (p, none)) := by
  have htook := @aeadChunkDecrypt_full C skey nonce p hp.1 hp.2 []
  have hmore : aeadChunkDecrypt C skey (nextNonce nonce) [] = .more (nextNonce nonce) := by
    rw [aeadChunkDecrypt, if_pos (by rw [List.length_nil]; omega)]
  have hlen := @chunkBytes_length C skey nonce p
  have hpos := hp.1
  rw [List.append_nil] at htook
  obtain ⟨fuel, hfuel⟩ : ∃ fuel, (chunkBytes C skey nonce p).length + 1 = fuel + 1 + 1 :=
    ⟨(chunkBytes C skey nonce p).length - 1, by omega⟩
  rw [feed, List.nil_append, hfuel, drain_took htook, List.drop_length, drain_more hmore]
  rfl

/-- What the sender's call encrypts, the receiver's call decrypts, and the two stay in step. -/
theorem decrypt_encrypt_of_synced (C : AeadCipher) (F : Bloom) {salt : Bytes} (hsalt : salt.length = C.keyLen)
    {s r : AeadCtx × F.State} {p : Bytes}
    (hsync : (s.1 = aeadCtxInit C salt ∧ r.1.init = 0 ∧ r.1.chunk = [] ∧ F.check r.2 salt = false) ∨
      (s.1.init ≠ 0 ∧ Opened s.1.skey r (s.1.nonce, []))) (hfits : p.length ≤ 0x3FFF) :
    let receive := fun r c => ((ssDecryptAead C F r c).1, plaintext? (ssDecryptAead C F r c).2)
    ∃ c, (aeadEncrypt C F s p).2 = some c ∧
      (if 0 < c.length then receive r c else (r, some c)).2 = some p ∧
      let s' := (aeadEncrypt C F s p).1
      let r' := (if 0 < c.length then receive r c else (r, some c)).1
      (s'.1 = aeadCtxInit C salt ∧ r'.1.init = 0 ∧ r'.1.chunk = [] ∧ F.check r'.2 salt = false) ∨
        (s'.1.init ≠ 0 ∧ Opened s'.1.skey r' (s'.1.nonce, [])) := by
  intro receive
  rcases s with ⟨s, bs⟩
  rcases r with ⟨r, br⟩
  by_cases hnil : p = []
  · subst hnil
    exact ⟨[], rfl, rfl, hsync⟩
  have hsized : ChunkSized p := ⟨List.length_pos_iff.2 hnil, hfits⟩
  have hplen : ¬ p.length = 0 := by have := hsized.1; omega
  have hbytes : ∀ skey nonce, 0 < (chunkBytes C skey nonce p).length := by
    intro skey nonce
    rw [chunkBytes_length]
    have := hsized.1
    omega
  rcases hsync with ⟨rfl, hinit, hchunk, hfresh⟩ | ⟨hinit, hopen⟩
  · -- the first call, with the salt in front
    have henc : aeadEncrypt C F (aeadCtxInit C salt, bs) p =
        (({ aeadCtxInit C salt with
            init := 1, skey := subkey C salt, nonce := nextNonce (List.replicate C.nonceLen 0) },
          F.add bs salt),
          some (salt ++ chunkBytes C (subkey C salt) (List.replicate C.nonceLen 0) p)) := by
      have hzero : (aeadCtxInit C salt).init = 0 := rfl
      rw [aeadEncrypt, if_neg hplen, if_pos hzero]
      dsimp only
      rw [aeadChunkEncrypt_of_sized hsized]
      rfl
    have hfeed := feed_chunk C (subkey C salt) (List.replicate C.nonceLen 0) hsized
    have hdec := @ssDecryptAead_salt C F r br
      (salt ++ chunkBytes C (subkey C salt) (List.replicate C.nonceLen 0) p) salt _ hinit hsalt hfresh
      (List.length_pos_iff.1 (hbytes _ _)) (by rw [hchunk]; rfl) (by rw [hfeed])
    rw [hfeed] at hdec
    have hpos := hbytes (subkey C salt) (List.replicate C.nonceLen 0)
    refine ⟨_, by rw [henc], ?_⟩
    rw [if_pos (by rw [List.length_append]; omega), henc]
    dsimp only [receive]
    rw [hdec.2]
    exact ⟨rfl, .inr ⟨Nat.one_ne_zero, hdec.1⟩⟩
  · have henc : aeadEncrypt C F (s, bs) p =
        (({ s with nonce := nextNonce s.nonce }, bs), some (chunkBytes C s.skey s.nonce p)) := by
      rw [aeadEncrypt, if_neg hplen, if_neg hinit]
      dsimp only
      rw [aeadChunkEncrypt_of_sized hsized]
    have hfeed := feed_chunk C s.skey s.nonce hsized
    have hdec := ssDecryptAead_opened hopen (chunkBytes C s.skey s.nonce p) (by rw [hfeed])
    rw [hfeed] at hdec
    refine ⟨_, by rw [henc], ?_⟩
    rw [if_pos (hbytes _ _), henc]
    dsimp only [receive]
    rw [hdec.2]
    exact ⟨rfl, .inr ⟨hinit, hdec.1⟩⟩

/-- An AEAD method; `salt` is the sender's. -/
def aeadPair (C : AeadCipher) (F : Bloom) (salt : Bytes) (hsalt : salt.length = C.keyLen) :
    CipherPair where
  Sender := AeadCtx × F.State
  Receiver := AeadCtx × F.State
  ssEncrypt := aeadEncrypt C F
  ssDecrypt r c :=
    let q := ssDecryptAead C F r c
    (q.1, plaintext? q.2)
  Synced s r :=
    (s.1 = aeadCtxInit C salt ∧ r.1.init = 0 ∧ r.1.chunk = [] ∧ F.check r.2 salt = false) ∨
      (s.1.init ≠ 0 ∧ Opened s.1.skey r (s.1.nonce, []))
  Fits p := p.length ≤ 0x3FFF
  decrypt_encrypt := decrypt_encrypt_of_synced C F hsalt

end Pair

end Aead

end SsrNative
