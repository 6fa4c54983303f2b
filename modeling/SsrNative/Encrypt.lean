import SsrNative.Crypto
import SsrNative.Lib.Rc4

/-!
# Encrypt — stream ciphers and the IV cache

`ss_encrypt` and `ss_decrypt` of `encrypt.c` for the stream methods.  A stream cipher works byte by
byte: its state after the IV was set is advanced by every byte, and decryption in the same state
undoes encryption.  For the salsa20 family the state is the block counter; the padding the source
puts in front of a call makes the keystream continue inside a block.
-/

namespace SsrNative

open Bytes
open Lib.Segments

/-- A stream method together with its key. -/
structure StreamCipher extends ByteCipher where
  ivLen : ℕ
  /-- `method > ss_cipher_rc4`: a received IV must not have been seen before. -/
  checksIv : Bool
  /-- `cipher_context_set_iv`. -/
  setIv : Bytes → State

/-- The method `rc4-md5`: the RC4 key is the digest of key and IV. -/
def rc4Md5 (key : Bytes) : StreamCipher where
  State := Lib.Rc4.State
  ivLen := 16
  checksIv := true
  setIv iv := Lib.Rc4.setKey (Lib.Hash.md5 (key ++ iv))
  enc := Lib.Rc4.crypt
  dec := Lib.Rc4.crypt
  dec_enc := Lib.Rc4.crypt_crypt

/-- `struct enc_ctx`: `none` until the IV is set (`init = 0`). -/
structure EncCtx (C : StreamCipher) where
  state : Option C.State

/-! ## The IV cache -/

/-- The keys of `env->iv_cache`, oldest first. -/
abbrev IvCache := List Bytes

def IV_CACHE_SIZE : ℕ := 256

/-- `cache_key_exist`: a hit makes the key the youngest one. -/
def cacheKeyExist (cache : IvCache) (key : Bytes) : IvCache × Bool :=
  if key ∈ cache then (cache.erase key ++ [key], true) else (cache, false)

/-- `cache_insert`: the oldest key goes when the limit is reached. -/
def cacheInsert (cache : IvCache) (key : Bytes) : IvCache :=
  let cache := cache ++ [key]
  if IV_CACHE_SIZE ≤ cache.length then cache.drop 1 else cache

/-! ## Encryption and decryption -/

section Stream

variable (C : StreamCipher)

/-- `ss_encrypt` with a stream method; `iv` is the IV drawn when the context was created. -/
def ssEncrypt (iv : Bytes) (ctx : EncCtx C) (plain : Bytes) : EncCtx C × Bytes :=
  match ctx.state with
  | none =>
      let r := run C.enc (C.setIv iv) plain
      (⟨some r.1⟩, iv ++ r.2)
  | some s =>
      let r := run C.enc s plain
      (⟨some r.1⟩, r.2)

/-- `ss_decrypt` with a stream method; `none` in the last place is a non-zero return value. -/
def ssDecrypt (cache : IvCache) (ctx : EncCtx C) (cipher : Bytes) :
    IvCache × EncCtx C × Option Bytes :=
  match ctx.state with
  | some s =>
      let r := run C.dec s cipher
      (cache, ⟨some r.1⟩, some r.2)
  | none =>
      if cipher.length < C.ivLen then (cache, ctx, none)
      else
        let iv := cipher.take C.ivLen
        let s := C.setIv iv
        let seen := cacheKeyExist cache iv
        if C.checksIv = true ∧ seen.2 = true then (seen.1, ⟨some s⟩, none)
        else
          let cache := if C.checksIv = true then cacheInsert cache iv else cache
          let r := run C.dec s (cipher.drop C.ivLen)
          (cache, ⟨some r.1⟩, some r.2)

/-- The receiver would not refuse `iv` as a repeated one. -/
def IvFresh (cache : IvCache) (iv : Bytes) : Prop := C.checksIv = true → iv ∉ cache

/-- Everything `ss_encrypt` emits for a payload on one connection. -/
def cipherText (iv payload : Bytes) : Bytes :=
  if payload = [] then [] else iv ++ (run C.enc (C.setIv iv) payload).2

variable {C}

/-- A cut of the cipher text is the cipher text of a cut of the plain text. -/
theorem run_enc_split {s : C.State} {plain q r : Bytes} (h : (run C.enc s plain).2 = q ++ r) :
    ∃ x y, plain = x ++ y ∧ (run C.enc s x).2 = q ∧ (run C.enc (run C.enc s x).1 y).2 = r := by
  refine ⟨plain.take q.length, plain.drop q.length, (List.take_append_drop _ _).symm, ?_⟩
  have hlen := congrArg List.length h
  simp only [run_snd_length, List.length_append] at hlen
  have hsplit : (run C.enc s (plain.take q.length ++ plain.drop q.length)).2 = q ++ r := by
    rw [List.take_append_drop, h]
  rw [run_append] at hsplit
  refine List.append_inj hsplit ?_
  rw [run_snd_length, List.length_take]
  omega

theorem ssDecrypt_started (cache : IvCache) (s : C.State) (plain : Bytes) :
    ssDecrypt C cache ⟨some s⟩ (run C.enc s plain).2 =
      (cache, ⟨some (run C.enc s plain).1⟩, some plain) := by
  simp only [ssDecrypt, C.run_dec_enc]

theorem ssDecrypt_first {cache : IvCache} {iv : Bytes} (hlen : iv.length = C.ivLen)
    (hfresh : IvFresh C cache iv) (plain : Bytes) :
    ∃ cache', ssDecrypt C cache ⟨none⟩ (iv ++ (run C.enc (C.setIv iv) plain).2) =
      (cache', ⟨some (run C.enc (C.setIv iv) plain).1⟩, some plain) := by
  have hlong : ¬ (iv ++ (run C.enc (C.setIv iv) plain).2).length < C.ivLen := by
    rw [List.length_append]
    omega
  have hseen : ¬ (C.checksIv = true ∧ (cacheKeyExist cache iv).2 = true) := by
    rintro ⟨hcheck, hexist⟩
    simp [cacheKeyExist, hfresh hcheck] at hexist
  refine ⟨if C.checksIv = true then cacheInsert cache iv else cache, ?_⟩
  simp only [ssDecrypt, hlong, if_false, List.take_left' hlen, List.drop_left' hlen, hseen,
    C.run_dec_enc]

theorem ssDecrypt_repeated {cache : IvCache} {iv rest : Bytes} (hlen : iv.length = C.ivLen)
    (hseen : ¬ IvFresh C cache iv) : (ssDecrypt C cache ⟨none⟩ (iv ++ rest)).2.2 = none := by
  simp only [IvFresh, Classical.not_imp, not_not] at hseen
  have hexist : (cacheKeyExist cache iv).2 = true := by simp [cacheKeyExist, hseen.2]
  have hlong : ¬ (iv ++ rest).length < C.ivLen := by
    rw [List.length_append]
    omega
  simp only [ssDecrypt, hlong, if_false, List.take_left' hlen, hseen.1, hexist, and_self, if_true]

/-- Decryption never returns more than it was given, less the IV on the first call. -/
theorem ssDecrypt_length {cache : IvCache} {ctx : EncCtx C} {cipher plain : Bytes}
    (h : (ssDecrypt C cache ctx cipher).2.2 = some plain) :
    plain.length + (if ctx.state.isNone then C.ivLen else 0) = cipher.length ∧
      (ssDecrypt C cache ctx cipher).2.1.state.isSome := by
  rcases ctx with ⟨s | s⟩
  · by_cases hshort : cipher.length < C.ivLen
    · simp [ssDecrypt, hshort] at h
    · by_cases hseen : C.checksIv = true ∧ (cacheKeyExist cache (cipher.take C.ivLen)).2 = true
      · simp only [ssDecrypt, hshort, if_false, hseen, and_self, if_true] at h
        cases h
      · simp only [ssDecrypt, hshort, if_false, hseen, Option.some.injEq] at h ⊢
        subst h
        simp only [run_snd_length, List.length_drop, Option.isNone_none, if_true, Option.isSome_some,
          and_true]
        omega
  · simp only [ssDecrypt, Option.some.injEq] at h ⊢
    subst h
    simp [run_snd_length]

end Stream

end SsrNative
