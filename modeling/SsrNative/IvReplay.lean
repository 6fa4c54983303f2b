import SsrNative.SodiumStream

/-!
# IvReplay — a repeated IV on one decrypting context

`ss_decrypt` marks the context as initialised before it asks whether the IV was seen before.  The call
that finds a repeated IV reports an error, but the calls behind it are answered from the context that was
set up with that IV.  `aead_decrypt` marks its context only behind the test of the salt.
-/

namespace SsrNative
namespace IvReplay

open Bytes
open Lib.Segments

/-! ## One call -/

/-- A stream method behind `ss_cipher_rc4`.  `update` is `cipher_context_update`, which does not fail for
these methods, or the call of libsodium at the byte counter; it returns the new counter. -/
structure Method where
  State : Type
  ivLen : ℕ
  /-- `cipher_context_set_iv`. -/
  setIv : Bytes → State
  update : State → ℕ → Bytes → (State × ℕ) × Bytes

/-- `struct enc_ctx`. -/
structure Ctx (M : Method) where
  init : Bool
  counter : ℕ
  cipherCtx : M.State

/-- `enc_ctx_new_instance` on the decrypting side. -/
def encCtxNew {M : Method} (cipherCtx : M.State) : Ctx M := ⟨false, 0, cipherCtx⟩

/-- The returned value, and what is in the buffer afterwards. -/
structure Result where
  code : ℤ
  buffer : Bytes

variable (M : Method)

/-- `ss_decrypt` behind the IV; `cipher_len - iv_len` bytes are left of the buffer. -/
def decryptData (cache : IvCache) (ctx : Ctx M) (data : Bytes) : (IvCache × Ctx M) × Result :=
  let r := M.update ctx.cipherCtx ctx.counter data
  ((cache, ⟨ctx.init, r.1.2, r.1.1⟩), ⟨0, r.2⟩)

def ssDecrypt (s : IvCache × Ctx M) (cipher : Bytes) : (IvCache × Ctx M) × Result :=
  if s.2.init = false then
    if cipher.length < M.ivLen then (s, ⟨-1, cipher⟩)
    else
      let iv := cipher.take M.ivLen
      let ctx : Ctx M := ⟨true, 0, M.setIv iv⟩
      let seen := cacheKeyExist s.1 iv
      -- the context is already set up with the IV that is refused
      if seen.2 = true then ((seen.1, ctx), ⟨-1, cipher⟩)
      else decryptData M (cacheInsert s.1 iv) ctx (cipher.drop M.ivLen)
  else decryptData M s.1 s.2 cipher

/-! ## The methods of the cipher library and of libsodium -/

/-- A method of the cipher library has no use for the counter. -/
def ofStream (C : StreamCipher) : Method where
  State := C.State
  ivLen := C.ivLen
  setIv := C.setIv
  update s counter data := (((run C.dec s data).1, counter), (run C.dec s data).2)

def ofSodium (m : SodiumStream.Method) (ks : SodiumStream.KeyStream) : Method where
  State := Bytes
  ivLen := m.ivLen
  setIv iv := iv
  update iv counter data :=
    let r := SodiumStream.xorBody m ks ⟨true, counter, iv⟩ data
    ((iv, r.1.counter), r.2)

/-- What the models of the two families keep of a context. -/
def Ctx.encCtx {C : StreamCipher} (ctx : Ctx (ofStream C)) : EncCtx C :=
  ⟨if ctx.init then some ctx.cipherCtx else none⟩

def Ctx.sodium {m : SodiumStream.Method} {ks : SodiumStream.KeyStream} (ctx : Ctx (ofSodium m ks)) :
    SodiumStream.EncCtx :=
  ⟨ctx.init, ctx.counter, ctx.cipherCtx⟩

/-- The plaintext of a call that returns 0. -/
def Result.plaintext? (r : Result) : Option Bytes := if r.code = 0 then some r.buffer else none

theorem ssDecrypt_ofStream {C : StreamCipher} (hcheck : C.checksIv = true) (cache : IvCache)
    (ctx : Ctx (ofStream C)) (cipher : Bytes) :
    SsrNative.ssDecrypt C cache ctx.encCtx cipher =
      ((ssDecrypt (ofStream C) (cache, ctx) cipher).1.1,
        (ssDecrypt (ofStream C) (cache, ctx) cipher).1.2.encCtx,
        (ssDecrypt (ofStream C) (cache, ctx) cipher).2.plaintext?) := by
  obtain ⟨init, counter, s⟩ := ctx
  cases init with
  | true => rfl
  | false =>
      by_cases hshort : cipher.length < C.ivLen
      · simp [SsrNative.ssDecrypt, ssDecrypt, Ctx.encCtx, Result.plaintext?, ofStream, hshort]
      · by_cases hseen : (cacheKeyExist cache (cipher.take C.ivLen)).2 = true
        · simp [SsrNative.ssDecrypt, ssDecrypt, Ctx.encCtx, Result.plaintext?, ofStream, hshort, hcheck,
            hseen]
        · simp [SsrNative.ssDecrypt, ssDecrypt, decryptData, Ctx.encCtx, Result.plaintext?, ofStream,
            hshort, hcheck, hseen]

theorem ssDecrypt_ofSodium (m : SodiumStream.Method) (ks : SodiumStream.KeyStream) (cache : IvCache)
    (ctx : Ctx (ofSodium m ks)) (cipher : Bytes) :
    SodiumStream.ssDecrypt m ks (cache, ctx.sodium) cipher =
      (((ssDecrypt (ofSodium m ks) (cache, ctx) cipher).1.1,
        (ssDecrypt (ofSodium m ks) (cache, ctx) cipher).1.2.sodium),
        (ssDecrypt (ofSodium m ks) (cache, ctx) cipher).2.plaintext?) := by
  obtain ⟨init, counter, iv⟩ := ctx
  cases init with
  | true => rfl
  | false =>
      by_cases hshort : cipher.length < m.ivLen
      · simp [SodiumStream.ssDecrypt, ssDecrypt, Ctx.sodium, Result.plaintext?, ofSodium, hshort]
      · by_cases hseen : (cacheKeyExist cache (cipher.take m.ivLen)).2 = true
        · simp [SodiumStream.ssDecrypt, ssDecrypt, Ctx.sodium, Result.plaintext?, ofSodium, hshort, hseen]
        · simp [SodiumStream.ssDecrypt, ssDecrypt, decryptData, Ctx.sodium, Result.plaintext?, ofSodium,
            hshort, hseen, SodiumStream.xorBody]

/-! ## Every call of a sequence -/

section Replay

variable {M : Method} {cache : IvCache} {ctx : Ctx M} {cipher : Bytes}

/-- The call finds that the IV was seen before. -/
def Repeats (s : IvCache × Ctx M) (cipher : Bytes) : Prop :=
  s.2.init = false ∧ M.ivLen ≤ cipher.length ∧ cipher.take M.ivLen ∈ s.1

/-- Every call reports an error, and has left its input in the buffer. -/
def AllRejected (s : IvCache × Ctx M) (segs : List Bytes) : Prop :=
  ∀ p ∈ segs.zip (run (ssDecrypt M) s segs).2, p.2.code ≠ 0 ∧ p.2.buffer = p.1

/-- A call that reports an error leaves `init` and `counter` as they were. -/
def KeepsOnError (s : IvCache × Ctx M) (cipher : Bytes) : Prop :=
  (ssDecrypt M s cipher).2.code ≠ 0 →
    (ssDecrypt M s cipher).1.2.init = s.2.init ∧ (ssDecrypt M s cipher).1.2.counter = s.2.counter

theorem cacheKeyExist_snd (cache : IvCache) (key : Bytes) :
    (cacheKeyExist cache key).2 = true ↔ key ∈ cache := by
  unfold cacheKeyExist
  split_ifs with h
  · exact iff_of_true rfl h
  · exact iff_of_false nofun h

theorem ssDecrypt_short (hinit : ctx.init = false) (h : cipher.length < M.ivLen) :
    ssDecrypt M (cache, ctx) cipher = ((cache, ctx), ⟨-1, cipher⟩) := by
  simp [ssDecrypt, hinit, h]

theorem ssDecrypt_repeats (h : Repeats (cache, ctx) cipher) :
    ssDecrypt M (cache, ctx) cipher =
      (((cacheKeyExist cache (cipher.take M.ivLen)).1, ⟨true, 0, M.setIv (cipher.take M.ivLen)⟩),
        ⟨-1, cipher⟩) := by
  have hinit : ctx.init = false := h.1
  have hlen := h.2.1
  have hseen := (cacheKeyExist_snd cache _).2 h.2.2
  simp only [ssDecrypt, hinit, if_true, if_neg (Nat.not_lt.2 hlen), hseen]

/-- The two ways to an error. -/
theorem ssDecrypt_code_ne_zero_iff :
    (ssDecrypt M (cache, ctx) cipher).2.code ≠ 0 ↔
      ctx.init = false ∧ cipher.length < M.ivLen ∨ Repeats (cache, ctx) cipher := by
  by_cases hinit : ctx.init = false
  · by_cases hshort : cipher.length < M.ivLen
    · -- too short for the IV
      rw [ssDecrypt_short hinit hshort]
      exact iff_of_true (by simp) (.inl ⟨hinit, hshort⟩)
    · by_cases hmem : cipher.take M.ivLen ∈ cache
      · -- the IV is in the cache
        have hrep : Repeats (cache, ctx) cipher := ⟨hinit, Nat.not_lt.1 hshort, hmem⟩
        rw [ssDecrypt_repeats hrep]
        exact iff_of_true (by simp) (.inr hrep)
      · -- a new IV: the call decrypts
        have hseen : ¬ (cacheKeyExist cache (cipher.take M.ivLen)).2 = true :=
          fun h => hmem ((cacheKeyExist_snd cache _).1 h)
        refine iff_of_false ?_ ?_
        · simp [ssDecrypt, hinit, hshort, hseen, decryptData]
        · rintro (⟨-, h⟩ | ⟨-, -, h⟩)
          · exact hshort h
          · exact hmem h
  · -- once `init` is set nothing is looked up
    refine iff_of_false ?_ ?_
    · simp [ssDecrypt, hinit, decryptData]
    · rintro (⟨h, -⟩ | ⟨h, -, -⟩)
      · exact hinit h
      · exact hinit h

theorem ssDecrypt_buffer (h : (ssDecrypt M (cache, ctx) cipher).2.code ≠ 0) :
    (ssDecrypt M (cache, ctx) cipher).2.buffer = cipher := by
  rcases ssDecrypt_code_ne_zero_iff.1 h with ⟨hinit, hshort⟩ | hrep
  · rw [ssDecrypt_short hinit hshort]
  · rw [ssDecrypt_repeats hrep]

theorem allRejected_cons (s : IvCache × Ctx M) (seg : Bytes) (segs : List Bytes) :
    AllRejected s (seg :: segs) ↔
      (ssDecrypt M s seg).2.code ≠ 0 ∧ AllRejected (ssDecrypt M s seg).1 segs := by
  unfold AllRejected
  rw [run_cons, List.zip_cons_cons, List.forall_mem_cons]
  constructor
  · rintro ⟨hseg, hsegs⟩
    exact ⟨hseg.1, hsegs⟩
  · rintro ⟨hcode, hsegs⟩
    exact ⟨⟨hcode, ssDecrypt_buffer hcode⟩, hsegs⟩

/-- A context that is set up answers every call. -/
theorem allRejected_started (hinit : ctx.init = true) (segs : List Bytes) :
    AllRejected (cache, ctx) segs ↔ segs = [] := by
  cases segs with
  | nil => exact iff_of_true nofun rfl
  | cons seg segs =>
      rw [allRejected_cons, ssDecrypt_code_ne_zero_iff]
      refine iff_of_false ?_ nofun
      rintro ⟨⟨h, -⟩ | ⟨h, -, -⟩, -⟩
      · rw [hinit] at h
        cases h
      · rw [hinit] at h
        cases h

theorem allRejected_new_iff (hinit : ctx.init = false) (segs : List Bytes) :
    AllRejected (cache, ctx) segs ↔
      (∀ seg ∈ segs.dropLast, seg.length < M.ivLen) ∧
        ∀ seg ∈ segs.getLast?, seg.length < M.ivLen ∨ seg.take M.ivLen ∈ cache := by
  induction segs with
  | nil => exact iff_of_true nofun ⟨nofun, nofun⟩
  | cons seg segs ih =>
      rw [allRejected_cons]
      by_cases hshort : seg.length < M.ivLen
      · -- the call has no effect
        cases segs with
        | nil =>
            rw [ssDecrypt_code_ne_zero_iff]
            exact iff_of_true ⟨.inl ⟨hinit, hshort⟩, nofun⟩ ⟨nofun, by simp [hshort]⟩
        | cons seg' segs =>
            rw [ssDecrypt_short hinit hshort, ih, List.dropLast_cons_cons, List.forall_mem_cons, List.getLast?_cons_cons]
            simp [hshort]
      · have hrest : (∀ seg' ∈ (seg :: segs).dropLast, seg'.length < M.ivLen) ↔ segs = [] := by
          cases segs with
          | nil => simp
          | cons seg' segs => simp [hshort]
        rw [hrest, ssDecrypt_code_ne_zero_iff]
        constructor
        · rintro ⟨⟨-, h⟩ | hrep, hsegs⟩
          · exact absurd h hshort
          · rw [ssDecrypt_repeats hrep, allRejected_started rfl] at hsegs
            subst hsegs
            refine ⟨rfl, ?_⟩
            intro seg' hseg'
            cases hseg'
            exact .inr hrep.2.2
        · rintro ⟨rfl, hlast⟩
          have hmem := (hlast seg rfl).resolve_left hshort
          exact ⟨.inr ⟨hinit, Nat.not_lt.1 hshort, hmem⟩, nofun⟩

theorem keepsOnError_iff (s : IvCache × Ctx M) (cipher : Bytes) :
    KeepsOnError s cipher ↔ ¬ Repeats s cipher := by
  obtain ⟨cache, ctx⟩ := s
  unfold KeepsOnError
  rw [ssDecrypt_code_ne_zero_iff]
  by_cases hrep : Repeats (cache, ctx) cipher
  · refine iff_of_false ?_ (not_not.2 hrep)
    intro h
    have hinit := (h (.inr hrep)).1
    rw [ssDecrypt_repeats hrep, hrep.1] at hinit
    cases hinit
  · refine iff_of_true ?_ hrep
    rintro (⟨hinit, hshort⟩ | h)
    · rw [ssDecrypt_short hinit hshort]
      exact ⟨rfl, rfl⟩
    · exact absurd h hrep

end Replay

/-- On a fresh context all calls of a sequence fail exactly if no call but the last has an IV's length,
and the last has a repeated IV or is short as well; and an error leaves the context as it was exactly if
it is not the error for a repeated IV. -/
theorem replay_rejected_iff (M : Method) (cache : IvCache) (cipherCtx : M.State) (segs : List Bytes) :
    (AllRejected (cache, encCtxNew cipherCtx) segs ↔
        (∀ seg ∈ segs.dropLast, seg.length < M.ivLen) ∧
          ∀ seg ∈ segs.getLast?, seg.length < M.ivLen ∨ seg.take M.ivLen ∈ cache) ∧
      ∀ (s : IvCache × Ctx M) (cipher : Bytes), KeepsOnError s cipher ↔ ¬ Repeats s cipher :=
  ⟨allRejected_new_iff rfl segs, keepsOnError_iff⟩

def sampleIv : Bytes := List.replicate 16 7

/-- The byte behind a repeated IV is refused, the next one is decrypted; and the refusal has set up the
context. -/
theorem replayed_stream_decrypted :
    ¬ AllRejected ([sampleIv], encCtxNew (M := ofStream (rc4Md5 sampleIv)) (Lib.Rc4.setKey []))
        [sampleIv ++ [1], [2]] ∧
      ¬ KeepsOnError ([sampleIv], encCtxNew (M := ofStream (rc4Md5 sampleIv)) (Lib.Rc4.setKey []))
        (sampleIv ++ [1]) := by
  rw [allRejected_new_iff rfl, keepsOnError_iff]
  have hlast : sampleIv ++ [1] ∈ [sampleIv ++ [1], [2]].dropLast := by simp
  refine ⟨fun h => absurd (h.1 _ hlast) (by decide), not_not.2 ⟨rfl, by decide, by decide⟩⟩

end IvReplay
end SsrNative
