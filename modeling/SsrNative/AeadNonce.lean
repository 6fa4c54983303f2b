import SsrNative.Aead
import SsrNative.Lib.Counter

/-!
# AeadNonce — the nonces of an encryption context

`aead_encrypt` again, with the calls of `aead_cipher_encrypt` that it makes (`Seal`).  Two belong to a
chunk, one for its length and one for its payload, and over a run the nonces count up from zero, so
that none is used twice under the session subkey (`nonces_count_up`).
-/

namespace SsrNative
namespace Aead

open Bytes
open Lib.Counter
open Lib.Segments (run run_cons)

/-- One call of `aead_cipher_encrypt`. -/
structure Seal where
  nonce : Bytes
  skey : Bytes
  msg : Bytes

/-! ## The calls of a chunk -/

section Seals

variable (C : AeadCipher)

def Seal.box (s : Seal) : Bytes := C.encrypt s.nonce s.skey s.msg

/-- `aead_chunk_encrypt` and its calls; with `assertions` a chunk that is too long ends the program. -/
def aeadChunkEncryptSeals (assertions : Bool) (ctx : AeadCtx) (p : Bytes) :
    Option (AeadCtx × List Seal) :=
  if assertions = true ∧ 0x3FFF < p.length then none
  else
    let lenSeal := ⟨ctx.nonce, ctx.skey, be16 (p.length % 16384)⟩
    let ctx := { ctx with nonce := sodiumIncrement ctx.nonce }
    let payloadSeal := ⟨ctx.nonce, ctx.skey, p⟩
    let ctx := { ctx with nonce := sodiumIncrement ctx.nonce }
    some (ctx, [lenSeal, payloadSeal])

/-- `aead_encrypt`, its calls and what it emits. -/
def aeadEncryptSeals (assertions : Bool) (ctx : AeadCtx) (plaintext : Bytes) :
    Option (AeadCtx × List Seal × Bytes) :=
  if plaintext.length = 0 then some (ctx, [], plaintext)
  else if ctx.init = 0 then
    let ctx := { aeadCipherCtxSetKey C ctx with init := 1 }
    (aeadChunkEncryptSeals assertions ctx plaintext).map fun r =>
      (r.1, r.2, ctx.salt ++ r.2.flatMap (Seal.box C))
  else
    (aeadChunkEncryptSeals assertions ctx plaintext).map fun r =>
      (r.1, r.2, r.2.flatMap (Seal.box C))

/-- The calls and the output of every call of a run, up to a failed assertion. -/
def sealTrace (assertions : Bool) : AeadCtx → List Bytes → List (List Seal × Bytes)
  | _, [] => []
  | ctx, p :: ps =>
      match aeadEncryptSeals C assertions ctx p with
      | none => []
      | some (ctx', r) => r :: sealTrace assertions ctx' ps

variable {C}

theorem aeadChunkEncrypt_seals (ctx : AeadCtx) (p : Bytes) :
    aeadChunkEncrypt C ctx p =
      ((aeadChunkEncryptSeals true ctx p).elim ctx Prod.fst,
        (aeadChunkEncryptSeals true ctx p).map fun r => r.2.flatMap (Seal.box C)) := by
  unfold aeadChunkEncrypt aeadChunkEncryptSeals
  by_cases hlong : 0x3FFF < p.length
  · rw [if_pos hlong, if_pos ⟨rfl, hlong⟩]
    rfl
  · rw [if_neg hlong, if_neg fun h => hlong h.2]
    simp [chunkBytes, nextNonce, Seal.box]

/-- Without its calls this is the function of `Aead`. -/
theorem aeadEncrypt_seals (F : Bloom) {st : AeadCtx × F.State} {p : Bytes} {r : AeadCtx × List Seal × Bytes}
    (h : aeadEncryptSeals C true st.1 p = some r) :
    (aeadEncrypt C F st p).1.1 = r.1 ∧ (aeadEncrypt C F st p).2 = some r.2.2 := by
  unfold aeadEncryptSeals at h
  unfold aeadEncrypt
  by_cases hnil : p.length = 0
  · rw [if_pos hnil] at h ⊢
    cases h
    exact ⟨rfl, rfl⟩
  · rw [if_neg hnil] at h ⊢
    by_cases hinit : st.1.init = 0
    · rw [if_pos hinit] at h ⊢
      obtain ⟨q, hq, rfl⟩ := Option.map_eq_some_iff.1 h
      simp only [aeadChunkEncrypt_seals, hq]
      exact ⟨rfl, rfl⟩
    · rw [if_neg hinit] at h ⊢
      obtain ⟨q, hq, rfl⟩ := Option.map_eq_some_iff.1 h
      simp only [aeadChunkEncrypt_seals, hq]
      exact ⟨rfl, rfl⟩

/-- A run of it emits what the trace says, up to a failed assertion. -/
theorem run_aeadEncrypt_seals (F : Bloom) (st : AeadCtx × F.State) (ps : List Bytes) :
    (run (aeadEncrypt C F) st (ps.take (sealTrace C true st.1 ps).length)).2 =
      (sealTrace C true st.1 ps).map fun r => some r.2 := by
  induction ps generalizing st with
  | nil => rfl
  | cons p ps ih =>
      rw [sealTrace]
      cases hcall : aeadEncryptSeals C true st.1 p with
      | none => rfl
      | some r =>
          obtain ⟨hctx, hout⟩ := aeadEncrypt_seals F hcall
          dsimp only
          rw [List.length_cons, List.take_succ_cons, run_cons, hout, ← hctx, ih, List.map_cons]

end Seals

/-! ## The nonces of a run -/

section Nonces

variable {C : AeadCipher} {assertions : Bool}

theorem sodiumIncrement_eq (l : Bytes) : sodiumIncrement l = increment l := by
  induction l with
  | nil => rfl
  | cons x l ih => rw [sodiumIncrement, increment, ih]

/-- The number of chunks that are not empty. -/
def chunkCount (ps : List Bytes) : ℕ := (ps.filter (· ≠ [])).length

/-- What a context has after `k` seals. -/
def Sealed (C : AeadCipher) (salt : Bytes) (k : ℕ) (ctx : AeadCtx) : Prop :=
  ctx.salt = salt ∧ ctx.nonce = leBytes C.nonceLen k ∧
    (ctx.init = 0 ∧ k = 0 ∨ ctx.init ≠ 0 ∧ ctx.skey = subkey C salt)

theorem sealed_init (salt : Bytes) : Sealed C salt 0 (aeadCtxInit C salt) :=
  ⟨rfl, (leBytes_zero C.nonceLen).symm, Or.inl ⟨rfl, rfl⟩⟩

theorem aeadChunkEncryptSeals_some {ctx ctx' : AeadCtx} {p : Bytes} {seals : List Seal} {k : ℕ}
    (hnonce : ctx.nonce = leBytes C.nonceLen k)
    (h : aeadChunkEncryptSeals assertions ctx p = some (ctx', seals)) :
    ctx' = { ctx with nonce := leBytes C.nonceLen (k + 2) } ∧
      seals.map Seal.nonce = [leBytes C.nonceLen k, leBytes C.nonceLen (k + 1)] ∧
      ∀ s ∈ seals, s.skey = ctx.skey := by
  unfold aeadChunkEncryptSeals at h
  split_ifs at h
  cases h
  simp [hnonce, sodiumIncrement_eq, increment_leBytes]

/-- A call seals nothing, or it uses the next two nonces. -/
theorem aeadEncryptSeals_some {ctx ctx' : AeadCtx} {salt p out : Bytes} {seals : List Seal} {k : ℕ}
    (hctx : Sealed C salt k ctx) (h : aeadEncryptSeals C assertions ctx p = some (ctx', seals, out)) :
    p = [] ∧ ctx' = ctx ∧ seals = [] ∧ out = [] ∨
      p ≠ [] ∧ Sealed C salt (k + 2) ctx' ∧
        seals.map Seal.nonce = [leBytes C.nonceLen k, leBytes C.nonceLen (k + 1)] ∧
        ∀ s ∈ seals, s.skey = subkey C salt := by
  obtain ⟨hsalt, hnonce, hkey⟩ := hctx
  unfold aeadEncryptSeals at h
  by_cases hnil : p.length = 0
  · rw [if_pos hnil] at h
    cases h
    exact Or.inl ⟨List.eq_nil_of_length_eq_zero hnil, rfl, rfl, List.eq_nil_of_length_eq_zero hnil⟩
  · rw [if_neg hnil] at h
    have hne : p ≠ [] := fun h => hnil (by rw [h, List.length_nil])
    refine Or.inr ⟨hne, ?_⟩
    rcases hkey with ⟨hinit, rfl⟩ | ⟨hinit, hskey⟩
    · -- the first chunk: the subkey is derived, and the nonce is zero
      rw [if_pos hinit] at h
      obtain ⟨⟨ctx₁, seals₁⟩, hchunk, heq⟩ := Option.map_eq_some_iff.1 h
      cases heq
      have hzero : ({ aeadCipherCtxSetKey C ctx with init := 1 } : AeadCtx).nonce =
          leBytes C.nonceLen 0 := (leBytes_zero C.nonceLen).symm
      obtain ⟨rfl, hnonces, hskeys⟩ := aeadChunkEncryptSeals_some hzero hchunk
      refine ⟨⟨hsalt, rfl, Or.inr ⟨Nat.one_ne_zero, ?_⟩⟩, hnonces, fun s hs => ?_⟩
      · rw [← hsalt]
        rfl
      · rw [hskeys s hs, ← hsalt]
        rfl
    · rw [if_neg hinit] at h
      obtain ⟨⟨ctx₁, seals₁⟩, hchunk, heq⟩ := Option.map_eq_some_iff.1 h
      cases heq
      obtain ⟨rfl, hnonces, hskeys⟩ := aeadChunkEncryptSeals_some hnonce hchunk
      exact ⟨⟨hsalt, rfl, Or.inr ⟨hinit, hskey⟩⟩, hnonces, fun s hs => (hskeys s hs).trans hskey⟩

/-- The calls of a run from seal `k` on. -/
structure CountsUp (C : AeadCipher) (salt : Bytes) (k : ℕ) (ps : List Bytes)
    (trace : List (List Seal × Bytes)) : Prop where
  nonces : (trace.flatMap Prod.fst).map Seal.nonce =
    (List.range (2 * chunkCount ps)).map fun i => leBytes C.nonceLen (k + i)
  subkeys : ∀ s ∈ trace.flatMap Prod.fst, s.skey = subkey C salt
  calls : List.Forall₂ (fun p (r : List Seal × Bytes) =>
    if p = [] then r.1 = [] ∧ r.2 = [] else r.1.length = 2) ps trace

theorem countsUp_nil (salt : Bytes) (k : ℕ) : CountsUp C salt k [] [] :=
  ⟨rfl, by simp, .nil⟩

/-- An empty chunk in front. -/
theorem CountsUp.empty {salt : Bytes} {k : ℕ} {ps : List Bytes} {trace : List (List Seal × Bytes)}
    (h : CountsUp C salt k ps trace) : CountsUp C salt k ([] :: ps) (([], []) :: trace) := by
  refine ⟨?_, ?_, ?_⟩
  · have hcount : chunkCount ([] :: ps) = chunkCount ps := by simp [chunkCount]
    rw [hcount, ← h.nonces]
    rfl
  · exact h.subkeys
  · exact .cons ⟨rfl, rfl⟩ h.calls

theorem CountsUp.chunk {salt p out : Bytes} {k : ℕ} {ps : List Bytes} {seals : List Seal}
    {trace : List (List Seal × Bytes)} (hne : p ≠ [])
    (hnonces : seals.map Seal.nonce = [leBytes C.nonceLen k, leBytes C.nonceLen (k + 1)])
    (hkeys : ∀ s ∈ seals, s.skey = subkey C salt) (h : CountsUp C salt (k + 2) ps trace) :
    CountsUp C salt k (p :: ps) ((seals, out) :: trace) := by
  have hcount : 2 * chunkCount (p :: ps) = 2 + 2 * chunkCount ps := by
    simp [chunkCount, hne]
    omega
  refine ⟨?_, ?_, ?_⟩
  · rw [List.flatMap_cons, List.map_append, hnonces, h.nonces, hcount, List.range_add,
      List.map_append, List.map_map]
    congr 1
    refine List.map_congr_left fun i _ => ?_
    simp only [Function.comp_apply, Nat.add_assoc]
  · intro s hs
    rw [List.flatMap_cons, List.mem_append] at hs
    exact hs.elim (hkeys s) (h.subkeys s)
  · refine .cons ?_ h.calls
    rw [if_neg hne]
    have hlen := congrArg List.length hnonces
    rwa [List.length_map] at hlen

/-- A run from seal `k` on, as far as it gets. -/
theorem sealTrace_countsUp {ctx : AeadCtx} {salt : Bytes} {k : ℕ} (hctx : Sealed C salt k ctx)
    (ps : List Bytes) :
    CountsUp C salt k (ps.take (sealTrace C assertions ctx ps).length)
      (sealTrace C assertions ctx ps) := by
  induction ps generalizing ctx k with
  | nil => exact countsUp_nil salt k
  | cons p ps ih =>
      rw [sealTrace]
      cases hcall : aeadEncryptSeals C assertions ctx p with
      | none => exact countsUp_nil salt k
      | some r =>
          obtain ⟨ctx', seals, out⟩ := r
          rcases aeadEncryptSeals_some hctx hcall with
            ⟨rfl, rfl, rfl, rfl⟩ | ⟨hne, hctx', hnonces, hkeys⟩
          · exact (ih hctx).empty
          · exact (ih hctx').chunk hne hnonces hkeys

/-- Only a failed assertion ends a run early. -/
theorem sealTrace_length (ctx : AeadCtx) {ps : List Bytes}
    (hps : assertions = false ∨ ∀ p ∈ ps, p.length ≤ 0x3FFF) :
    (sealTrace C assertions ctx ps).length = ps.length := by
  induction ps generalizing ctx with
  | nil => rfl
  | cons p ps ih =>
      have hok : ¬(assertions = true ∧ 0x3FFF < p.length) := by
        rintro ⟨hassert, hlong⟩
        rcases hps with hoff | hall
        · rw [hassert] at hoff
          cases hoff
        · exact absurd (hall p (by simp)) (Nat.not_le.2 hlong)
      have hchunk : ∀ ctx, ∃ r, aeadChunkEncryptSeals assertions ctx p = some r :=
        fun ctx => ⟨_, if_neg hok⟩
      have hcall : ∃ r, aeadEncryptSeals C assertions ctx p = some r := by
        unfold aeadEncryptSeals
        split_ifs
        · exact ⟨_, rfl⟩
        · obtain ⟨r, hr⟩ := hchunk { aeadCipherCtxSetKey C ctx with init := 1 }
          exact ⟨_, congrArg (Option.map _) hr⟩
        · obtain ⟨r, hr⟩ := hchunk ctx
          exact ⟨_, congrArg (Option.map _) hr⟩
      obtain ⟨r, hr⟩ := hcall
      rw [sealTrace, hr, List.length_cons, List.length_cons,
        ih r.1 (hps.imp id fun h q hq => h q (List.mem_cons_of_mem _ hq))]

/-- The nonces of an encryption context count up from zero, two to a chunk, and an empty chunk takes
none and emits nothing; `n` calls are made before an assertion fails, and all when none can.  What the
calls emit is what `aeadEncrypt` emits. -/
theorem nonces_count_up (C : AeadCipher) (assertions : Bool) (salt : Bytes) (ps : List Bytes) :
    let trace := sealTrace C assertions (aeadCtxInit C salt) ps
    let n := trace.length
    CountsUp C salt 0 (ps.take n) trace ∧
      (2 * chunkCount (ps.take n) ≤ 256 ^ C.nonceLen →
        ((trace.flatMap Prod.fst).map Seal.nonce).Nodup) ∧
      (assertions = false ∨ (∀ p ∈ ps, p.length ≤ 0x3FFF) → n = ps.length) ∧
      (assertions = true → ∀ (F : Bloom) (b : F.State),
        (run (aeadEncrypt C F) (aeadCtxInit C salt, b) (ps.take n)).2 = trace.map fun r => some r.2) := by
  intro trace n
  have hcount : CountsUp C salt 0 (ps.take n) trace := sealTrace_countsUp (sealed_init salt) ps
  refine ⟨hcount, fun hbound => ?_, sealTrace_length _, fun hassert F b => ?_⟩
  · rw [hcount.nonces]
    simp only [Nat.zero_add]
    exact nodup_leBytes C.nonceLen hbound
  · subst hassert
    exact run_aeadEncrypt_seals F (aeadCtxInit C salt, b) ps

end Nonces

/-- Two chunks under `chacha20-ietf-poly1305`, with an empty one between them, take four nonces. -/
theorem nonces_count_up_two :
    ((sealTrace (chacha20IetfPoly1305 sampleSalt) true (aeadCtxInit (chacha20IetfPoly1305 sampleSalt) sampleSalt)
      [[1, 2, 3], [], [4]]).flatMap Prod.fst).map Seal.nonce =
        [leBytes 12 0, leBytes 12 1, leBytes 12 2, leBytes 12 3] := by
  obtain ⟨hcount, -, hall, -⟩ :=
    nonces_count_up (chacha20IetfPoly1305 sampleSalt) true sampleSalt [[1, 2, 3], [], [4]]
  have hnonces := hcount.nonces
  rw [hall (.inr (by decide))] at hnonces
  exact hnonces

end Aead
end SsrNative
