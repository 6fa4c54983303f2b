import SsrNative.Aead
import SsrNative.KeyDerivation

/-!
# Hkdf — HKDF with any digest

`crypto_hkdf_expand` of `aead.c`.  A block is the HMAC of the block before, the info and a counter of one
byte, and is made in the array that the block before is read from.
-/

namespace SsrNative
namespace Hkdf

open Bytes
open KeyDerivation (castInt castInt_of_lt)
open Lib.Chained
open Lib.Memory (load store load_front store_field)

def MBEDTLS_MD_MAX_SIZE : ℕ := 64

/-- A digest of the crypto library. -/
structure Md where
  size : ℕ
  size_pos : 0 < size
  size_le : size ≤ MBEDTLS_MD_MAX_SIZE
  hmac : Mac size

def mdSha1 : Md := ⟨20, by decide, by decide, hmacSha1⟩

def CRYPTO_ERROR : ℤ := -2

variable (M : Md)

/-! ## The function -/

/-- The loop over the blocks; the last one is copied as far as it is wanted. -/
def expandLoop (prk info : Bytes) (okmLen n : ℕ) : ℕ → ℕ → Bytes → ℕ → ℕ → Bytes → Option Bytes
  | 0, _, _, _, _, _ => none
  | fuel + 1, i, t, tLen, whereAt, okm =>
      if i ≤ n then do
        let last ← load t 0 tLen
        let t ← store t 0 (M.hmac.run (last ++ info ++ [UInt8.ofNat i]) prk)
        let copied ← load t 0 (if i ≠ n then M.size else subSize okmLen whereAt)
        let okm ← store okm whereAt copied
        expandLoop prk info okmLen n fuel (i + 1) t M.size (whereAt + M.size) okm
      else some okm

/-- `crypto_hkdf_expand`: the returned value and what `okm` points to.  `t` is what its array holds
before it is written. -/
def cryptoHkdfExpand (t prk info okm : Bytes) (okmLen : ℕ) : Option (ℤ × Bytes) :=
  if castInt info.length < 0 ∨ castInt okmLen < 0 then some (CRYPTO_ERROR, okm)
  else if prk.length < M.size then some (CRYPTO_ERROR, okm)
  else
    let n := okmLen / M.size + if okmLen % M.size ≠ 0 then 1 else 0
    if 255 < n then some (CRYPTO_ERROR, okm)
    else (expandLoop M prk info okmLen n (n + 1) 1 t 0 0 okm).map fun okm => (0, okm)

/-! ## Blocks -/

/-- `T(i)` from `T(i - 1)`. -/
def nextBlock (prk info : Bytes) (i : ℕ) (t : Bytes) : Bytes :=
  M.hmac.run (t ++ info ++ [UInt8.ofNat i]) prk

/-- The output keying material. -/
def okmOf (prk info : Bytes) (okmLen : ℕ) : Bytes := expand (nextBlock M prk info) M.size okmLen

variable {M}

theorem nextBlock_length (prk info : Bytes) (i : ℕ) (t : Bytes) : (nextBlock M prk info i t).length = M.size :=
  M.hmac.run_length _ _

/-- Behind block `c`: it is in front of the array, and all blocks so far are in `okm`. -/
theorem expandLoop_eq (prk info tail : Bytes) {okm : Bytes} {okmLen n fuel c : ℕ} (hroom : okmLen ≤ okm.length)
    (htail : M.size ≤ (block (nextBlock M prk info) c).length + tail.length)
    (hlow : (n - 1) * M.size ≤ okmLen) (hhigh : okmLen ≤ n * M.size) (hc : c + 1 ≤ n)
    (hfuel : n ≤ c + fuel) :
    expandLoop M prk info okmLen n (fuel + 1) (c + 1) (block (nextBlock M prk info) c ++ tail)
        (block (nextBlock M prk info) c).length (c * M.size)
        (blocks (nextBlock M prk info) c ++ okm.drop (c * M.size)) =
      some (okmOf M prk info okmLen ++ okm.drop okmLen) := by
  have hsize := nextBlock_length (M := M) prk info
  induction fuel generalizing c tail with
  | zero => omega
  | succ fuel ih =>
      have hlast : load (block (nextBlock M prk info) c ++ tail) 0 (block (nextBlock M prk info) c).length =
          some (block (nextBlock M prk info) c) := by
        rw [load_front (Nat.le_refl _), List.take_length]
      have hblock : M.hmac.run (block (nextBlock M prk info) c ++ info ++ [UInt8.ofNat (c + 1)]) prk =
          block (nextBlock M prk info) (c + 1) := rfl
      have hlen : (block (nextBlock M prk info) (c + 1)).length = M.size := block_length hsize c
      have hstore : store (block (nextBlock M prk info) c ++ tail) 0 (block (nextBlock M prk info) (c + 1)) =
          some (block (nextBlock M prk info) (c + 1) ++
            (block (nextBlock M prk info) c ++ tail).drop M.size) := by
        have hold : ((block (nextBlock M prk info) c ++ tail).take M.size).length =
            (block (nextBlock M prk info) (c + 1)).length := by
          rw [hlen, List.length_take, List.length_append, Nat.min_eq_left htail]
        have hfield := store_field (a := [])
          (l := (block (nextBlock M prk info) c ++ tail).drop M.size) List.length_nil hold
        rwa [List.nil_append, List.take_append_drop] at hfield
      have hbefore : (blocks (nextBlock M prk info) c).length = c * M.size := blocks_length hsize c
      have hcopy : ∀ {k}, k ≤ M.size → load (block (nextBlock M prk info) (c + 1) ++
          (block (nextBlock M prk info) c ++ tail).drop M.size) 0 k =
          some ((block (nextBlock M prk info) (c + 1)).take k) := fun hk => load_front (hk.trans hlen.symm.le)
      -- what is copied goes behind the blocks that are there
      have hput : ∀ {b : Bytes}, c * M.size + b.length ≤ okm.length →
          store (blocks (nextBlock M prk info) c ++ okm.drop (c * M.size)) (c * M.size) b =
            some (blocks (nextBlock M prk info) c ++ b ++ okm.drop (c * M.size + b.length)) := by
        intro b hb
        have hold : ((okm.drop (c * M.size)).take b.length).length = b.length := by
          rw [List.length_take, List.length_drop]
          omega
        have hfield := store_field (l := (okm.drop (c * M.size)).drop b.length) hbefore hold
        rwa [List.take_append_drop, List.drop_drop, ← List.append_assoc] at hfield
      rw [expandLoop, if_pos hc, hlast, Option.bind_eq_bind, Option.bind_some, hblock, hstore, Option.bind_some]
      rcases Nat.lt_or_eq_of_le hc with hlt | heq
      · -- a whole block
        have hfits : (c + 1) * M.size ≤ okmLen :=
          Nat.le_trans (Nat.mul_le_mul_right _ (by omega : c + 1 ≤ n - 1)) hlow
        have hnext : c * M.size + M.size = (c + 1) * M.size := (Nat.succ_mul _ _).symm
        have hwhole : (block (nextBlock M prk info) (c + 1)).take M.size = block (nextBlock M prk info) (c + 1) :=
          List.take_of_length_le hlen.le
        rw [if_pos (Nat.ne_of_lt hlt), hcopy (Nat.le_refl _), Option.bind_some, hwhole, hput (by omega),
          Option.bind_some, hlen, hnext, ← blocks_succ]
        have hrest := ih (c := c + 1) ((block (nextBlock M prk info) c ++ tail).drop M.size)
          (by omega) hlt (by omega)
        rwa [hlen] at hrest
      · -- the last one
        have hbelow : c * M.size ≤ okmLen := by
          rw [← heq] at hlow
          exact hlow
        have habove : okmLen ≤ (c + 1) * M.size := heq ▸ hhigh
        have hnext : c * M.size + M.size = (c + 1) * M.size := (Nat.succ_mul _ _).symm
        have hpart : ((block (nextBlock M prk info) (c + 1)).take (okmLen - c * M.size)).length =
            okmLen - c * M.size := by
          rw [List.length_take, hlen]
          omega
        rw [if_neg (not_not.2 heq), subSize_of_le hbelow, hcopy (by omega), Option.bind_some,
          hput (by omega), Option.bind_some, hpart, Nat.add_sub_cancel' hbelow,
          expand_take hsize M.size_pos hbelow habove]
        have hstop : ¬ c + 1 + 1 ≤ n := by omega
        rw [expandLoop, if_neg hstop]
        rfl

/-- The number of blocks is the quotient rounded up. -/
theorem count_bounds (okmLen : ℕ) {n : ℕ}
    (hn : n = okmLen / M.size + if okmLen % M.size ≠ 0 then 1 else 0) :
    (n - 1) * M.size ≤ okmLen ∧ okmLen ≤ n * M.size ∧ (255 < n ↔ 255 * M.size < okmLen) := by
  have hpos := M.size_pos
  have hdiv : okmLen / M.size * M.size + okmLen % M.size = okmLen := by
    rw [Nat.mul_comm]
    exact Nat.div_add_mod _ _
  have hmod := Nat.mod_lt okmLen hpos
  have hhigh : okmLen ≤ n * M.size := by
    rw [hn, Nat.add_mul]
    split <;> omega
  -- a block more would be behind the end
  have hlow : ∀ {k : ℕ}, k < n → k * M.size + (if okmLen % M.size ≠ 0 then 1 else M.size) ≤ okmLen := by
    intro k hk
    rcases Nat.eq_zero_or_pos (okmLen % M.size) with hzero | hrest
    · rw [if_neg (by omega)] at hn ⊢
      have hle : (k + 1) * M.size ≤ okmLen / M.size * M.size := Nat.mul_le_mul_right _ (by omega)
      rw [Nat.succ_mul] at hle
      omega
    · rw [if_pos (by omega)] at hn ⊢
      have hle : k * M.size ≤ okmLen / M.size * M.size := Nat.mul_le_mul_right _ (by omega)
      omega
  refine ⟨?_, hhigh, fun hmany => ?_, fun hlong => ?_⟩
  · rcases Nat.eq_zero_or_pos n with hzero | hsome
    · simp [hzero]
    · exact Nat.le_of_add_right_le (hlow (Nat.sub_one_lt_of_lt hsome))
  · have hle := hlow hmany
    split at hle <;> omega
  · by_contra hfew
    have hle : n * M.size ≤ 255 * M.size := Nat.mul_le_mul_right _ (by omega)
    omega

/-! ## Conformance -/

/-- Whatever the array of the blocks holds before, the wanted bytes are written in front of the others;
more than 255 blocks are an error. -/
def Conforms (M : Md) (prk info : Bytes) (okmLen : ℕ) : Prop :=
  ∀ t okm : Bytes, t.length = MBEDTLS_MD_MAX_SIZE → okmLen ≤ okm.length →
    (okmLen ≤ 255 * M.size →
      cryptoHkdfExpand M t prk info okm okmLen = some (0, okmOf M prk info okmLen ++ okm.drop okmLen)) ∧
    (255 * M.size < okmLen →
      ∃ code ≠ 0, cryptoHkdfExpand M t prk info okm okmLen = some (code, okm))

theorem crypto_hkdf_expand_conforms {prk info : Bytes} {okmLen : ℕ} (hprk : M.size ≤ prk.length)
    (hinfo : 0 ≤ castInt info.length) (hsome : 1 ≤ okmLen) : Conforms M prk info okmLen := by
  intro t okm ht hroom
  rcases count_bounds (M := M) okmLen rfl with ⟨hlow, hhigh, hmany⟩
  constructor
  · intro hfits
    have hsmall : okmLen < 2147483648 := by
      have hmax := M.size_le
      rw [MBEDTLS_MD_MAX_SIZE] at hmax
      omega
    have hsigns : ¬ (castInt info.length < 0 ∨ castInt okmLen < 0) := by
      rw [castInt_of_lt hsmall]
      omega
    have hone : 0 + 1 ≤ okmLen / M.size + if okmLen % M.size ≠ 0 then 1 else 0 := by
      by_contra hnone
      rw [Nat.lt_one_iff.1 (Nat.not_le.1 hnone)] at hhigh
      omega
    have hrun := expandLoop_eq (M := M) prk info t hroom
      (by rw [ht]; exact Nat.le_add_left_of_le M.size_le) hlow hhigh hone (Nat.le_add_left _ _)
    simp only [block, blocks_zero, List.nil_append, List.length_nil, Nat.zero_mul, List.drop_zero] at hrun
    rw [cryptoHkdfExpand, if_neg hsigns, if_neg (Nat.not_lt.2 hprk)]
    simp only [if_neg (mt hmany.1 (Nat.not_lt.2 hfits)), hrun, Option.map_some]
  · intro hlong
    refine ⟨CRYPTO_ERROR, by decide, ?_⟩
    rw [cryptoHkdfExpand]
    by_cases hsigns : castInt info.length < 0 ∨ castInt okmLen < 0
    · rw [if_pos hsigns]
    · rw [if_neg hsigns, if_neg (Nat.not_lt.2 hprk)]
      simp only [if_pos (hmany.2 hlong)]

/-- Two blocks, of which the second is cut. -/
theorem crypto_hkdf_expand_conforms_two : Conforms mdSha1 (List.replicate 20 11) [1, 2] 32 :=
  crypto_hkdf_expand_conforms (by decide) (by decide) (by decide)

/-- The length of the info is looked at as an `int`. -/
theorem not_conforms_of_negative {prk info : Bytes} {okmLen : ℕ} (hinfo : castInt info.length < 0)
    (hfits : okmLen ≤ 255 * M.size) : ¬ Conforms M prk info okmLen := by
  intro hconf
  rcases hconf (List.replicate MBEDTLS_MD_MAX_SIZE 0) (List.replicate okmLen 0) List.length_replicate
    List.length_replicate.symm.le with ⟨hwritten, -⟩
  have hcode := hwritten hfits
  rw [cryptoHkdfExpand, if_pos (Or.inl hinfo), Option.some.injEq, Prod.mk.injEq] at hcode
  exact absurd hcode.1 (by decide)

theorem long_info_refused : ¬ Conforms mdSha1 (List.replicate 20 11) (List.replicate 2147483648 0) 20 :=
  not_conforms_of_negative (by rw [List.length_replicate]; decide) (by decide)

/-! ## Session keys -/

/-- `crypto_hkdf_extract`; `none` is the salt `NULL`. -/
def cryptoHkdfExtract (M : Md) (salt : Option Bytes) (ikm : Bytes) : ℤ × Bytes :=
  if castInt (salt.getD []).length < 0 then (CRYPTO_ERROR, [])
  else (0, M.hmac.run ikm (salt.getD (List.replicate M.size 0)))

/-- `crypto_hkdf`: `||` makes any error a 1. -/
def cryptoHkdf (M : Md) (t : Bytes) (salt : Option Bytes) (ikm info okm : Bytes) (okmLen : ℕ) :
    Option (ℤ × Bytes) :=
  let prk := cryptoHkdfExtract M salt ikm
  if prk.1 ≠ 0 then some (1, okm)
  else (cryptoHkdfExpand M t prk.2 info okm okmLen).map fun r => (if r.1 ≠ 0 then 1 else 0, r.2)

theorem hkdfBlocks_eq (prk info : Bytes) (n c : ℕ) :
    blocks (nextBlock mdSha1 prk info) c ++
        Aead.hkdfBlocks prk info n (c + 1) (block (nextBlock mdSha1 prk info) c) =
      blocks (nextBlock mdSha1 prk info) (c + n) := by
  induction n generalizing c with
  | zero => exact List.append_nil _
  | succ n ih =>
      have hblock : hmacSha1.run (block (nextBlock mdSha1 prk info) c ++ info ++ [UInt8.ofNat (c + 1)]) prk =
          block (nextBlock mdSha1 prk info) (c + 1) := rfl
      rw [Aead.hkdfBlocks, hblock, ← List.append_assoc, ← blocks_succ, ih, Nat.add_right_comm, Nat.add_assoc]

/-- The keys of the sessions are made this way. -/
theorem aead_hkdf_eq (salt ikm info : Bytes) (okmLen : ℕ) :
    Aead.cryptoHkdf salt ikm info okmLen = okmOf mdSha1 (hmacSha1.run ikm salt) info okmLen := by
  have hblocks := hkdfBlocks_eq (hmacSha1.run ikm salt) info ((okmLen + 19) / 20) 0
  rw [blocks_zero, List.nil_append, Nat.zero_add, Nat.zero_add] at hblocks
  rw [Aead.cryptoHkdf, okmOf, expand_eq_take (nextBlock_length _ _) mdSha1.size_pos
    (show okmLen ≤ (okmLen + 19) / 20 * 20 by omega), ← hblocks]
  rfl

/-- `crypto_hkdf` with SHA-1 gives an AEAD session the key that its model has. -/
theorem cryptoHkdf_subkey (C : Aead.AeadCipher) {t salt okm : Bytes} (ht : t.length = MBEDTLS_MD_MAX_SIZE)
    (hsalt : 0 ≤ castInt salt.length) (hkey : 1 ≤ C.keyLen) (hfits : C.keyLen ≤ 255 * 20)
    (hroom : C.keyLen ≤ okm.length) :
    cryptoHkdf mdSha1 t (some salt) C.key Aead.SUBKEY_INFO okm C.keyLen =
      some (0, Aead.subkey C salt ++ okm.drop C.keyLen) := by
  have hprk : mdSha1.size ≤ (hmacSha1.run C.key salt).length := (hmacSha1.run_length _ _).symm.le
  rcases crypto_hkdf_expand_conforms hprk (by decide : 0 ≤ castInt Aead.SUBKEY_INFO.length) hkey t okm ht hroom
    with ⟨hwritten, -⟩
  have hextract : cryptoHkdfExtract mdSha1 (some salt) C.key = (0, hmacSha1.run C.key salt) :=
    if_neg (Int.not_lt.2 hsalt)
  simp [cryptoHkdf, hextract, hwritten hfits, Aead.subkey, aead_hkdf_eq]

/-- The 32 bytes of a session key, in front of what the array had. -/
theorem cryptoHkdf_subkey_sample :
    cryptoHkdf mdSha1 (List.replicate MBEDTLS_MD_MAX_SIZE 0) (some Aead.sampleSalt)
        (Aead.chacha20IetfPoly1305 Aead.sampleSalt).key Aead.SUBKEY_INFO (List.replicate 64 7) 32 =
      some (0, Aead.subkey (Aead.chacha20IetfPoly1305 Aead.sampleSalt) Aead.sampleSalt ++
        (List.replicate 64 7).drop 32) :=
  cryptoHkdf_subkey (Aead.chacha20IetfPoly1305 Aead.sampleSalt) List.length_replicate (by decide) (by decide)
    (by decide) (by decide)

end Hkdf
end SsrNative
