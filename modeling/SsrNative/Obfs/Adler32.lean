import SsrNative.Lib.Adler
import SsrNative.Obfs.Checksums

/-!
# Adler32 — Adler-32 in 32 bits

`adler32` reduces its sums once in `NMAX` bytes.  The same loops with additions that stop at `2 ^ 32`
never stop, so the sums are those of the natural numbers, and they are reduced to the definition of
Adler-32.
-/

namespace SsrNative
namespace Obfs
namespace Checksums

open Bytes
open Lib.Adler

/-! ## The definition -/

def BASE : ℕ := 65521

/-- One and all bytes. -/
def adlerA (m : Bytes) : ℕ := (1 + (m.map UInt8.toNat).sum) % BASE

/-- The values of the first sum behind each byte, together. -/
def adlerB (m : Bytes) : ℕ :=
  ((List.range m.length).map fun k => 1 + ((m.take (k + 1)).map UInt8.toNat).sum).sum % BASE

/-! ## Additions that do not wrap -/

/-- An addition of two `uint32_t`, when it does not wrap. -/
def addExact (a b : UInt32) : Option UInt32 :=
  if a.toNat + b.toNat < 4294967296 then some (a + b) else none

def adler32ByteExact (r : UInt32 × UInt32) (x : UInt8) : Option (UInt32 × UInt32) := do
  let a ← addExact r.1 x.toUInt32
  let b ← addExact r.2 a
  pure (a, b)

/-- `adler32_short`, as long as no addition wraps. -/
def adler32ShortExact (buffer : Bytes) (r : UInt32 × UInt32) : Option (UInt32 × UInt32) := do
  let r ← buffer.foldlM adler32ByteExact r
  pure (r.1 % 65521, r.2 % 65521)

def adler32PiecesExact : ℕ → Bytes → UInt32 × UInt32 → Option (UInt32 × UInt32)
  | 0, _, r => pure r
  | fuel + 1, buffer, r =>
      if NMAX ≤ buffer.length then do
        let r ← adler32ShortExact (buffer.take NMAX) r
        adler32PiecesExact fuel (buffer.drop NMAX) r
      else adler32ShortExact buffer r

/-- `adler32`, as long as no addition wraps. -/
def adler32Exact (buffer : Bytes) : Option UInt32 := do
  let r ← adler32PiecesExact (buffer.length + 1) buffer (1, 0)
  addExact (r.2 <<< 16) r.1

/-- The two words as numbers. -/
def values (r : UInt32 × UInt32) : ℕ × ℕ := (r.1.toNat, r.2.toNat)

theorem addExact_eq {a b : UInt32} (h : a.toNat + b.toNat < 4294967296) :
    addExact a b = some (a + b) ∧ (a + b).toNat = a.toNat + b.toNat := by
  refine ⟨if_pos h, ?_⟩
  rw [UInt32.toNat_add]
  exact Nat.mod_eq_of_lt h

theorem adler32ByteExact_eq {r : UInt32 × UInt32} {x : UInt8}
    (h₁ : (add (values r) x.toNat).1 < 4294967296) (h₂ : (add (values r) x.toNat).2 < 4294967296) :
    adler32ByteExact r x = some (adler32Byte r x) ∧
      values (adler32Byte r x) = add (values r) x.toNat := by
  have ha : addExact r.1 x.toUInt32 = some (r.1 + x.toUInt32) ∧
      (r.1 + x.toUInt32).toNat = r.1.toNat + x.toUInt32.toNat := addExact_eq h₁
  have hb : r.2.toNat + (r.1 + x.toUInt32).toNat < 4294967296 := by
    rw [ha.2]
    exact h₂
  constructor
  · rw [adler32ByteExact, ha.1, Option.bind_eq_bind, Option.bind_some, (addExact_eq hb).1]
    rfl
  · refine Prod.ext ha.2 ?_
    exact (addExact_eq hb).2.trans (congrArg _ ha.2)

/-- The sums do not go down, so it is enough that the last ones fit. -/
theorem foldlM_adler32ByteExact {l : Bytes} {r : UInt32 × UInt32}
    (h₁ : (sums (values r) (l.map UInt8.toNat)).1 < 4294967296)
    (h₂ : (sums (values r) (l.map UInt8.toNat)).2 < 4294967296) :
    l.foldlM adler32ByteExact r = some (l.foldl adler32Byte r) ∧
      values (l.foldl adler32Byte r) = sums (values r) (l.map UInt8.toNat) := by
  induction l generalizing r with
  | nil => exact ⟨rfl, rfl⟩
  | cons x l ih =>
      rw [List.map_cons, sums_cons] at h₁ h₂
      have hup := le_sums (add (values r) x.toNat) (l.map UInt8.toNat)
      have hbyte := adler32ByteExact_eq (Nat.lt_of_le_of_lt hup.1 h₁) (Nat.lt_of_le_of_lt hup.2 h₂)
      rw [← hbyte.2] at h₁ h₂
      have hrest := ih h₁ h₂
      rw [List.foldlM_cons, hbyte.1, Option.bind_eq_bind, Option.bind_some, List.foldl_cons, List.map_cons,
        sums_cons, ← hbyte.2]
      exact hrest

/-! ## The blocks -/

/-- The sums between two blocks. -/
def Reduced (r : UInt32 × UInt32) : Prop := r.1.toNat < BASE ∧ r.2.toNat < BASE

theorem adler32ShortExact_eq {l : Bytes} {r : UInt32 × UInt32} (hlen : l.length ≤ NMAX) (hr : Reduced r) :
    adler32ShortExact l r = some (adler32Short l r) ∧
      values (adler32Short l r) = reduce BASE (sums (values r) (l.map UInt8.toNat)) := by
  have hbytes : ∀ x ∈ l.map UInt8.toNat, x ≤ 255 := by
    intro x hx
    rcases List.mem_map.1 hx with ⟨b, -, rfl⟩
    exact Nat.le_of_lt_succ b.toNat_lt
  -- at most `255 * 5552 * 5553 / 2 + 5553 * 65520 = 4294690200`
  have hbound := sums_le (n := NMAX) (p := BASE) (r := values r) hbytes (by rwa [List.length_map]) hr.1 hr.2
  have hfold := foldlM_adler32ByteExact (l := l) (r := r)
    (Nat.lt_trans hbound.1 (by decide))
    (Nat.lt_of_mul_lt_mul_left (Nat.lt_of_lt_of_le hbound.2 (by decide : _ ≤ 2 * 4294967296)))
  constructor
  · rw [adler32ShortExact, hfold.1]
    rfl
  · rw [← hfold.2]
    rfl

theorem reduced_adler32Short (l : Bytes) (r : UInt32 × UInt32) : Reduced (adler32Short l r) := by
  have hmod : ∀ a : UInt32, (a % 65521).toNat < BASE := by
    intro a
    rw [UInt32.toNat_mod]
    exact Nat.mod_lt _ (by decide)
  exact ⟨hmod _, hmod _⟩

/-- The block loop adds up the whole buffer, for any sums it starts from. -/
theorem adler32PiecesExact_eq {fuel : ℕ} {l : Bytes} {r : UInt32 × UInt32} (hr : Reduced r)
    (hfuel : l.length < fuel) :
    adler32PiecesExact fuel l r = some (adler32Pieces fuel l r) ∧
      values (adler32Pieces fuel l r) = reduce BASE (sums (values r) (l.map UInt8.toNat)) := by
  induction fuel generalizing l r with
  | zero => exact absurd hfuel (Nat.not_lt_zero _)
  | succ fuel ih =>
      rw [adler32PiecesExact, adler32Pieces]
      by_cases hlong : NMAX ≤ l.length
      · have hshort := adler32ShortExact_eq (l := l.take NMAX) (by simp) hr
        have hdrop : (l.drop NMAX).length < fuel := by
          rw [List.length_drop]
          unfold NMAX at hlong ⊢
          omega
        have hrest := ih (reduced_adler32Short (l.take NMAX) r) hdrop
        rw [if_pos hlong, if_pos hlong, hshort.1, Option.bind_eq_bind, Option.bind_some]
        refine ⟨hrest.1, ?_⟩
        rw [hrest.2, hshort.2, sums_reduce, ← sums_append, ← List.map_append, List.take_append_drop]
      · rw [if_neg hlong, if_neg hlong]
        exact adler32ShortExact_eq (Nat.le_of_not_le hlong) hr

/-- The sums from which `adler32` starts give the definition. -/
theorem reduce_sums_eq (m : Bytes) :
    reduce BASE (sums (1, 0) (m.map UInt8.toNat)) = (adlerA m, adlerB m) := by
  have hb : ∀ ks : List ℕ, (ks.map fun k => 1 + ((m.take (k + 1)).map UInt8.toNat).sum).sum =
      0 + ks.length * 1 + (ks.map fun k => ((m.map UInt8.toNat).take (k + 1)).sum).sum := by
    intro ks
    induction ks with
    | nil => rfl
    | cons k ks ih =>
        rw [List.map_cons, List.sum_cons, ih, List.map_cons, List.sum_cons, List.length_cons,
          List.map_take]
        ring
  rw [sums_eq, reduce, adlerA, adlerB, hb, prefixSums, List.length_range, List.length_map]

theorem adler32_values (m : Bytes) :
    adler32Exact m = some (adler32 m) ∧ (adler32 m).toNat = adlerB m * 65536 + adlerA m := by
  have hpieces := adler32PiecesExact_eq (l := m) (r := (1, 0)) ⟨by decide, by decide⟩
    (Nat.lt_succ_self m.length)
  have hvalues : values (adler32Pieces (m.length + 1) m (1, 0)) = (adlerA m, adlerB m) :=
    hpieces.2.trans (reduce_sums_eq m)
  have ha : (adler32Pieces (m.length + 1) m (1, 0)).1.toNat = adlerA m := congrArg Prod.fst hvalues
  have hb : (adler32Pieces (m.length + 1) m (1, 0)).2.toNat = adlerB m := congrArg Prod.snd hvalues
  have hlowA : adlerA m < 65536 := Nat.lt_trans (Nat.mod_lt _ (by decide)) (by decide : BASE < 65536)
  have hlowB : adlerB m < 65536 := Nat.lt_trans (Nat.mod_lt _ (by decide)) (by decide : BASE < 65536)
  -- the second sum has sixteen bits, so the shift loses none of them
  have hshift : ((adler32Pieces (m.length + 1) m (1, 0)).2 <<< 16).toNat = adlerB m * 65536 := by
    rw [UInt32.toNat_shiftLeft, hb]
    change adlerB m <<< 16 % 4294967296 = _
    rw [Nat.shiftLeft_eq]
    exact Nat.mod_eq_of_lt (by omega)
  have hsum := addExact_eq (a := (adler32Pieces (m.length + 1) m (1, 0)).2 <<< 16)
    (b := (adler32Pieces (m.length + 1) m (1, 0)).1) (by omega)
  constructor
  · rw [adler32Exact, hpieces.1]
    exact hsum.1
  · rw [adler32]
    exact hsum.2.trans (by rw [hshift, ha])

/-! ## The check -/

/-- Four bytes are the ones stored for the number they are read as. -/
theorem le32_rdLe32 {l : Bytes} (h : l.length = 4) : le32 (rdLe32 l 0) = l := by
  rcases l with _ | ⟨b₀, _ | ⟨b₁, _ | ⟨b₂, _ | ⟨b₃, _ | ⟨b₄, l⟩⟩⟩⟩⟩ <;> simp at h
  have h₀ := b₀.toNat_lt
  have h₁ := b₁.toNat_lt
  have h₂ := b₂.toNat_lt
  have h₃ := b₃.toNat_lt
  have hvalue : rdLe32 [b₀, b₁, b₂, b₃] 0 =
      b₀.toNat + 256 * b₁.toNat + 65536 * b₂.toNat + 16777216 * b₃.toNat := by
    simp only [rdLe32, rdLe16, byteAt, List.getD_cons_zero, List.getD_cons_succ]
    omega
  rw [hvalue, le32]
  simp only [List.cons.injEq, and_true]
  refine ⟨?_, ?_, ?_, ?_⟩ <;> apply UInt8.toNat_inj.1 <;> rw [UInt8.toNat_ofNat'] <;> omega

theorem checkAdler32_iff {buffer : Bytes} (h : 4 ≤ buffer.length) :
    checkAdler32 buffer buffer.length = true ↔
      buffer.drop (buffer.length - 4) = (fillAdler32 buffer).drop (buffer.length - 4) := by
  have htake : (buffer.take (buffer.length - 4)).length = buffer.length - 4 := by
    rw [List.length_take]
    omega
  have hlast : (buffer.drop (buffer.length - 4)).length = 4 := by
    rw [List.length_drop]
    omega
  have hread : rdLe32 buffer (buffer.length - 4) = rdLe32 (buffer.drop (buffer.length - 4)) 0 := by
    have hright := rdLe32_append_right (l := buffer.drop (buffer.length - 4)) (Nat.le_of_eq htake)
    rwa [List.take_append_drop, htake, Nat.sub_self] at hright
  have hstored : (fillAdler32 buffer).drop (buffer.length - 4) =
      le32 (adler32 (buffer.take (buffer.length - 4))).toNat := List.drop_left' htake
  rw [checkAdler32, hread, hstored, beq_iff_eq]
  constructor
  · intro heq
    rw [heq, le32_rdLe32 hlast]
  · intro heq
    have hlt := (adler32 (buffer.take (buffer.length - 4))).toNat_lt
    have hback := rdLe32_le32_append (adler32 (buffer.take (buffer.length - 4))).toNat []
    rw [List.append_nil, Nat.mod_eq_of_lt hlt, ← heq] at hback
    exact hback.symm

/-- No addition wraps, the result is Adler-32, and a buffer with room for a checksum is accepted with
that checksum and no other. -/
theorem adler32_exact (buffer : Bytes) :
    adler32Exact buffer = some (adler32 buffer) ∧
      (adler32 buffer).toNat = adlerB buffer * 65536 + adlerA buffer ∧
      (4 ≤ buffer.length → (checkAdler32 buffer buffer.length = true ↔
        buffer.drop (buffer.length - 4) = (fillAdler32 buffer).drop (buffer.length - 4))) :=
  ⟨(adler32_values buffer).1, (adler32_values buffer).2, checkAdler32_iff⟩

theorem adler32_exact_three : checkAdler32 [1, 2, 3, 7, 0, 13, 0] 7 = true :=
  ((adler32_exact [1, 2, 3, 7, 0, 13, 0]).2.2 (by decide)).2 (by decide)

end Checksums
end Obfs
end SsrNative
