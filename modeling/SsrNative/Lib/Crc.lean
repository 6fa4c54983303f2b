import Mathlib.Data.List.Basic
import Mathlib.Data.List.GetD
import Mathlib.Logic.Function.Iterate
import Mathlib.Tactic.Common
import Mathlib.Tactic.Ring

/-!
# Crc — cyclic redundancy checks with a reflected register

The register takes the message bit by bit, the lowest bit of a byte first.  One step is linear in
exclusive or, and one to one when the polynomial has its top bit; so a word as wide as the register
brings it to zero exactly when it is what the register holds.
-/

namespace SsrNative
namespace Lib
namespace Crc

variable {w : ℕ}

/-! ## The register -/

/-- The register, one bit further down. -/
def shift (poly c : BitVec w) : BitVec w :=
  if c.getLsbD 0 then poly ^^^ (c >>> 1) else c >>> 1

def bit (b : Bool) : BitVec w := if b then 1#w else 0#w

/-- The register after the bits of a message. -/
def feed (poly c : BitVec w) (bits : List Bool) : BitVec w :=
  bits.foldl (fun c b => shift poly (c ^^^ bit b)) c

/-- The bits of a byte as they are fed. -/
def bitsOf (x : UInt8) : List Bool := (List.range 8).map x.toBitVec.getLsbD

/-- The word whose lowest bits these are. -/
def word : List Bool → BitVec w
  | [] => 0#w
  | b :: bits => (word bits <<< 1) ^^^ bit b

@[simp] theorem feed_nil (poly c : BitVec w) : feed poly c [] = c := rfl

@[simp] theorem feed_cons (poly c : BitVec w) (b : Bool) (bits : List Bool) :
    feed poly c (b :: bits) = feed poly (shift poly (c ^^^ bit b)) bits := rfl

theorem feed_append (poly c : BitVec w) (l₁ l₂ : List Bool) :
    feed poly c (l₁ ++ l₂) = feed poly (feed poly c l₁) l₂ :=
  List.foldl_append

/-! ## Linearity -/

theorem shift_zero (poly : BitVec w) : shift poly 0#w = 0#w := by
  simp [shift]

theorem shift_xor (poly c d : BitVec w) : shift poly (c ^^^ d) = shift poly c ^^^ shift poly d := by
  unfold shift
  rw [BitVec.getLsbD_xor, BitVec.ushiftRight_xor_distrib]
  cases c.getLsbD 0 <;> cases d.getLsbD 0
  · rfl
  · change poly ^^^ (c >>> 1 ^^^ d >>> 1) = c >>> 1 ^^^ (poly ^^^ d >>> 1)
    ac_rfl
  · change poly ^^^ (c >>> 1 ^^^ d >>> 1) = poly ^^^ c >>> 1 ^^^ d >>> 1
    ac_rfl
  · -- the polynomial comes twice
    change c >>> 1 ^^^ d >>> 1 = poly ^^^ c >>> 1 ^^^ (poly ^^^ d >>> 1)
    calc c >>> 1 ^^^ d >>> 1
        = (poly ^^^ poly) ^^^ (c >>> 1 ^^^ d >>> 1) := by rw [BitVec.xor_self, BitVec.zero_xor]
      _ = poly ^^^ c >>> 1 ^^^ (poly ^^^ d >>> 1) := by ac_rfl

theorem iterate_shift_xor (poly : BitVec w) (n : ℕ) (c d : BitVec w) :
    (shift poly)^[n] (c ^^^ d) = (shift poly)^[n] c ^^^ (shift poly)^[n] d := by
  induction n generalizing c d with
  | zero => rfl
  | succ n ih => rw [Function.iterate_succ_apply, shift_xor, ih]; rfl

/-- A register that has room at the top comes back. -/
theorem shift_shiftLeft (poly : BitVec w) {c : BitVec w} (h : c.getLsbD (w - 1) = false) :
    shift poly (c <<< 1) = c := by
  have hlow : (c <<< 1).getLsbD 0 = false := by simp
  rw [shift, hlow]
  apply BitVec.eq_of_getLsbD_eq
  intro i hi
  by_cases htop : 1 + i < w
  · simp [htop, ← BitVec.getLsbD_eq_getElem hi]
  · have hlast : i = w - 1 := by omega
    subst hlast
    simp [htop, h]

theorem iterate_shift_shiftLeft (poly : BitVec w) (k : ℕ) {c : BitVec w}
    (h : ∀ i, w - k ≤ i → c.getLsbD i = false) : (shift poly)^[k] (c <<< k) = c := by
  induction k with
  | zero => rw [Function.iterate_zero_apply, BitVec.shiftLeft_zero]
  | succ k ih =>
      have hroom : (c <<< k).getLsbD (w - 1) = false := by
        rw [BitVec.getLsbD_shiftLeft, h (w - 1 - k) (by omega), Bool.and_false]
      rw [Function.iterate_succ_apply, BitVec.shiftLeft_add, shift_shiftLeft poly hroom]
      exact ih fun i hi => h i (by omega)

/-- Several steps at once: what the low bits do to the register, and the other bits moved down. -/
theorem iterate_shift_split (poly : BitVec w) (k : ℕ) (c : BitVec w) :
    (shift poly)^[k] c = (shift poly)^[k] ((c.setWidth k).setWidth w) ^^^ (c >>> k) := by
  have hsplit : c = (c.setWidth k).setWidth w ^^^ ((c >>> k) <<< k) := by
    apply BitVec.eq_of_getLsbD_eq
    intro i hi
    by_cases hlow : i < k
    · simp [hi, hlow]
    · simp [hi, hlow, Nat.add_sub_cancel' (Nat.not_lt.1 hlow)]
  have hhigh : (shift poly)^[k] ((c >>> k) <<< k) = c >>> k := by
    apply iterate_shift_shiftLeft
    intro i hi
    rw [BitVec.getLsbD_ushiftRight]
    exact BitVec.getLsbD_of_ge c _ (by omega)
  calc (shift poly)^[k] c
      = (shift poly)^[k] ((c.setWidth k).setWidth w ^^^ ((c >>> k) <<< k)) := by rw [← hsplit]
    _ = _ := by rw [iterate_shift_xor, hhigh]

/-! ## Feeding a word -/

theorem bit_getLsbD_of_pos (b : Bool) {i : ℕ} (h : 0 < i) : (bit b : BitVec w).getLsbD i = false := by
  cases b with
  | false => simp [bit]
  | true => simp [bit, Nat.pos_iff_ne_zero.1 h]

theorem bit_getLsbD_zero (b : Bool) (hw : 0 < w) : (bit b : BitVec w).getLsbD 0 = b := by
  cases b <;> simp [bit, hw]

theorem word_getLsbD (bits : List Bool) {i : ℕ} (hi : i < w) :
    (word bits : BitVec w).getLsbD i = bits.getD i false := by
  induction bits generalizing i with
  | nil => simp [word]
  | cons b bits ih =>
      rw [word, BitVec.getLsbD_xor, BitVec.getLsbD_shiftLeft]
      cases i with
      | zero => simp [bit_getLsbD_zero b hi]
      | succ i =>
          rw [bit_getLsbD_of_pos b (Nat.succ_pos i), Bool.xor_false]
          simp [ih (Nat.lt_of_succ_lt hi), hi]

theorem word_getLsbD_of_le {bits : List Bool} {i : ℕ} (h : bits.length ≤ i) :
    (word bits : BitVec w).getLsbD i = false := by
  by_cases hi : i < w
  · rw [word_getLsbD bits hi, List.getD_eq_default _ _ h]
  · exact BitVec.getLsbD_of_ge _ _ (Nat.not_lt.1 hi)

/-- Different bits are different words. -/
theorem word_inj {l₁ l₂ : List Bool} (hlen : l₁.length = l₂.length) (hw : l₁.length ≤ w)
    (h : (word l₁ : BitVec w) = word l₂) : l₁ = l₂ := by
  apply List.ext_getElem hlen
  intro i h₁ h₂
  have hbit := congrArg (BitVec.getLsbD · i) h
  have hi : i < w := Nat.lt_of_lt_of_le h₁ hw
  simpa [word_getLsbD _ hi, h₁, h₂] using hbit

/-- Bits that fit into the register can be put in before the first step. -/
theorem feed_eq_iterate (poly : BitVec w) {bits : List Bool} (h : bits.length ≤ w) (c : BitVec w) :
    feed poly c bits = (shift poly)^[bits.length] (c ^^^ word bits) := by
  induction bits generalizing c with
  | nil => rw [word, BitVec.xor_zero]; rfl
  | cons b bits ih =>
      rw [List.length_cons] at h
      have hroom : (word bits : BitVec w).getLsbD (w - 1) = false :=
        word_getLsbD_of_le (Nat.le_sub_one_of_lt h)
      calc feed poly c (b :: bits)
          = (shift poly)^[bits.length] (shift poly (c ^^^ bit b) ^^^ word bits) := by
            rw [feed_cons, ih (Nat.le_of_succ_le h)]
        _ = (shift poly)^[bits.length] (shift poly (c ^^^ bit b ^^^ (word bits <<< 1))) := by
            rw [shift_xor poly (c ^^^ bit b), shift_shiftLeft poly hroom]
        _ = (shift poly)^[(b :: bits).length] (c ^^^ word (b :: bits)) := by
            rw [List.length_cons, Function.iterate_succ_apply, word, BitVec.xor_assoc,
              BitVec.xor_comm (bit b)]

/-! ## Nothing is lost -/

/-- With its top bit set, the polynomial shows whether it was added. -/
theorem shift_eq_zero_iff {poly : BitVec w} (htop : poly.getLsbD (w - 1) = true) {c : BitVec w} :
    shift poly c = 0#w ↔ c = 0#w := by
  refine ⟨fun h => ?_, fun h => by rw [h, shift_zero]⟩
  have hw : 0 < w := by
    rcases Nat.eq_zero_or_pos w with rfl | hw
    · simp at htop
    · exact hw
  unfold shift at h
  cases hlow : c.getLsbD 0 with
  | true =>
      rw [hlow, if_pos rfl] at h
      have hbit := congrArg (BitVec.getLsbD · (w - 1)) h
      simp [htop, Nat.add_sub_cancel' hw] at hbit
  | false =>
      rw [hlow] at h
      apply BitVec.eq_of_getLsbD_eq
      intro i hi
      rcases i with _ | i
      · rw [hlow, BitVec.getLsbD_zero]
      · have hbit := congrArg (BitVec.getLsbD · i) h
        simpa [Nat.add_comm] using hbit

theorem iterate_shift_eq_zero_iff {poly : BitVec w} (htop : poly.getLsbD (w - 1) = true) (n : ℕ)
    {c : BitVec w} : (shift poly)^[n] c = 0#w ↔ c = 0#w := by
  induction n generalizing c with
  | zero => rfl
  | succ n ih => rw [Function.iterate_succ_apply, ih, shift_eq_zero_iff htop]

/-- The word that brings the register to zero is the one it holds. -/
theorem feed_eq_zero_iff {poly : BitVec w} (htop : poly.getLsbD (w - 1) = true) {bits : List Bool}
    (h : bits.length ≤ w) {c : BitVec w} : feed poly c bits = 0#w ↔ c = word bits := by
  rw [feed_eq_iterate poly h, iterate_shift_eq_zero_iff htop, BitVec.xor_eq_zero_iff]

/-! ## Bytes -/

@[simp] theorem bitsOf_length (x : UInt8) : (bitsOf x).length = 8 := by simp [bitsOf]

theorem bitsOf_inj {x y : UInt8} (h : bitsOf x = bitsOf y) : x = y := by
  apply UInt8.toBitVec_inj.1
  apply BitVec.eq_of_getLsbD_eq
  intro i hi
  exact List.map_inj_left.1 h i (List.mem_range.2 hi)

theorem flatMap_bitsOf_length (l : List UInt8) : (l.flatMap bitsOf).length = 8 * l.length := by
  induction l with
  | nil => rfl
  | cons x l ih => rw [List.flatMap_cons, List.length_append, ih, bitsOf_length, List.length_cons]; ring

theorem flatMap_bitsOf_inj : ∀ {l₁ l₂ : List UInt8}, l₁.flatMap bitsOf = l₂.flatMap bitsOf → l₁ = l₂
  | [], [], _ => rfl
  | [], y :: l₂, h => by
      have hlen := congrArg List.length h
      rw [flatMap_bitsOf_length, flatMap_bitsOf_length, List.length_cons, List.length_nil] at hlen
      omega
  | x :: l₁, [], h => by
      have hlen := congrArg List.length h
      rw [flatMap_bitsOf_length, flatMap_bitsOf_length, List.length_cons, List.length_nil] at hlen
      omega
  | x :: l₁, y :: l₂, h => by
      rw [List.flatMap_cons, List.flatMap_cons] at h
      have hparts := List.append_inj h (by simp)
      rw [bitsOf_inj hparts.1, flatMap_bitsOf_inj hparts.2]

/-- A byte at the foot of the register. -/
theorem word_bitsOf (x : UInt8) : (word (bitsOf x) : BitVec w) = x.toBitVec.setWidth w := by
  apply BitVec.eq_of_getLsbD_eq
  intro i hi
  rw [word_getLsbD _ hi, BitVec.getLsbD_setWidth]
  by_cases hlow : i < 8
  · simp [bitsOf, hlow, hi]
  · rw [List.getD_eq_default _ _ (by simpa using Nat.not_lt.1 hlow),
      BitVec.getLsbD_of_ge x.toBitVec i (Nat.not_lt.1 hlow), Bool.and_false]

/-- A byte at once, by a table for the low bits of the register. -/
theorem feed_bitsOf (hw : 8 ≤ w) (poly c : BitVec w) (x : UInt8) :
    feed poly c (bitsOf x) =
      (shift poly)^[8] (((c ^^^ x.toBitVec.setWidth w).setWidth 8).setWidth w) ^^^ (c >>> 8) := by
  have hhigh : x.toBitVec.setWidth w >>> 8 = 0#w := by
    apply BitVec.eq_of_getLsbD_eq
    intro i hi
    simp
  rw [feed_eq_iterate poly (by simpa using hw), bitsOf_length, word_bitsOf, iterate_shift_split,
    BitVec.ushiftRight_xor_distrib, hhigh, BitVec.xor_zero]

/-- When the register is zero behind a word as wide as itself, there is only one such word. -/
theorem feed_bytes_unique {poly c : BitVec w} (htop : poly.getLsbD (w - 1) = true) {l₁ l₂ : List UInt8}
    (hlen : l₁.length = l₂.length) (hw : 8 * l₁.length ≤ w) (h₁ : feed poly c (l₁.flatMap bitsOf) = 0#w)
    (h₂ : feed poly c (l₂.flatMap bitsOf) = 0#w) : l₁ = l₂ := by
  have hw₁ : (l₁.flatMap bitsOf).length ≤ w := by rwa [flatMap_bitsOf_length]
  have hw₂ : (l₂.flatMap bitsOf).length ≤ w := by rwa [flatMap_bitsOf_length, ← hlen]
  apply flatMap_bitsOf_inj
  apply word_inj (w := w) _ hw₁
  · rw [← (feed_eq_zero_iff htop hw₁).1 h₁, ← (feed_eq_zero_iff htop hw₂).1 h₂]
  · rw [flatMap_bitsOf_length, flatMap_bitsOf_length, hlen]

end Crc
end Lib
end SsrNative
