import Mathlib.Algebra.Order.BigOperators.Group.List
import Mathlib.Data.List.Basic
import Mathlib.Data.Nat.ModEq
import Mathlib.Tactic.Common
import Mathlib.Tactic.Linarith
import Mathlib.Tactic.Ring

/-!
# Adler — a running sum and the sum of its values

The pair of sums that Fletcher and Adler checksums keep.  Reducing both modulo a number in between
makes no difference to the result modulo that number, and both sums stay below a bound that is
quadratic in the number of items.
-/

namespace SsrNative
namespace Lib
namespace Adler

/-- One item: the first sum takes the item, the second the first sum. -/
def add (r : ℕ × ℕ) (x : ℕ) : ℕ × ℕ := (r.1 + x, r.2 + (r.1 + x))

def sums (r : ℕ × ℕ) (l : List ℕ) : ℕ × ℕ := l.foldl add r

/-- The sums over all beginnings of the list, together. -/
def prefixSums (l : List ℕ) : ℕ := ((List.range l.length).map fun k => (l.take (k + 1)).sum).sum

/-- Both sums, reduced. -/
def reduce (p : ℕ) (r : ℕ × ℕ) : ℕ × ℕ := (r.1 % p, r.2 % p)

@[simp] theorem sums_nil (r : ℕ × ℕ) : sums r [] = r := rfl

@[simp] theorem sums_cons (r : ℕ × ℕ) (x : ℕ) (l : List ℕ) : sums r (x :: l) = sums (add r x) l := rfl

theorem sums_append (r : ℕ × ℕ) (l₁ l₂ : List ℕ) : sums r (l₁ ++ l₂) = sums (sums r l₁) l₂ :=
  List.foldl_append

/-- The first item is in every beginning. -/
theorem prefixSums_cons (x : ℕ) (l : List ℕ) :
    prefixSums (x :: l) = (l.length + 1) * x + prefixSums l := by
  have hsplit : ∀ ks : List ℕ, (ks.map fun k => ((x :: l).take (k + 1)).sum).sum =
      ks.length * x + (ks.map fun k => (l.take k).sum).sum := by
    intro ks
    induction ks with
    | nil => simp
    | cons k ks ih =>
        rw [List.map_cons, List.sum_cons, ih, List.take_succ_cons, List.sum_cons, List.map_cons,
          List.sum_cons, List.length_cons]
        ring
  have hshift : ((List.range (l.length + 1)).map fun k => (l.take k).sum).sum = prefixSums l := by
    rw [List.range_succ_eq_map, List.map_cons, List.sum_cons, List.map_map, List.take_zero, List.sum_nil,
      Nat.zero_add]
    rfl
  rw [prefixSums, List.length_cons, hsplit, List.length_range, hshift]

/-- What the items add to the two sums. -/
theorem sums_eq (r : ℕ × ℕ) (l : List ℕ) :
    sums r l = (r.1 + l.sum, r.2 + l.length * r.1 + prefixSums l) := by
  induction l generalizing r with
  | nil => simp [prefixSums]
  | cons x l ih =>
      rw [sums_cons, ih, List.sum_cons, prefixSums_cons, List.length_cons, add]
      refine Prod.ext ?_ ?_
      · dsimp only
        ring
      · dsimp only
        ring

/-- The sums never go down. -/
theorem le_sums (r : ℕ × ℕ) (l : List ℕ) : r.1 ≤ (sums r l).1 ∧ r.2 ≤ (sums r l).2 := by
  rw [sums_eq]
  exact ⟨Nat.le_add_right _ _, Nat.le_trans (Nat.le_add_right _ _) (Nat.le_add_right _ _)⟩

theorem sums_reduce (p : ℕ) (r : ℕ × ℕ) (l : List ℕ) :
    reduce p (sums (reduce p r) l) = reduce p (sums r l) := by
  have hfirst : r.1 % p ≡ r.1 [MOD p] := Nat.mod_modEq _ _
  have hsecond : r.2 % p ≡ r.2 [MOD p] := Nat.mod_modEq _ _
  rw [sums_eq, sums_eq]
  refine Prod.ext ?_ ?_
  · exact hfirst.add_right _
  · exact (hsecond.add (hfirst.mul_left _)).add_right _

/-! ## Bounds -/

theorem sum_le {d : ℕ} {l : List ℕ} (h : ∀ x ∈ l, x ≤ d) : l.sum ≤ l.length * d := by
  simpa using List.sum_le_card_nsmul l d h

theorem prefixSums_le {d : ℕ} {l : List ℕ} (h : ∀ x ∈ l, x ≤ d) :
    2 * prefixSums l ≤ d * (l.length * (l.length + 1)) := by
  induction l with
  | nil => simp [prefixSums]
  | cons x l ih =>
      have hx : x ≤ d := h x List.mem_cons_self
      have hl := ih fun y hy => h y (List.mem_cons_of_mem x hy)
      rw [prefixSums_cons, List.length_cons]
      calc 2 * ((l.length + 1) * x + prefixSums l)
          = (l.length + 1) * 2 * x + 2 * prefixSums l := by ring
        _ ≤ (l.length + 1) * 2 * d + d * (l.length * (l.length + 1)) :=
            Nat.add_le_add (Nat.mul_le_mul_left _ hx) hl
        _ = d * ((l.length + 1) * (l.length + 1 + 1)) := by ring

/-- The two sums behind a block of at most `n` items, from sums below `p`. -/
theorem sums_le {d n p : ℕ} {r : ℕ × ℕ} {l : List ℕ} (hd : ∀ x ∈ l, x ≤ d) (hn : l.length ≤ n)
    (h₁ : r.1 < p) (h₂ : r.2 < p) :
    (sums r l).1 < p + n * d ∧ 2 * (sums r l).2 < 2 * p * (n + 1) + d * (n * (n + 1)) := by
  rw [sums_eq]
  constructor
  · exact Nat.add_lt_add_of_lt_of_le h₁ (Nat.le_trans (sum_le hd) (Nat.mul_le_mul_right d hn))
  · have hmiddle : l.length * r.1 ≤ n * p := Nat.mul_le_mul hn (Nat.le_of_lt h₁)
    have hprefix : 2 * prefixSums l ≤ d * (n * (n + 1)) :=
      Nat.le_trans (prefixSums_le hd)
        (Nat.mul_le_mul_left d (Nat.mul_le_mul hn (Nat.succ_le_succ hn)))
    calc 2 * (r.2 + l.length * r.1 + prefixSums l)
        = 2 * r.2 + 2 * (l.length * r.1) + 2 * prefixSums l := by ring
      _ < 2 * p + 2 * (n * p) + d * (n * (n + 1)) := by omega
      _ = 2 * p * (n + 1) + d * (n * (n + 1)) := by ring

end Adler
end Lib
end SsrNative
