import Mathlib.Data.List.Basic
import Mathlib.Data.List.Nodup
import Mathlib.Data.List.Range
import Mathlib.Tactic.Common

/-!
# Rearrange — permutations made by loops

A merge keeps all items, whatever the comparison answers; it need not be an order.  A table without
repetitions is inverted by writing each position at the place that its item names.
-/

namespace SsrNative
namespace Lib
namespace Rearrange

variable {α : Type*}

/-! ## Merging -/

/-- Take the item on the left when the comparison does not answer a positive number. -/
def mergeBy (cmp : α → α → ℤ) : List α → List α → List α
  | [], rr => rr
  | ll, [] => ll
  | x :: ll, y :: rr =>
      if cmp x y ≤ 0 then x :: mergeBy cmp ll (y :: rr) else y :: mergeBy cmp (x :: ll) rr
termination_by ll rr => ll.length + rr.length

/-- Any comparison gives a permutation. -/
theorem mergeBy_perm (cmp : α → α → ℤ) (ll rr : List α) : (mergeBy cmp ll rr).Perm (ll ++ rr) := by
  induction ll, rr using mergeBy.induct cmp with
  | case1 rr => simp [mergeBy]
  | case2 ll hne => simp [mergeBy]
  | case3 x ll y rr hle ih =>
      rw [mergeBy, if_pos hle]
      exact ih.cons x
  | case4 x ll y rr hgt ih =>
      rw [mergeBy, if_neg hgt]
      exact (ih.cons y).trans List.perm_middle.symm

theorem mergeBy_length (cmp : α → α → ℤ) (ll rr : List α) :
    (mergeBy cmp ll rr).length = ll.length + rr.length := by
  rw [(mergeBy_perm cmp ll rr).length_eq, List.length_append]

/-! ## Inverting a table -/

/-- Write `g i` at place `f i`, for the first `n` numbers. -/
def scatter (f : ℕ → ℕ) (g : ℕ → α) (table : List α) (n : ℕ) : List α :=
  (List.range n).foldl (fun table i => table.set (f i) (g i)) table

theorem scatter_succ (f : ℕ → ℕ) (g : ℕ → α) (table : List α) (n : ℕ) :
    scatter f g table (n + 1) = (scatter f g table n).set (f n) (g n) := by
  simp [scatter, List.range_succ]

@[simp] theorem scatter_length (f : ℕ → ℕ) (g : ℕ → α) (table : List α) (n : ℕ) :
    (scatter f g table n).length = table.length := by
  induction n with
  | zero => rfl
  | succ n ih => rw [scatter_succ, List.length_set, ih]

/-- If no place is named twice, nothing is overwritten. -/
theorem scatter_getElem? {f : ℕ → ℕ} {g : ℕ → α} {table : List α} {n : ℕ}
    (hroom : ∀ i < n, f i < table.length) (hinj : ∀ i < n, ∀ j < n, f i = f j → i = j) {i : ℕ} (hi : i < n) :
    (scatter f g table n)[f i]? = some (g i) := by
  induction n with
  | zero => cases hi
  | succ n ih =>
      rw [scatter_succ]
      by_cases hlast : i = n
      · rw [hlast, List.getElem?_set_self]
        rw [scatter_length]
        exact hroom n (Nat.lt_succ_self n)
      · have hlt : i < n := Nat.lt_of_le_of_ne (Nat.le_of_lt_succ hi) hlast
        have hplace : f n ≠ f i := fun heq => hlast (hinj n (Nat.lt_succ_self n) i hi heq).symm
        rw [List.getElem?_set_ne hplace]
        exact ih (fun j hj => hroom j (Nat.lt_succ_of_lt hj))
          (fun j hj k hk => hinj j (Nat.lt_succ_of_lt hj) k (Nat.lt_succ_of_lt hk)) hlt

end Rearrange
end Lib
end SsrNative
