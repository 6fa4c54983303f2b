import Mathlib.Algebra.Order.Group.Int
import Mathlib.Data.List.Pairwise
import Mathlib.Tactic.Common

/-!
# Comparison — a comparison that answers with the sign of an integer

What a sorting or searching container asks of the comparison it is given: opposite answers for exchanged
arguments, and transitivity.  Different elements may compare equal.
-/

namespace SsrNative
namespace Lib
namespace Comparison

variable {α : Type*}

structure Lawful (compare : α → α → ℤ) : Prop where
  neg_iff_pos : ∀ a b, compare a b < 0 ↔ 0 < compare b a
  le_trans : ∀ a b c, compare a b ≤ 0 → compare b c ≤ 0 → compare a c ≤ 0

namespace Lawful

variable {compare : α → α → ℤ} {a b c : α}

theorem nonneg_iff (h : Lawful compare) : 0 ≤ compare a b ↔ compare b a ≤ 0 := by
  rw [← not_lt, h.neg_iff_pos, not_lt]

theorem eq_zero_comm (h : Lawful compare) : compare a b = 0 ↔ compare b a = 0 := by
  have hneg := h.neg_iff_pos a b
  have hpos := h.neg_iff_pos b a
  omega

theorem self_eq_zero (h : Lawful compare) (a : α) : compare a a = 0 := by
  have hneg := h.neg_iff_pos a a
  omega

theorem lt_of_lt_of_le (h : Lawful compare) (hab : compare a b < 0) (hbc : compare b c ≤ 0) : compare a c < 0 := by
  by_contra hac
  rw [not_lt, h.nonneg_iff] at hac
  exact absurd (h.nonneg_iff.2 (h.le_trans b c a hbc hac)) (not_le.2 hab)

theorem lt_of_le_of_lt (h : Lawful compare) (hab : compare a b ≤ 0) (hbc : compare b c < 0) : compare a c < 0 := by
  by_contra hac
  rw [not_lt, h.nonneg_iff] at hac
  exact absurd (h.nonneg_iff.2 (h.le_trans c a b hac hab)) (not_le.2 hbc)

/-- Elements that compare equal compare alike with every other. -/
theorem lt_iff_of_eq_zero (h : Lawful compare) (hab : compare a b = 0) : compare a c < 0 ↔ compare b c < 0 :=
  ⟨h.lt_of_le_of_lt (h.eq_zero_comm.1 hab).le, h.lt_of_le_of_lt hab.le⟩

end Lawful

end Comparison
end Lib
end SsrNative
