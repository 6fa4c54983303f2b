import Mathlib.Data.List.Basic
import Mathlib.Data.List.Infix
import Mathlib.Tactic.Common
import Mathlib.Tactic.Ring

/-!
# Chained — output made of blocks, each from the one in front of it

Key derivation functions stretch a digest this way.  Blocks are counted from one, all have the same
size, and the last one may be cut.
-/

namespace SsrNative
namespace Lib
namespace Chained

variable {α : Type*} (next : ℕ → List α → List α)

/-- Block number `i`; there is nothing in front of the first. -/
def block : ℕ → List α
  | 0 => []
  | i + 1 => next (i + 1) (block i)

/-- The first `n` blocks. -/
def blocks (n : ℕ) : List α := (List.range n).flatMap fun i => block next (i + 1)

/-- The first `len` items, from blocks of size `h`. -/
def expand (h len : ℕ) : List α := (blocks next (len / h + 1)).take len

@[simp] theorem blocks_zero : blocks next 0 = [] := rfl

theorem blocks_succ (n : ℕ) : blocks next (n + 1) = blocks next n ++ block next (n + 1) := by
  simp [blocks, List.range_succ]

theorem blocks_prefix {m n : ℕ} (h : m ≤ n) : blocks next m <+: blocks next n := by
  induction h with
  | refl => exact List.prefix_rfl
  | step _ ih =>
      rw [blocks_succ]
      exact ih.trans (List.prefix_append _ _)

variable {next} {h : ℕ} (hsize : ∀ i b, (next i b).length = h)
include hsize

theorem block_length (i : ℕ) : (block next (i + 1)).length = h := hsize _ _

theorem blocks_length (n : ℕ) : (blocks next n).length = n * h := by
  induction n with
  | zero => simp
  | succ n ih => rw [blocks_succ, List.length_append, ih, block_length hsize, Nat.succ_mul]

/-- Any number of blocks that is large enough will do. -/
theorem expand_eq_take (hpos : 0 < h) {n len : ℕ} (hlen : len ≤ n * h) :
    expand next h len = (blocks next n).take len := by
  have hfits : len ≤ (len / h + 1) * h := by
    rw [Nat.succ_mul, Nat.mul_comm]
    have hmod := Nat.mod_lt len hpos
    have hdiv := Nat.div_add_mod len h
    omega
  have htake : ∀ {m n : ℕ}, m ≤ n → len ≤ m * h → (blocks next m).take len = (blocks next n).take len := by
    intro m n hle hroom
    rcases blocks_prefix next hle with ⟨t, ht⟩
    rw [← ht, List.take_append_of_le_length (by rwa [blocks_length hsize])]
  rw [expand]
  rcases Nat.le_total (len / h + 1) n with hle | hle
  · exact htake hle hfits
  · exact (htake hle hlen).symm

theorem expand_mul (hpos : 0 < h) (n : ℕ) : expand next h (n * h) = blocks next n := by
  rw [expand_eq_take hsize hpos (Nat.le_refl _)]
  exact List.take_of_length_le (Nat.le_of_eq (blocks_length hsize n))

theorem expand_length (hpos : 0 < h) (len : ℕ) : (expand next h len).length = len := by
  have hfits : len ≤ len * h := Nat.le_mul_of_pos_right len hpos
  rw [expand_eq_take hsize hpos hfits, List.length_take, blocks_length hsize, Nat.min_eq_left hfits]

/-- A shorter output is the beginning of a longer one. -/
theorem expand_prefix (hpos : 0 < h) {m n : ℕ} (hle : m ≤ n) : expand next h m <+: expand next h n := by
  have hfits : n ≤ n * h := Nat.le_mul_of_pos_right n hpos
  rw [expand_eq_take hsize hpos hfits, expand_eq_take hsize hpos (Nat.le_trans hle hfits)]
  exact List.take_prefix_take_left hle

/-- The part of a block that is still wanted completes the output. -/
theorem expand_take (hpos : 0 < h) {n len : ℕ} (hle : n * h ≤ len) (hfits : len ≤ (n + 1) * h) :
    blocks next n ++ (block next (n + 1)).take (len - n * h) = expand next h len := by
  have hwhole : (blocks next n).take len = blocks next n :=
    List.take_of_length_le (by rwa [blocks_length hsize])
  rw [expand_eq_take hsize hpos hfits, blocks_succ, List.take_append, blocks_length hsize, hwhole]

end Chained
end Lib
end SsrNative
