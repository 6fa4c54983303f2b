import Mathlib.Data.List.Basic
import Mathlib.Tactic.Common

/-!
# Memory — arrays of a fixed size

`load` and `store` read and write a part of an array; there is no result when the part is not inside.
`realloc` makes an array of another size, and what stands behind the old contents is not known.
-/

namespace SsrNative
namespace Lib
namespace Memory

variable {α : Type*}

def load (mem : List α) (off n : ℕ) : Option (List α) :=
  if off + n ≤ mem.length then some ((mem.drop off).take n) else none

def store (mem : List α) (off : ℕ) (b : List α) : Option (List α) :=
  if off + b.length ≤ mem.length then some (mem.take off ++ b ++ mem.drop (off + b.length)) else none

/-- `junk` is what is found in the cells that the old array does not have. -/
def realloc (junk : ℕ → α) (mem : List α) (n : ℕ) : List α :=
  mem.take n ++ (List.range (n - mem.length)).map fun i => junk (mem.length + i)

/-! ## Fields -/

variable {mem a x w b l : List α} {off n : ℕ}

theorem load_field (ha : a.length = off) (hlen : b.length = n) : load (a ++ (b ++ l)) off n = some b := by
  have hroom : off + n ≤ (a ++ (b ++ l)).length := by
    rw [List.length_append, List.length_append, ha, hlen]
    omega
  rw [load, if_pos hroom, ← ha, List.drop_left, ← hlen, List.take_left]

theorem load_front (h : n ≤ a.length) : load (a ++ l) 0 n = some (a.take n) := by
  have hroom : 0 + n ≤ (a ++ l).length := by
    rw [List.length_append]
    omega
  rw [load, if_pos hroom, List.drop_zero, List.take_append_of_le_length h]

/-- A field is written over as many cells. -/
theorem store_field (ha : a.length = off) (hlen : x.length = w.length) :
    store (a ++ (x ++ l)) off w = some (a ++ (w ++ l)) := by
  have hroom : off + w.length ≤ (a ++ (x ++ l)).length := by
    rw [List.length_append, List.length_append, ha, hlen]
    omega
  have hdrop : (a ++ (x ++ l)).drop (off + w.length) = l := by
    rw [← ha, ← hlen, ← List.length_append, ← List.append_assoc, List.drop_left]
  rw [store, if_pos hroom, hdrop, ← ha, List.take_left, List.append_assoc]

/-- The last field. -/
theorem store_last (ha : a.length = off) (hlen : x.length = w.length) :
    store (a ++ x) off w = some (a ++ w) := by
  have hfield := store_field (l := []) ha hlen
  rwa [List.append_nil, List.append_nil] at hfield

/-- A field is moved back by `n` cells, into what stands behind it. -/
theorem store_moved_back (a b : List α) (hn : n ≤ l.length) :
    ∃ room, room.length = n ∧ store (a ++ (b ++ l)) (a.length + n) b = some (a ++ (room ++ (b ++ l.drop n))) := by
  have hlen : n ≤ (b ++ l).length := by
    rw [List.length_append]
    omega
  have hroom : a.length + n + b.length ≤ (a ++ (b ++ l)).length := by
    rw [List.length_append, List.length_append]
    omega
  have hfront : (a ++ (b ++ l)).take (a.length + n) = a ++ (b ++ l).take n := List.take_length_add_append n
  have hrest : (a ++ (b ++ l)).drop (a.length + n + b.length) = l.drop n := by
    rw [Nat.add_assoc, Nat.add_comm n, List.drop_length_add_append, List.drop_length_add_append]
  refine ⟨(b ++ l).take n, List.length_take_of_le hlen, ?_⟩
  rw [store, if_pos hroom, hfront, hrest, List.append_assoc, List.append_assoc]

theorem store_length (h : store mem off b = some a) : a.length = mem.length := by
  rw [store] at h
  split_ifs at h with hroom
  rw [← Option.some.inj h, List.length_append, List.length_append, List.length_take, List.length_drop]
  omega

theorem store_nil (h : store mem off [] = some a) : a = mem := by
  rw [store] at h
  split_ifs at h with hroom
  rw [← Option.some.inj h, List.append_nil, List.length_nil, Nat.add_zero, List.take_append_drop]

theorem load_length (h : load mem off n = some b) : b.length = n := by
  rw [load] at h
  split_ifs at h with hroom
  rw [← Option.some.inj h, List.length_take, List.length_drop]
  omega

/-- What is read apart from the cells that were written. -/
theorem load_of_store_apart (h : store mem off b = some a) {k : ℕ} (hapart : k + n ≤ off ∨ off + b.length ≤ k) :
    load a k n = load mem k n := by
  have hlen := store_length h
  rw [store] at h
  split_ifs at h with hroom
  have hmem : a = mem.take off ++ b ++ mem.drop (off + b.length) := (Option.some.inj h).symm
  rw [load, load, hlen]
  by_cases hin : k + n ≤ mem.length
  · rw [if_pos hin, if_pos hin, Option.some.injEq]
    -- cell by cell, on either side of what was written
    apply List.ext_getElem?
    intro i
    by_cases hi : i < n
    · rw [List.getElem?_take_of_lt hi, List.getElem?_take_of_lt hi, List.getElem?_drop, List.getElem?_drop, hmem]
      rcases hapart with hfront | hbehind
      · have hlt : k + i < (mem.take off).length := by
          rw [List.length_take]
          omega
        have hoff : k + i < off := by omega
        rw [List.append_assoc, List.getElem?_append_left hlt, List.getElem?_take_of_lt hoff]
      · have hwritten : (mem.take off ++ b).length = off + b.length := by
          rw [List.length_append, List.length_take]
          omega
        have hle : (mem.take off ++ b).length ≤ k + i := by omega
        rw [List.getElem?_append_right hle, List.getElem?_drop, hwritten]
        congr 1
        omega
    · rw [List.getElem?_eq_none (by rw [List.length_take]; omega),
        List.getElem?_eq_none (by rw [List.length_take]; omega)]
  · rw [if_neg hin, if_neg hin]

/-! ## Reallocation -/

@[simp] theorem realloc_length (junk : ℕ → α) (mem : List α) (n : ℕ) : (realloc junk mem n).length = n := by
  rw [realloc, List.length_append, List.length_take, List.length_map, List.length_range]
  omega

/-- An array that is enlarged keeps its contents. -/
theorem realloc_of_le (junk : ℕ → α) (h : mem.length ≤ n) :
    ∃ rest : List α, realloc junk mem n = mem ++ rest ∧ rest.length = n - mem.length := by
  refine ⟨(List.range (n - mem.length)).map fun i => junk (mem.length + i), ?_, by simp⟩
  rw [realloc, List.take_of_length_le h]

/-- The contents in front of the new end stay. -/
theorem realloc_take (junk : ℕ → α) {k : ℕ} (hk : k ≤ n) (hmem : k ≤ mem.length) :
    (realloc junk mem n).take k = mem.take k := by
  have hroom : k ≤ (mem.take n).length := by
    rw [List.length_take]
    omega
  rw [realloc, List.take_append_of_le_length hroom, List.take_take, Nat.min_eq_left hk]

end Memory
end Lib
end SsrNative
