import SsrNative.Lib.Memory

/-!
# Blocks — blocks of memory that are allocated and given back

A heap is the list of all blocks that were ever allocated.  A block that was given back has no contents any
more, and its number is never used again, so that a pointer into it cannot reach another block.
-/

namespace SsrNative
namespace Lib
namespace Blocks

variable {α : Type*}

structure Heap (α : Type*) where
  blocks : List (Option (List α))

namespace Heap

def empty : Heap α := ⟨[]⟩

/-- The contents of a block. -/
def get (h : Heap α) (b : ℕ) : Option (List α) := (h.blocks[b]?).join

/-- The number that the next block gets. -/
def fresh (h : Heap α) : ℕ := h.blocks.length

def alloc (h : Heap α) (mem : List α) : Heap α := ⟨h.blocks ++ [some mem]⟩

def free (h : Heap α) (b : ℕ) : Heap α := ⟨h.blocks.set b none⟩

def put (h : Heap α) (b : ℕ) (mem : List α) : Heap α := ⟨h.blocks.set b (some mem)⟩

def read (h : Heap α) (b off n : ℕ) : Option (List α) := (h.get b).bind fun mem => Memory.load mem off n

def write (h : Heap α) (b off : ℕ) (cells : List α) : Option (Heap α) :=
  ((h.get b).bind fun mem => Memory.store mem off cells).map (h.put b)

/-! ## Contents -/

variable {h : Heap α} {b b' : ℕ} {mem mem' : List α}

theorem get_eq_some_iff : h.get b = some mem ↔ h.blocks[b]? = some (some mem) := by
  simp [get, Option.join_eq_some_iff]

theorem lt_fresh_of_get (hget : h.get b = some mem) : b < h.fresh := by
  rw [get_eq_some_iff] at hget
  exact (List.getElem?_eq_some_iff.1 hget).1

@[simp] theorem fresh_free (h : Heap α) (b : ℕ) : (h.free b).fresh = h.fresh := List.length_set

theorem get_alloc_fresh (h : Heap α) (mem : List α) : (h.alloc mem).get h.fresh = some mem := by
  rw [get_eq_some_iff]
  exact List.getElem?_concat_length

/-- The other blocks are not changed. -/
theorem get_alloc_of_lt (hlt : b < h.fresh) : (h.alloc mem).get b = h.get b := by
  rw [get, alloc, List.getElem?_append_left hlt, get]

theorem get_alloc_of_some (hget : h.get b = some mem') : (h.alloc mem).get b = some mem' :=
  (get_alloc_of_lt (lt_fresh_of_get hget)).trans hget

theorem get_free_ne (hne : b' ≠ b) : (h.free b).get b' = h.get b' := by
  rw [get, free, List.getElem?_set_ne hne.symm, get]

theorem get_free_self (h : Heap α) (b : ℕ) : (h.free b).get b = none := by
  rw [get, free, List.getElem?_set_self']
  cases h.blocks[b]? <;> rfl

theorem get_put_self (hget : h.get b = some mem') : (h.put b mem).get b = some mem := by
  rw [get_eq_some_iff]
  exact List.getElem?_set_self (lt_fresh_of_get hget)

theorem get_put_ne (hne : b' ≠ b) : (h.put b mem).get b' = h.get b' := by
  rw [get, put, List.getElem?_set_ne hne.symm, get]

/-! ## Access -/

theorem read_of_get (hget : h.get b = some mem) (off n : ℕ) : h.read b off n = Memory.load mem off n := by
  rw [read, hget, Option.bind_some]

theorem read_of_get_none (hget : h.get b = none) (off n : ℕ) : h.read b off n = none := by
  rw [read, hget, Option.bind_none]

theorem write_of_get (hget : h.get b = some mem) {off : ℕ} {cells : List α}
    (hstore : Memory.store mem off cells = some mem') : h.write b off cells = some (h.put b mem') := by
  rw [write, hget, Option.bind_some, hstore, Option.map_some]

theorem write_eq_some {h' : Heap α} {off : ℕ} {cells : List α} (hwrite : h.write b off cells = some h') :
    ∃ mem', h' = h.put b mem' := by
  rcases Option.map_eq_some_iff.1 hwrite with ⟨mem', _, heq⟩
  exact ⟨mem', heq.symm⟩

/-- A block that was given back does not come back. -/
theorem get_of_write_eq_none {h' : Heap α} {off : ℕ} {cells : List α} (hget : h.get b' = none)
    (hwrite : h.write b off cells = some h') : h'.get b' = none := by
  rcases Option.map_eq_some_iff.1 hwrite with ⟨mem', hstored, rfl⟩
  by_cases heq : b' = b
  · rw [← heq, hget] at hstored
    exact absurd hstored.symm (Option.some_ne_none mem')
  · exact (get_put_ne heq).trans hget

end Heap

end Blocks
end Lib
end SsrNative
