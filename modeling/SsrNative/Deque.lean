import Mathlib.Data.List.Basic
import Mathlib.Tactic.Common

/-!
# Deque — the queue of cstl

`struct cstl_deque` keeps its elements between `head` and `tail` of an array.  The client's UDP
tunnels put datagrams in at the back and take them out at the front, so `head` and `tail` only move
to the right, and the array doubles when `tail` has come to its end.  A `Deque` carries the bounds of
the two indices with it; what it holds is `toList`.
-/

namespace SsrNative

universe u

variable {α : Type u}

/-- `struct cstl_deque`; `elements` is the whole array, and its length the capacity. -/
structure Deque (α : Type u) where
  elements : List (Option α)
  count : ℕ
  head : ℕ
  tail : ℕ
  tail_eq : tail = head + 1 + count
  tail_le : tail ≤ elements.length
  filled : ∀ i, head < i → i < tail → ∃ x, elements[i]? = some (some x)

namespace Deque

/-- `cstl_deque_new`. -/
def new (deqSize : ℕ) : Deque α where
  elements := List.replicate (if deqSize < 8 then 8 else deqSize) none
  count := 0
  head := (if deqSize < 8 then 8 else deqSize) / 2
  tail := (if deqSize < 8 then 8 else deqSize) / 2 + 1
  tail_eq := rfl
  tail_le := by
    rw [List.length_replicate]
    split <;> omega
  filled i h h' := by omega

/-- `cstl_deque_grow`, when `tail` has reached the capacity. -/
def grow (d : Deque α) : Deque α where
  elements :=
    if d.tail = d.elements.length then
      d.elements ++ List.replicate d.elements.length none
    else d.elements
  count := d.count
  head := d.head
  tail := d.tail
  tail_eq := d.tail_eq
  tail_le := by
    have hle := d.tail_le
    split
    · rw [List.length_append]
      omega
    · exact hle
  filled i h h' := by
    obtain ⟨x, hx⟩ := d.filled i h h'
    refine ⟨x, ?_⟩
    split
    · rw [List.getElem?_append_left (Nat.lt_of_lt_of_le h' d.tail_le)]
      exact hx
    · exact hx

/-- There is room at `tail` now. -/
theorem grow_room (d : Deque α) : d.tail < d.grow.elements.length := by
  have hle := d.tail_le
  have htail := d.tail_eq
  unfold grow
  dsimp only
  split
  · rw [List.length_append, List.length_replicate]
    omega
  · omega

/-- `cstl_deque_push_back`. -/
def pushBack (d : Deque α) (elem : α) : Deque α where
  elements := d.grow.elements.set d.tail (some elem)
  count := d.count + 1
  head := d.head
  tail := d.tail + 1
  tail_eq := by
    have htail := d.tail_eq
    omega
  tail_le := by
    rw [List.length_set]
    exact d.grow_room
  filled i h h' := by
    by_cases hi : i = d.tail
    · subst hi
      exact ⟨elem, List.getElem?_set_self d.grow_room⟩
    · rw [List.getElem?_set_ne (Ne.symm hi)]
      exact d.grow.filled i h (by change i < d.tail; omega)

/-- `cstl_deque_element_at`. -/
def elementAt (d : Deque α) (index : ℕ) : Option α :=
  if d.count ≤ index then none else (d.elements[d.head + 1 + index]?).join

/-- `cstl_deque_front`. -/
def front (d : Deque α) : Option α := d.elementAt 0

/-- `cstl_deque_pop_front`; the callers have seen an element at the front. -/
def popFront (d : Deque α) : Deque α where
  elements := if d.count = 0 then d.elements else d.elements.set (d.head + 1) none
  count := d.count - 1
  head := if d.count = 0 then d.head else d.head + 1
  tail := d.tail
  tail_eq := by
    have htail := d.tail_eq
    split <;> omega
  tail_le := by
    have hle := d.tail_le
    split
    · exact hle
    · rw [List.length_set]
      exact hle
  filled i h h' := by
    by_cases hc : d.count = 0
    · rw [if_pos hc] at h ⊢
      exact d.filled i h h'
    · rw [if_neg hc] at h ⊢
      rw [List.getElem?_set_ne (by omega)]
      exact d.filled i (by omega) h'

/-! ## What it holds -/

/-- The elements from front to back. -/
def toList (d : Deque α) : List α := (List.range d.count).filterMap d.elementAt

theorem elementAt_eq_some (d : Deque α) {i : ℕ} (h : i < d.count) : ∃ x, d.elementAt i = some x := by
  have htail := d.tail_eq
  obtain ⟨x, hx⟩ := d.filled (d.head + 1 + i) (by omega) (by omega)
  refine ⟨x, ?_⟩
  rw [elementAt, if_neg (by omega), hx]
  rfl

@[simp] theorem toList_new (n : ℕ) : (new n : Deque α).toList = [] := rfl

theorem elementAt_pushBack_of_lt (d : Deque α) (elem : α) {i : ℕ} (h : i < d.count) :
    (d.pushBack elem).elementAt i = d.elementAt i := by
  have htail := d.tail_eq
  have hle := d.tail_le
  have hgrow : d.grow.elements[d.head + 1 + i]? = d.elements[d.head + 1 + i]? := by
    unfold grow
    dsimp only
    split
    · exact List.getElem?_append_left (by omega)
    · rfl
  have hset : (d.pushBack elem).elements[d.head + 1 + i]? = d.elements[d.head + 1 + i]? := by
    rw [← hgrow]
    exact List.getElem?_set_ne (by omega)
  have hcount : (d.pushBack elem).count = d.count + 1 := rfl
  rw [elementAt, elementAt, if_neg (by omega), if_neg (by omega)]
  exact congrArg Option.join hset

theorem elementAt_pushBack_last (d : Deque α) (elem : α) :
    (d.pushBack elem).elementAt d.count = some elem := by
  have hset : (d.pushBack elem).elements[d.head + 1 + d.count]? = some (some elem) := by
    rw [← d.tail_eq]
    exact List.getElem?_set_self d.grow_room
  have hcount : (d.pushBack elem).count = d.count + 1 := rfl
  rw [elementAt, if_neg (by omega)]
  exact congrArg Option.join hset

/-- First in, last in the list. -/
@[simp] theorem toList_pushBack (d : Deque α) (elem : α) :
    (d.pushBack elem).toList = d.toList ++ [elem] := by
  have hcount : (d.pushBack elem).count = d.count + 1 := rfl
  rw [toList, hcount, List.range_succ, List.filterMap_append, toList]
  congr 1
  · apply List.filterMap_congr
    intro i hi
    exact d.elementAt_pushBack_of_lt elem (List.mem_range.1 hi)
  · rw [List.filterMap_cons, d.elementAt_pushBack_last elem, List.filterMap_nil]

theorem elementAt_popFront (d : Deque α) {i : ℕ} (h : i + 1 < d.count) :
    d.popFront.elementAt i = d.elementAt (i + 1) := by
  have hc : ¬ d.count = 0 := by omega
  have hhead : d.popFront.head = d.head + 1 := if_neg hc
  have helem : d.popFront.elements = d.elements.set (d.head + 1) none := if_neg hc
  have hcount : d.popFront.count = d.count - 1 := rfl
  rw [elementAt, elementAt, if_neg (by omega), if_neg (by omega), hhead, helem,
    List.getElem?_set_ne (by omega)]
  congr 2
  omega

theorem toList_cons (d : Deque α) {x : α} (h : d.front = some x) :
    d.toList = x :: d.popFront.toList := by
  have hpos : 0 < d.count := by
    by_contra hc
    rw [front, elementAt, if_pos (by omega)] at h
    cases h
  obtain ⟨n, hn⟩ : ∃ n, d.count = n + 1 := ⟨d.count - 1, by omega⟩
  have hcount : d.popFront.count = n := by
    change d.count - 1 = n
    omega
  have hzero : d.elementAt 0 = some x := h
  rw [toList, hn, List.range_succ_eq_map, List.filterMap_cons_some hzero, List.filterMap_map, toList,
    hcount]
  congr 1
  apply List.filterMap_congr
  intro i hi
  have hi' := List.mem_range.1 hi
  exact (d.elementAt_popFront (by omega)).symm

theorem front_eq_none_iff (d : Deque α) : d.front = none ↔ d.toList = [] := by
  constructor
  · intro h
    have hc : d.count = 0 := by
      by_contra hc
      obtain ⟨x, hx⟩ := d.elementAt_eq_some (Nat.pos_of_ne_zero hc)
      rw [front, hx] at h
      cases h
    rw [toList, hc, List.range_zero, List.filterMap_nil]
  · intro h
    cases hf : d.front with
    | none => rfl
    | some x =>
        rw [d.toList_cons hf] at h
        cases h

/-- The front is the head of the list, and a pop takes it away. -/
theorem front_eq (d : Deque α) : d.front = d.toList.head? := by
  cases hf : d.front with
  | none => rw [(d.front_eq_none_iff).1 hf, List.head?_nil]
  | some x => rw [d.toList_cons hf, List.head?_cons]

theorem toList_popFront (d : Deque α) (h : d.front ≠ none) : d.popFront.toList = d.toList.tail := by
  cases hf : d.front with
  | none => exact absurd hf h
  | some x => rw [d.toList_cons hf, List.tail_cons]

theorem length_toList (d : Deque α) : d.toList.length = d.count := by
  generalize hn : d.count = n
  induction n generalizing d with
  | zero => rw [toList, hn, List.range_zero, List.filterMap_nil, List.length_nil]
  | succ n ih =>
      obtain ⟨x, hx⟩ := d.elementAt_eq_some (i := 0) (by omega)
      rw [d.toList_cons hx, List.length_cons, ih d.popFront]
      change d.count - 1 = n
      omega

end Deque

end SsrNative
