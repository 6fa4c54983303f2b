import SsrNative.Bytes
import SsrNative.Lib.Demand

/-!
# SsrBuffer — buffers with their capacity

`struct buffer_t` of `ssrbuffer.c` with everything that is allocated.  What stands behind the first `len`
bytes is left over from earlier contents, unless it was erased, and what stands behind the capacity belongs
to somebody else.
-/

namespace SsrNative

open Bytes
open Lib.Demand
open Lib.Demand.Demanding

/-! ## Memory -/

/-- Bytes written into memory. -/
def writeAt (mem : Bytes) (off : ℕ) (b : Bytes) : Bytes := mem.take off ++ b ++ mem.drop (off + b.length)

/-- A field is written over as many bytes. -/
theorem writeAt_field {a old new l : Bytes} {off : ℕ} (ha : a.length = off) (hlen : old.length = new.length) :
    writeAt (a ++ (old ++ l)) off new = a ++ (new ++ l) := by
  have hdrop : (a ++ (old ++ l)).drop (off + new.length) = l := by
    rw [← ha, ← hlen, ← List.length_append, ← List.append_assoc, List.drop_left]
  rw [writeAt, hdrop, ← ha, List.take_left, List.append_assoc]

/-- The last field. -/
theorem writeAt_last {a : Bytes} {off : ℕ} (ha : a.length = off) {old new : Bytes}
    (hlen : old.length = new.length) : writeAt (a ++ old) off new = a ++ new := by
  have hfield := writeAt_field (l := []) ha hlen
  rwa [List.append_nil, List.append_nil] at hfield

section Region

variable {r : Region UInt8}

theorem get_eq_byteAt {i : ℕ} (h : i < r.cells.length) : r.get i = byteAt r.cells i := by
  rw [Region.get_of_lt h, byteAt, List.getD_eq_getElem?_getD, List.getElem?_eq_getElem h, Option.getD_some]

theorem slice_eq_window {off n : ℕ} (h : off + n ≤ r.cells.length) : r.slice off n = window r.cells off n := by
  rw [Region.slice_of_le h, window_eq_take h]

end Region

/-! ## Storage that was erased -/

/-- Bytes with zeros behind them. -/
def zeroFilled (l : Bytes) : Region UInt8 := ⟨l, fun _ => 0⟩

@[simp] theorem zeroFilled_cells (l : Bytes) : (zeroFilled l).cells = l := rfl

@[simp] theorem zeroFilled_get (l : Bytes) (i : ℕ) : (zeroFilled l).get i = byteAt l i := rfl

@[simp] theorem zeroFilled_slice (l : Bytes) (off n : ℕ) : (zeroFilled l).slice off n = window l off n := rfl

theorem zeroFilled_read {l : Bytes} {i : ℕ} (h : i < l.length) : ((zeroFilled l).read i).Yields (byteAt l i) :=
  ⟨(Region.met_read _ _).2 h, rfl⟩

theorem zeroFilled_readSlice {l : Bytes} (off : ℕ) {n : ℕ} (h : off + n ≤ l.length) :
    ((zeroFilled l).readSlice off n).Yields (window l off n) :=
  ⟨(Region.met_readSlice _ _ _).2 h, rfl⟩

/-- Behind what was cut off. -/
theorem byteAt_drop (l : Bytes) (n i : ℕ) : byteAt (l.drop n) i = byteAt l (n + i) := by
  simp [byteAt, List.getD_eq_getElem?_getD]

theorem window_drop (l : Bytes) (n off size : ℕ) : window (l.drop n) off size = window l (n + off) size := by
  simp [window, byteAt_drop, Nat.add_assoc]

theorem rdBe16_window (l : Bytes) (i : ℕ) : rdBe16 (window l i 2) 0 = rdBe16 l i := rfl

/-- A difference of two `size_t` values. -/
def subtract (a b : ℕ) : Demanding ℕ := do
  demand b a
  return subSize a b

@[simp] theorem value_subtract (a b : ℕ) : (subtract a b).value = subSize a b := rfl

@[simp] theorem met_subtract (a b : ℕ) : (subtract a b).Met ↔ b ≤ a := by
  simp [subtract]

theorem subtract_yields {a b : ℕ} (h : b ≤ a) : (subtract a b).Yields (a - b) :=
  ⟨(met_subtract a b).2 h, subSize_of_le h⟩

/-- `buffer_shortened_to(ptr, n, len(ptr) - n, true)`: the first `n` bytes are cut off. -/
def cut (l : Bytes) (n : ℕ) : Demanding Bytes := do
  let rest ← subtract l.length n
  return shortenedTo l n rest

@[simp] theorem value_cut (l : Bytes) (n : ℕ) : (cut l n).value = shortenedTo l n (subSize l.length n) := rfl

@[simp] theorem met_cut (l : Bytes) (n : ℕ) : (cut l n).Met ↔ n ≤ l.length := by
  simp [cut]

theorem cut_yields {l : Bytes} {n : ℕ} (h : n ≤ l.length) : (cut l n).Yields (l.drop n) :=
  ⟨(met_cut l n).2 h, shortenedTo_drop h⟩

theorem zeroFilled_readSlice_drop {l : Bytes} (n off : ℕ) {k : ℕ} (h : n + off + k ≤ l.length) :
    ((zeroFilled (l.drop n)).readSlice off k).Yields (window l (n + off) k) := by
  rw [← window_drop]
  refine zeroFilled_readSlice off ?_
  rw [List.length_drop]
  omega

theorem cut_drop_yields {l : Bytes} (n m : ℕ) (h : n + m ≤ l.length) :
    (cut (l.drop n) m).Yields (l.drop (n + m)) := by
  rw [← List.drop_drop]
  refine cut_yields ?_
  rw [List.length_drop]
  exact Nat.le_sub_of_add_le' h

/-! ## Buffers -/

/-- `struct buffer_t`: the bytes up to `len`, and the spare ones up to `capacity`. -/
structure BufferT where
  bytes : Bytes
  spare : Bytes

namespace BufferT

def len (ptr : BufferT) : ℕ := ptr.bytes.length

def capacity (ptr : BufferT) : ℕ := ptr.bytes.length + ptr.spare.length

/-- `ptr->buffer`. -/
def buffer (ptr : BufferT) : Bytes := ptr.bytes ++ ptr.spare

/-- A buffer of which the first `len` bytes are in use. -/
def ofBuffer (buffer : Bytes) (len : ℕ) : BufferT := ⟨buffer.take len, buffer.drop len⟩

/-- What can be read from `ptr->buffer` on, with what stands behind the capacity. -/
def region (ptr : BufferT) (behind : ℕ → UInt8) : Region UInt8 where
  cells := ptr.bytes
  beyond := fun i => ptr.spare.getD i (behind (i - ptr.spare.length))

/-- `buffer_shortened_to(ptr, begin, len, true)`. -/
def shortenedTo (ptr : BufferT) (begin len : ℕ) : BufferT :=
  if begin ≤ ptr.len ∧ len ≤ ptr.len - begin then
    let buffer := if begin ≠ 0 then writeAt ptr.buffer 0 (window ptr.buffer begin len) else ptr.buffer
    let buffer :=
      if len < ptr.capacity then writeAt buffer len (List.replicate (ptr.capacity - len) 0) else buffer
    ofBuffer buffer len
  else ptr

/-- `buffer_concatenate_raw(ptr, ptr->buffer + off, size)`.  `none` when `buffer_realloc` has to enlarge the
buffer: then `memmove` reads from memory that was given back. -/
def concatenateOwn (ptr : BufferT) (off size : ℕ) : Option BufferT :=
  if ptr.capacity < ptr.len + size then none
  else some (ofBuffer (writeAt ptr.buffer ptr.len (window ptr.buffer off size)) (ptr.len + size))

@[simp] theorem buffer_length (ptr : BufferT) : ptr.buffer.length = ptr.capacity := by
  simp [buffer, capacity]

theorem len_le_capacity (ptr : BufferT) : ptr.len ≤ ptr.capacity := Nat.le_add_right _ _

theorem take_len_buffer (ptr : BufferT) : ptr.buffer.take ptr.len = ptr.bytes := List.take_left

/-- A part of the bytes stays, and zeros take the place of all others. -/
theorem shortenedTo_eq {ptr : BufferT} {begin len : ℕ} (h : begin + len ≤ ptr.len) :
    ptr.shortenedTo begin len =
      ⟨(ptr.bytes.drop begin).take len, List.replicate (ptr.capacity - len) 0⟩ := by
  have hcap : len ≤ ptr.capacity := Nat.le_trans (Nat.le_trans (Nat.le_add_left len begin) h) ptr.len_le_capacity
  have hguard : begin ≤ ptr.len ∧ len ≤ ptr.len - begin :=
    ⟨Nat.le_trans (Nat.le_add_right begin len) h, Nat.le_sub_of_add_le' h⟩
  have hwin : window ptr.buffer begin len = (ptr.bytes.drop begin).take len := by
    rw [buffer, window_append_left h, window_eq_take h]
  have hlen : (window ptr.buffer begin len).length = len := window_length _ _ _
  have hrest : (ptr.buffer.drop len).length = (List.replicate (ptr.capacity - len) (0 : UInt8)).length := by
    rw [List.length_drop, buffer_length, List.length_replicate]
  -- the bytes are moved to the front, also when they are there already
  have hmoved : (if begin ≠ 0 then writeAt ptr.buffer 0 (window ptr.buffer begin len) else ptr.buffer) =
      window ptr.buffer begin len ++ ptr.buffer.drop len := by
    by_cases hbegin : begin = 0
    · subst hbegin
      have hfront : window ptr.buffer 0 len = ptr.buffer.take len := by
        rw [window_eq_take (by rw [buffer_length, Nat.zero_add]; exact hcap), List.drop_zero]
      rw [if_neg (not_not.2 rfl), hfront, List.take_append_drop]
    · rw [if_pos hbegin, writeAt, hlen, List.take_zero, List.nil_append, Nat.zero_add]
  have herased : (if len < ptr.capacity then
        writeAt (window ptr.buffer begin len ++ ptr.buffer.drop len) len (List.replicate (ptr.capacity - len) 0)
      else window ptr.buffer begin len ++ ptr.buffer.drop len) =
      window ptr.buffer begin len ++ List.replicate (ptr.capacity - len) 0 := by
    by_cases hroom : len < ptr.capacity
    · rw [if_pos hroom, writeAt_last hlen hrest]
    · have hfull : ptr.capacity - len = 0 := Nat.sub_eq_zero_of_le (Nat.not_lt.1 hroom)
      have hnil : ptr.buffer.drop len = [] := by
        rw [List.drop_eq_nil_iff, buffer_length]
        exact Nat.not_lt.1 hroom
      rw [if_neg hroom, hfull, hnil, List.replicate_zero]
  rw [shortenedTo, if_pos hguard]
  dsimp only
  rw [hmoved, herased, hwin, ofBuffer]
  rw [hwin] at hlen
  rw [List.take_left' hlen, List.drop_left' hlen]

theorem shortenedTo_refused {ptr : BufferT} {begin len : ℕ} (h : ¬ (begin ≤ ptr.len ∧ len ≤ ptr.len - begin)) :
    ptr.shortenedTo begin len = ptr := if_neg h

/-- The bytes are those of the buffer without a capacity. -/
theorem bytes_shortenedTo (ptr : BufferT) (begin len : ℕ) :
    (ptr.shortenedTo begin len).bytes = Bytes.shortenedTo ptr.bytes begin len := by
  by_cases h : begin ≤ ptr.len ∧ len ≤ ptr.len - begin
  · have hsum : begin + len ≤ ptr.len := by
      rw [Nat.add_comm]
      exact (Nat.le_sub_iff_add_le h.1).1 h.2
    rw [shortenedTo_eq hsum, shortenedTo_inside hsum]
  · rw [shortenedTo_refused h]
    exact (if_neg h).symm

/-- Bytes of the buffer itself are put behind the others. -/
theorem concatenateOwn_eq {ptr : BufferT} {off size : ℕ} (h : ptr.len + size ≤ ptr.capacity) :
    ptr.concatenateOwn off size =
      some ⟨ptr.bytes ++ window ptr.buffer off size, ptr.spare.drop size⟩ := by
  have hcat : writeAt ptr.buffer ptr.len (window ptr.buffer off size) =
      (ptr.bytes ++ window ptr.buffer off size) ++ ptr.spare.drop size := by
    rw [writeAt, take_len_buffer, window_length, buffer, len, List.drop_append]
    have hnil : ptr.bytes.drop (ptr.bytes.length + size) = [] :=
      List.drop_eq_nil_iff.2 (Nat.le_add_right _ _)
    rw [hnil, List.nil_append, Nat.add_sub_cancel_left]
  have hlen : (ptr.bytes ++ window ptr.buffer off size).length = ptr.len + size := by
    rw [List.length_append, window_length]
    rfl
  rw [concatenateOwn, if_neg (Nat.not_lt.2 h), hcat, ofBuffer, List.take_left' hlen, List.drop_left' hlen]

end BufferT

end SsrNative
