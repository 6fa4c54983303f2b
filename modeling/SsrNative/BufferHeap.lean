import SsrNative.SsrBuffer
import SsrNative.Lib.Blocks

/-!
# BufferHeap — buffers whose storage is allocated

The functions of `ssrbuffer.c` with the pointers that they work on.  `buffer_realloc` gives the old storage
back when a buffer grows, and `memmove` copies within one block as well as between two.  There is no result
when memory is touched that was given back or was never allocated, and when an assertion fails.

Allocation succeeds.  No object is larger than `PTRDIFF_MAX` bytes, so that a sum of two lengths is always a
`size_t`.
-/

namespace SsrNative

namespace BufferT

/-- The contents after `buffer_realloc`. -/
def enlarge (t : BufferT) (capacity : ℕ) : BufferT :=
  ⟨t.bytes, t.spare ++ List.replicate (capacity - t.capacity) 0⟩

@[simp] theorem enlarge_bytes (t : BufferT) (capacity : ℕ) : (t.enlarge capacity).bytes = t.bytes := rfl

theorem enlarge_buffer (t : BufferT) (capacity : ℕ) :
    (t.enlarge capacity).buffer = t.buffer ++ List.replicate (capacity - t.capacity) 0 :=
  (List.append_assoc _ _ _).symm

theorem enlarge_of_le {t : BufferT} {capacity : ℕ} (h : capacity ≤ t.capacity) : t.enlarge capacity = t := by
  rw [enlarge, Nat.sub_eq_zero_of_le h, List.replicate_zero, List.append_nil]

theorem le_enlarge_buffer (t : BufferT) (capacity : ℕ) : capacity ≤ (t.enlarge capacity).buffer.length := by
  rw [enlarge_buffer, List.length_append, List.length_replicate, buffer_length]
  omega

@[simp] theorem ofBuffer_buffer (mem : Bytes) (n : ℕ) : (ofBuffer mem n).buffer = mem := List.take_append_drop n mem

theorem ofBuffer_len {mem : Bytes} {n : ℕ} (h : n ≤ mem.length) : (ofBuffer mem n).len = n :=
  List.length_take_of_le h

/-- The contents after `buffer_set_lenth`. -/
def setLenth (t : BufferT) (length : ℕ) (eraseInvalid : Bool) : BufferT :=
  let shown := ofBuffer (t.enlarge length).buffer length
  if eraseInvalid then ⟨shown.bytes, List.replicate shown.spare.length 0⟩ else shown

/-- The contents after `buffer_store`. -/
def store (t : BufferT) (data : Bytes) : BufferT :=
  ⟨data, (t.enlarge data.length).buffer.drop data.length⟩

/-- The contents after `buffer_concatenate_raw`. -/
def concatenate (t : BufferT) (data : Bytes) : BufferT :=
  ⟨t.bytes ++ data, (t.enlarge (t.len + data.length)).spare.drop data.length⟩

/-- The contents after `buffer_insert_raw`. -/
def insert (t : BufferT) (pos : ℕ) (data : Bytes) : BufferT :=
  ⟨t.bytes.take pos ++ data ++ t.bytes.drop pos, (t.enlarge (t.len + data.length)).spare.drop data.length⟩

/-- The contents after `buffer_shortened_to`, when the part is inside. -/
def part (t : BufferT) (begin len : ℕ) (eraseInvalid : Bool) : BufferT :=
  ⟨(t.bytes.drop begin).take len,
    if eraseInvalid then List.replicate (t.capacity - len) 0 else t.buffer.drop len⟩

theorem le_enlarge_spare (t : BufferT) (n : ℕ) : n ≤ (t.enlarge (t.len + n)).spare.length := by
  have hroom := t.le_enlarge_buffer (t.len + n)
  rw [buffer, List.length_append] at hroom
  exact Nat.le_of_add_le_add_left hroom

/-- Bytes are written behind those in use. -/
theorem store_concatenate (t : BufferT) (data : Bytes) :
    Lib.Memory.store (t.enlarge (t.len + data.length)).buffer t.len data = some (t.concatenate data).buffer := by
  have hfield := Lib.Memory.store_field (a := t.bytes) (l := (t.enlarge (t.len + data.length)).spare.drop data.length)
    rfl (List.length_take_of_le (t.le_enlarge_spare data.length))
  rw [List.take_append_drop] at hfield
  exact hfield.trans (congrArg some (List.append_assoc _ _ _).symm)

/-- The bytes behind a place. -/
theorem load_tail {t : BufferT} {pos : ℕ} (h : pos ≤ t.len) (capacity : ℕ) :
    Lib.Memory.load (t.enlarge capacity).buffer pos (t.len - pos) = some (t.bytes.drop pos) := by
  have hsplit : (t.enlarge capacity).buffer =
      t.bytes.take pos ++ (t.bytes.drop pos ++ (t.enlarge capacity).spare) := by
    rw [← List.append_assoc, List.take_append_drop]
    rfl
  rw [hsplit]
  exact Lib.Memory.load_field (List.length_take_of_le h) List.length_drop

/-- The bytes behind the place of insertion are moved back, which makes room for `n` others. -/
theorem store_moved {t : BufferT} {pos : ℕ} (h : pos ≤ t.len) (n : ℕ) :
    ∃ room, room.length = n ∧
      Lib.Memory.store (t.enlarge (t.len + n)).buffer (pos + n) (t.bytes.drop pos) =
        some (t.bytes.take pos ++ (room ++ (t.bytes.drop pos ++ (t.enlarge (t.len + n)).spare.drop n))) := by
  have hmoved := Lib.Memory.store_moved_back (t.bytes.take pos) (t.bytes.drop pos) (t.le_enlarge_spare n)
  rwa [List.length_take_of_le h, ← List.append_assoc, List.take_append_drop] at hmoved

/-- The room is filled. -/
theorem store_insert {t : BufferT} {pos : ℕ} (h : pos ≤ t.len) {room data : Bytes} (hroom : room.length = data.length) :
    Lib.Memory.store
        (t.bytes.take pos ++ (room ++ (t.bytes.drop pos ++ (t.enlarge (t.len + data.length)).spare.drop data.length)))
        pos data = some (t.insert pos data).buffer := by
  rw [Lib.Memory.store_field (List.length_take_of_le h) hroom]
  simp only [insert, buffer, List.append_assoc]

theorem insert_len (t : BufferT) (pos : ℕ) (data : Bytes) : (t.insert pos data).len = t.len + data.length := by
  simp only [insert, len, List.length_append, List.length_take, List.length_drop]
  omega

/-- What is erased in the end is the buffer that `shortenedTo` describes. -/
theorem part_erased {t : BufferT} {begin len : ℕ} (h : begin + len ≤ t.len) :
    t.part begin len true = t.shortenedTo begin len := (shortenedTo_eq h).symm

theorem load_part {t : BufferT} {begin len : ℕ} (h : begin + len ≤ t.len) :
    Lib.Memory.load t.buffer begin len = some ((t.bytes.drop begin).take len) := by
  have hroom : begin + len ≤ t.buffer.length := Nat.le_trans h (t.len_le_capacity.trans_eq t.buffer_length.symm)
  have hbegin : begin ≤ t.bytes.length := Nat.le_trans (Nat.le_add_right _ _) h
  have hlen : len ≤ (t.bytes.drop begin).length := by
    rw [List.length_drop]
    exact Nat.le_sub_of_add_le' h
  rw [Lib.Memory.load, if_pos hroom, buffer, List.drop_append_of_le_length hbegin,
    List.take_append_of_le_length hlen]

theorem part_len {t : BufferT} {begin len : ℕ} (h : begin + len ≤ t.len) (eraseInvalid : Bool) :
    (t.part begin len eraseInvalid).len = len := by
  refine List.length_take_of_le ?_
  rw [List.length_drop]
  exact Nat.le_sub_of_add_le' h

theorem setLenth_erased_buffer (t : BufferT) (length : ℕ) :
    (t.setLenth length true).buffer =
      (t.enlarge length).buffer.take length ++
        List.replicate ((t.enlarge length).buffer.length - length) 0 := by
  rw [setLenth, if_pos rfl, buffer, ofBuffer, List.length_drop]

theorem setLenth_len (t : BufferT) (length : ℕ) (eraseInvalid : Bool) :
    (t.setLenth length eraseInvalid).len = length := by
  have hshown := ofBuffer_len (t.le_enlarge_buffer length)
  cases eraseInvalid
  · exact hshown
  · exact hshown

end BufferT

namespace BufferHeap

open Bytes
open Lib.Blocks
open Lib.Memory (load store)

/-- `struct buffer_t`.  `buffer` is the number of the block that `ptr->buffer` points to. -/
structure Buffer where
  len : ℕ
  capacity : ℕ
  buffer : ℕ
deriving DecidableEq, Repr

/-- `const uint8_t *data`: nothing, an array of the caller, or a place in an allocated block. -/
inductive Pointer where
  | null
  | array (l : Bytes)
  | block (b off : ℕ)

def Pointer.isNull : Pointer → Bool
  | .null => true
  | .array _ => false
  | .block _ _ => false

/-- The `n` bytes that a pointer points to. -/
def Pointer.read (heap : Heap UInt8) : Pointer → ℕ → Option Bytes
  | .null, n => if n = 0 then some [] else none
  | .array l, n => load l 0 n
  | .block b off, n => heap.read b off n

/-- What a function leaves behind.  The result is 0 for a function that has none. -/
structure Outcome where
  heap : Heap UInt8
  ptr : Buffer
  result : ℕ

/-- `memmove(block + off, data, n)`. -/
def memmove (heap : Heap UInt8) (b off : ℕ) (data : Pointer) (n : ℕ) : Option (Heap UInt8) :=
  (data.read heap n).bind fun cells => heap.write b off cells

/-- `memset(block + off, 0, n)`. -/
def memsetZero (heap : Heap UInt8) (b off n : ℕ) : Option (Heap UInt8) :=
  heap.write b off (List.replicate n 0)

/-- `mem_alloc_size_verify`. -/
def memAllocSizeVerify (expectedSize : ℕ) (heap : Heap UInt8) (b : ℕ) : Option Unit :=
  (heap.get b).bind fun mem => if mem.length < expectedSize then none else some ()

/-- `buffer_create`. -/
def bufferCreate (heap : Heap UInt8) (capacity : ℕ) : Option Outcome := do
  let buffer := heap.fresh
  let heap := heap.alloc (List.replicate capacity 0)
  memAllocSizeVerify capacity heap buffer
  return ⟨heap, ⟨0, capacity, buffer⟩, 0⟩

section Realloc

-- what `realloc` finds in the cells that the old storage does not have
variable (junk : ℕ → ℕ → UInt8)

/-- `buffer_realloc`. -/
def bufferRealloc (heap : Heap UInt8) (ptr : Buffer) (capacity : ℕ) : Option Outcome :=
  let realCapacity := max capacity ptr.capacity
  if ptr.capacity < realCapacity then do
    let buffer := heap.fresh
    let old ← heap.get ptr.buffer
    let heap := (heap.free ptr.buffer).alloc (Lib.Memory.realloc (junk buffer) old realCapacity)
    let heap ← memsetZero heap buffer ptr.capacity (realCapacity - ptr.capacity)
    memAllocSizeVerify realCapacity heap buffer
    return ⟨heap, ⟨ptr.len, realCapacity, buffer⟩, realCapacity⟩
  else some ⟨heap, ptr, realCapacity⟩

/-- `buffer_set_lenth`. -/
def bufferSetLenth (heap : Heap UInt8) (ptr : Buffer) (length : ℕ) (eraseInvalid : Bool) : Option Outcome := do
  let grown ← bufferRealloc junk heap ptr length
  let heap ←
    (if eraseInvalid then memsetZero grown.heap grown.ptr.buffer length (grown.ptr.capacity - length)
    else some grown.heap)
  return ⟨heap, { grown.ptr with len := length }, 0⟩

/-- `buffer_reset`. -/
def bufferReset (heap : Heap UInt8) (ptr : Buffer) (eraseInvalid : Bool) : Option Outcome :=
  bufferSetLenth junk heap ptr 0 eraseInvalid

/-- `buffer_store`. -/
def bufferStore (heap : Heap UInt8) (ptr : Buffer) (data : Pointer) (size : ℕ) : Option Outcome := do
  let grown ← bufferRealloc junk heap ptr size
  let heap ←
    (if data.isNull = false ∧ size ≠ 0 then memmove grown.heap grown.ptr.buffer 0 data size
    else some grown.heap)
  return ⟨heap, { grown.ptr with len := size }, min size grown.result⟩

/-- `buffer_replace`, of a `dst` that is not `NULL`. -/
def bufferReplace (heap : Heap UInt8) (dst : Buffer) : Option Buffer → Option Outcome
  | some src => bufferStore junk heap dst (.block src.buffer 0) src.len
  | none => bufferReset junk heap dst true

/-- `buffer_insert_raw`. -/
def bufferInsertRaw (heap : Heap UInt8) (ptr : Buffer) (pos : ℕ) (data : Pointer) (size : ℕ) : Option Outcome :=
  if data.isNull = true ∨ size = 0 then some ⟨heap, ptr, 0⟩
  else do
    let pos := if ptr.len < pos then ptr.len else pos
    let grown ← bufferRealloc junk heap ptr (ptr.len + size)
    let heap ← memmove grown.heap grown.ptr.buffer (pos + size) (.block grown.ptr.buffer pos) (ptr.len - pos)
    -- `data` was taken before anything moved
    let heap ← memmove heap grown.ptr.buffer pos data size
    return ⟨heap, { grown.ptr with len := ptr.len + size }, 0⟩

/-- `buffer_insert`, into a buffer that is not `NULL`. -/
def bufferInsert (heap : Heap UInt8) (ptr : Buffer) (pos : ℕ) : Option Buffer → Option Outcome
  | some data => bufferInsertRaw junk heap ptr pos (.block data.buffer 0) data.len
  | none => some ⟨heap, ptr, 0⟩

/-- `buffer_concatenate_raw`. -/
def bufferConcatenateRaw (heap : Heap UInt8) (ptr : Buffer) (data : Pointer) (size : ℕ) : Option Outcome := do
  let grown ← bufferRealloc junk heap ptr (ptr.len + size)
  let heap ← memmove grown.heap grown.ptr.buffer ptr.len data size
  return ⟨heap, { grown.ptr with len := ptr.len + size }, min (ptr.len + size) grown.result⟩

/-- `buffer_concatenate`, onto a `dst` that is not `NULL`. -/
def bufferConcatenate (heap : Heap UInt8) (dst : Buffer) : Option Buffer → Option Outcome
  | some src => bufferConcatenateRaw junk heap dst (.block src.buffer 0) src.len
  | none => some ⟨heap, dst, 0⟩

/-- `buffer_create_from`. -/
def bufferCreateFrom (heap : Heap UInt8) (data : Pointer) (len : ℕ) : Option Outcome := do
  let result ← bufferCreate heap (max 1 len * 2)
  bufferStore junk result.heap result.ptr data len

end Realloc

/-- `buffer_shortened_to`. -/
def bufferShortenedTo (heap : Heap UInt8) (ptr : Buffer) (begin len : ℕ) (eraseInvalid : Bool) :
    Option Outcome :=
  if begin ≤ ptr.len ∧ len ≤ ptr.len - begin then do
    let heap ← (if begin ≠ 0 then memmove heap ptr.buffer 0 (.block ptr.buffer begin) len else some heap)
    let heap ←
      (if eraseInvalid = true ∧ len < ptr.capacity then memsetZero heap ptr.buffer len (ptr.capacity - len)
      else some heap)
    return ⟨heap, { ptr with len := len }, 0⟩
  else some ⟨heap, ptr, 0⟩

/-- `buffer_clone`, of a buffer that is not `NULL`. -/
def bufferClone (heap : Heap UInt8) (ptr : Buffer) : Option Outcome := do
  let result ← bufferCreate heap (max ptr.capacity ptr.len)
  let heap ← memmove result.heap result.ptr.buffer 0 (.block ptr.buffer 0) ptr.len
  return ⟨heap, { result.ptr with len := ptr.len }, 0⟩

/-! ## Storage and capacity -/

/-- A buffer owns a block of the size of its capacity. -/
structure Holds (heap : Heap UInt8) (ptr : Buffer) (t : BufferT) : Prop where
  get : heap.get ptr.buffer = some t.buffer
  len : ptr.len = t.len
  capacity : ptr.capacity = t.capacity

/-- The block of `ptr'` has been written or is new.  Every block but `own` is as it was. -/
structure Leaves (heap : Heap UInt8) (own : Option ℕ) (heap' : Heap UInt8) (ptr' : Buffer) (mem : Bytes) :
    Prop where
  get : heap'.get ptr'.buffer = some mem
  capacity : ptr'.capacity = mem.length
  frame : ∀ b other, some b ≠ own → heap.get b = some other → heap'.get b = some other ∧ b ≠ ptr'.buffer

/-- A function has returned, and its buffer has these bytes. -/
structure Done (heap : Heap UInt8) (own : Option ℕ) (o : Outcome) (t : BufferT) : Prop where
  leaves : Leaves heap own o.heap o.ptr t.buffer
  len : o.ptr.len = t.len

/-- The pointer does not point into the storage of the buffer. -/
def Pointer.Outside (ptr : Buffer) : Pointer → Prop
  | .null => True
  | .array _ => True
  | .block b _ => b ≠ ptr.buffer

section Frame

variable {heap heap' : Heap UInt8} {own : Option ℕ} {ptr ptr' : Buffer} {mem mem' cells : Bytes} {t : BufferT}

theorem Holds.allocated (h : Holds heap ptr t) : ptr.capacity = t.buffer.length := by
  rw [h.capacity, BufferT.buffer_length]

theorem Holds.leaves (h : Holds heap ptr t) : Leaves heap (some ptr.buffer) heap ptr t.buffer :=
  ⟨h.get, h.allocated, fun _ _ hne hget => ⟨hget, fun heq => hne (congrArg some heq)⟩⟩

/-- A call that does nothing. -/
theorem Holds.unchanged (h : Holds heap ptr t) : Done heap (some ptr.buffer) ⟨heap, ptr, 0⟩ t := ⟨h.leaves, h.len⟩

theorem Done.holds {o : Outcome} (h : Done heap own o t) : Holds o.heap o.ptr t :=
  ⟨h.leaves.get, h.len, by rw [h.leaves.capacity, BufferT.buffer_length]⟩

/-- Writing into the block that the buffer owns. -/
theorem Leaves.write (h : Leaves heap own heap' ptr' mem) {off : ℕ} (hstore : store mem off cells = some mem') :
    ∃ heap'', heap'.write ptr'.buffer off cells = some heap'' ∧ Leaves heap own heap'' ptr' mem' := by
  refine ⟨heap'.put ptr'.buffer mem', Heap.write_of_get h.get hstore, Heap.get_put_self h.get, ?_, ?_⟩
  · rw [h.capacity, Lib.Memory.store_length hstore]
  · intro b other hne hget
    rcases h.frame b other hne hget with ⟨hkept, hother⟩
    exact ⟨(Heap.get_put_ne hother).trans hkept, hother⟩

/-- `memmove` into the block that the buffer owns. -/
theorem Leaves.memmove (h : Leaves heap own heap' ptr' mem) {data : Pointer} {n off : ℕ}
    (hread : data.read heap' n = some cells) (hstore : store mem off cells = some mem') :
    ∃ heap'', memmove heap' ptr'.buffer off data n = some heap'' ∧ Leaves heap own heap'' ptr' mem' := by
  rcases h.write hstore with ⟨heap'', hwrite, hl⟩
  exact ⟨heap'', by rw [BufferHeap.memmove, hread, Option.bind_some, hwrite], hl⟩

/-- The storage behind the first `n` bytes is erased. -/
theorem Leaves.erase (h : Leaves heap own heap' ptr' mem) {n : ℕ} (hn : n ≤ mem.length) :
    ∃ heap'', memsetZero heap' ptr'.buffer n (ptr'.capacity - n) = some heap'' ∧
      Leaves heap own heap'' ptr' (mem.take n ++ List.replicate (mem.length - n) 0) := by
  have hrest : (mem.drop n).length = (List.replicate (mem.length - n) (0 : UInt8)).length := by
    rw [List.length_drop, List.length_replicate]
  have hstore := Lib.Memory.store_last (List.length_take_of_le hn) hrest
  rw [List.take_append_drop] at hstore
  rw [h.capacity]
  exact h.write hstore

theorem Leaves.read (h : Leaves heap own heap' ptr' mem) (off n : ℕ) :
    (Pointer.block ptr'.buffer off).read heap' n = load mem off n := Heap.read_of_get h.get off n

/-- Memory of others can still be read. -/
theorem Leaves.read_outside (h : Leaves heap (some ptr.buffer) heap' ptr' mem) {data : Pointer} {n : ℕ}
    (hout : data.Outside ptr) (hread : data.read heap n = some cells) : data.read heap' n = some cells := by
  cases data with
  | null => exact hread
  | array l => exact hread
  | block b off =>
      rcases Option.bind_eq_some_iff.1 hread with ⟨other, hget, hload⟩
      have hkept := (h.frame b other (fun heq => hout (Option.some.inj heq)) hget).1
      exact (Heap.read_of_get hkept off n).trans hload

theorem Pointer.read_length {data : Pointer} {n : ℕ} (hread : data.read heap n = some cells) : cells.length = n := by
  cases data with
  | null =>
      rw [Pointer.read] at hread
      split_ifs at hread with hzero
      rw [← Option.some.inj hread, hzero, List.length_nil]
  | array l => exact Lib.Memory.load_length hread
  | block b off =>
      rcases Option.bind_eq_some_iff.1 hread with ⟨other, _, hload⟩
      exact Lib.Memory.load_length hload

/-- A source of which nothing is read. -/
theorem Pointer.read_skipped {data : Pointer} {n : ℕ} (hskip : data.isNull = true ∨ n = 0)
    (hread : data.read heap n = some cells) : cells = [] := by
  have hlen := Pointer.read_length hread
  rcases hskip with hnull | hzero
  · cases data with
    | null =>
        rw [Pointer.read] at hread
        split_ifs at hread with hzero
        exact List.eq_nil_of_length_eq_zero (hlen.trans hzero)
    | array l => exact absurd hnull Bool.false_ne_true
    | block b off => exact absurd hnull Bool.false_ne_true
  · exact List.eq_nil_of_length_eq_zero (hlen.trans hzero)

theorem verify_of_get {b n : ℕ} (hget : heap.get b = some mem) (hlen : n ≤ mem.length) :
    memAllocSizeVerify n heap b = some () := by
  rw [memAllocSizeVerify, hget, Option.bind_some, if_neg (Nat.not_lt.2 hlen)]

end Frame

/-! ## Allocation -/

section Allocation

variable {heap : Heap UInt8} {ptr : Buffer} {t : BufferT}

theorem bufferCreate_eq (heap : Heap UInt8) (capacity : ℕ) :
    bufferCreate heap capacity =
      some ⟨heap.alloc (List.replicate capacity 0), ⟨0, capacity, heap.fresh⟩, 0⟩ := by
  have hget := Heap.get_alloc_fresh heap (List.replicate capacity (0 : UInt8))
  have hverify := verify_of_get hget (Nat.le_of_eq List.length_replicate.symm)
  simp only [bufferCreate, hverify]
  rfl

/-- A buffer that was just created is empty, and all of its storage is zero. -/
theorem bufferCreate_done (heap : Heap UInt8) (capacity : ℕ) :
    Done heap none ⟨heap.alloc (List.replicate capacity 0), ⟨0, capacity, heap.fresh⟩, 0⟩
      ⟨[], List.replicate capacity 0⟩ := by
  refine ⟨⟨Heap.get_alloc_fresh heap _, by simp [BufferT.buffer], ?_⟩, rfl⟩
  intro b other _ hget
  exact ⟨Heap.get_alloc_of_some hget, Nat.ne_of_lt (Heap.lt_fresh_of_get hget)⟩

variable (junk : ℕ → ℕ → UInt8)

/-- There is room already. -/
theorem bufferRealloc_of_le {capacity : ℕ} (h : capacity ≤ ptr.capacity) :
    bufferRealloc junk heap ptr capacity = some ⟨heap, ptr, ptr.capacity⟩ := by
  simp only [bufferRealloc, Nat.max_eq_right h]
  exact if_neg (Nat.lt_irrefl _)

/-- The storage is moved to another block. -/
theorem bufferRealloc_of_lt (hheld : Holds heap ptr t) {capacity : ℕ} (h : ptr.capacity < capacity) :
    ∃ grown, bufferRealloc junk heap ptr capacity = some grown ∧ grown.ptr.len = ptr.len ∧
      grown.result = capacity ∧
      Leaves heap (some ptr.buffer) grown.heap grown.ptr (t.enlarge capacity).buffer := by
  have hroom : t.buffer.length ≤ capacity := Nat.le_of_lt (hheld.allocated ▸ h)
  rcases Lib.Memory.realloc_of_le (junk heap.fresh) hroom with ⟨rest, hrealloc, hrest⟩
  have hmoved : Leaves heap (some ptr.buffer)
      ((heap.free ptr.buffer).alloc (Lib.Memory.realloc (junk heap.fresh) t.buffer capacity))
      ⟨ptr.len, capacity, heap.fresh⟩ (Lib.Memory.realloc (junk heap.fresh) t.buffer capacity) := by
    refine ⟨?_, (Lib.Memory.realloc_length _ _ _).symm, fun b other hne hget => ⟨?_, ?_⟩⟩
    · have hnew := Heap.get_alloc_fresh (heap.free ptr.buffer)
        (Lib.Memory.realloc (junk heap.fresh) t.buffer capacity)
      rwa [Heap.fresh_free] at hnew
    · have hfreed := Heap.get_free_ne (h := heap) (fun heq : b = ptr.buffer => hne (congrArg some heq))
      exact Heap.get_alloc_of_some (hfreed.trans hget)
    · exact Nat.ne_of_lt (Heap.lt_fresh_of_get hget)
  -- `memset` erases what `realloc` has found
  have hstore : store (Lib.Memory.realloc (junk heap.fresh) t.buffer capacity) ptr.capacity
      (List.replicate (capacity - ptr.capacity) 0) = some (t.enlarge capacity).buffer := by
    have hsame : rest.length = (List.replicate (capacity - ptr.capacity) (0 : UInt8)).length := by
      rw [hrest, List.length_replicate, hheld.allocated]
    rw [hrealloc, BufferT.enlarge_buffer, Lib.Memory.store_last hheld.allocated.symm hsame, hheld.capacity]
  rcases hmoved.write hstore with ⟨heap', hwrite, hl⟩
  have hverify : memAllocSizeVerify capacity heap' heap.fresh = some () :=
    verify_of_get hl.get (Nat.le_of_eq hl.capacity)
  refine ⟨⟨heap', ⟨ptr.len, capacity, heap.fresh⟩, capacity⟩, ?_, rfl, rfl, hl⟩
  simp only [bufferRealloc, Nat.max_eq_left (Nat.le_of_lt h)]
  rw [if_pos h, hheld.get]
  simp only [Option.bind_eq_bind, Option.bind_some, memsetZero]
  rw [hwrite]
  simp only [Option.bind_some, hverify]
  rfl

/-- The storage that a buffer had is given back when it grows. -/
theorem bufferRealloc_gives_back {capacity : ℕ} (h : ptr.capacity < capacity) {grown : Outcome}
    (hrun : bufferRealloc junk heap ptr capacity = some grown) : grown.heap.get ptr.buffer = none := by
  simp only [bufferRealloc, Nat.max_eq_left (Nat.le_of_lt h)] at hrun
  rw [if_pos h] at hrun
  rcases Option.bind_eq_some_iff.1 hrun with ⟨old, hget, hwritten⟩
  rcases Option.bind_eq_some_iff.1 hwritten with ⟨heap', hwrite, hverified⟩
  rcases Option.bind_eq_some_iff.1 hverified with ⟨_, _, hsome⟩
  rcases Heap.write_eq_some hwrite with ⟨mem, hput⟩
  have hlt : ptr.buffer < heap.fresh := Heap.lt_fresh_of_get hget
  have hold : ptr.buffer < (heap.free ptr.buffer).fresh := hlt.trans_eq (Heap.fresh_free _ _).symm
  rw [← Option.some.inj hsome]
  change heap'.get ptr.buffer = none
  rw [hput, Heap.get_put_ne (Nat.ne_of_lt hlt), Heap.get_alloc_of_lt hold, Heap.get_free_self]

/-- `buffer_realloc`. -/
theorem bufferRealloc_done (hheld : Holds heap ptr t) (capacity : ℕ) :
    ∃ grown, bufferRealloc junk heap ptr capacity = some grown ∧ grown.ptr.len = ptr.len ∧
      grown.result = max capacity ptr.capacity ∧
      Leaves heap (some ptr.buffer) grown.heap grown.ptr (t.enlarge capacity).buffer := by
  rcases Nat.lt_or_ge ptr.capacity capacity with hlt | hle
  · rcases bufferRealloc_of_lt junk hheld hlt with ⟨grown, hrun, hlen, hresult, hl⟩
    exact ⟨grown, hrun, hlen, hresult.trans (Nat.max_eq_left (Nat.le_of_lt hlt)).symm, hl⟩
  · refine ⟨_, bufferRealloc_of_le junk hle, rfl, (Nat.max_eq_right hle).symm, ?_⟩
    rw [BufferT.enlarge_of_le (hheld.capacity ▸ hle)]
    exact hheld.leaves

end Allocation

/-! ## What the functions do -/

section Functions

variable {heap heap' : Heap UInt8} {own : Option ℕ} {ptr ptr' : Buffer} {t : BufferT}

theorem Leaves.done {n : ℕ} (h : Leaves heap own heap' ptr' t.buffer) (hlen : n = t.len) (result : ℕ) :
    Done heap own ⟨heap', { ptr' with len := n }, result⟩ t :=
  ⟨⟨h.get, h.capacity, h.frame⟩, hlen⟩

variable (junk : ℕ → ℕ → UInt8)

theorem bufferSetLenth_done (hheld : Holds heap ptr t) (length : ℕ) (eraseInvalid : Bool) :
    ∃ o, bufferSetLenth junk heap ptr length eraseInvalid = some o ∧
      Done heap (some ptr.buffer) o (t.setLenth length eraseInvalid) := by
  rcases bufferRealloc_done junk hheld length with ⟨grown, hgrown, _, _, hl⟩
  rw [bufferSetLenth, hgrown]
  cases eraseInvalid with
  | false =>
      refine ⟨_, rfl, Leaves.done ?_ (t.setLenth_len length false).symm 0⟩
      rw [BufferT.setLenth, if_neg Bool.false_ne_true, BufferT.ofBuffer_buffer]
      exact hl
  | true =>
      rcases hl.erase (t.le_enlarge_buffer length) with ⟨heap', herase, herased⟩
      rw [← BufferT.setLenth_erased_buffer] at herased
      simp only [Option.bind_eq_bind, Option.bind_some, if_true, herase]
      exact ⟨_, rfl, herased.done (t.setLenth_len length true).symm 0⟩

/-- The source can still be read when it is not in storage that `buffer_realloc` gave back. -/
theorem read_grown {capacity n : ℕ} {grown : Outcome} {mem cells : Bytes} {data : Pointer}
    (hgrown : bufferRealloc junk heap ptr capacity = some grown)
    (hl : Leaves heap (some ptr.buffer) grown.heap grown.ptr mem)
    (hstays : data.Outside ptr ∨ capacity ≤ ptr.capacity) (hread : data.read heap n = some cells) :
    data.read grown.heap n = some cells := by
  rcases hstays with hout | hroom
  · exact hl.read_outside hout hread
  · rw [bufferRealloc_of_le junk hroom, Option.some.injEq] at hgrown
    rwa [← hgrown]

/-- Without data only the length is set. -/
theorem bufferStore_null (hheld : Holds heap ptr t) (size : ℕ) :
    ∃ o, bufferStore junk heap ptr .null size = some o ∧ o.result = size ∧
      Done heap (some ptr.buffer) o (t.setLenth size false) := by
  rcases bufferRealloc_done junk hheld size with ⟨grown, hgrown, _, hresult, hl⟩
  have hshown : (t.setLenth size false).buffer = (t.enlarge size).buffer := BufferT.ofBuffer_buffer _ _
  have hnull : ¬ (Pointer.null.isNull = false ∧ size ≠ 0) := fun h => Bool.noConfusion h.1
  rw [bufferStore, hgrown]
  simp only [Option.bind_eq_bind, Option.bind_some, if_neg hnull]
  refine ⟨_, rfl, ?_, Leaves.done (hshown ▸ hl) (t.setLenth_len size false).symm _⟩
  rw [hresult]
  exact Nat.min_eq_left (Nat.le_max_left _ _)

theorem bufferStore_done (hheld : Holds heap ptr t) {data : Pointer} {size : ℕ} {cells : Bytes}
    (hstays : data.Outside ptr ∨ size ≤ ptr.capacity) (hread : data.read heap size = some cells) :
    ∃ o, bufferStore junk heap ptr data size = some o ∧ o.result = size ∧
      Done heap (some ptr.buffer) o (t.store cells) := by
  rcases bufferRealloc_done junk hheld size with ⟨grown, hgrown, _, hresult, hl⟩
  have hreturned : min size grown.result = size := by
    rw [hresult]
    exact Nat.min_eq_left (Nat.le_max_left _ _)
  have hafter := read_grown junk hgrown hl hstays hread
  have hcells := Pointer.read_length hread
  subst hcells
  have hroom := t.le_enlarge_buffer cells.length
  -- the bytes are written over the front of the storage
  have hfield := Lib.Memory.store_field (a := []) (l := (t.enlarge cells.length).buffer.drop cells.length)
    List.length_nil (List.length_take_of_le hroom)
  have hstore : store (t.enlarge cells.length).buffer 0 cells = some (t.store cells).buffer := by
    rwa [List.nil_append, List.nil_append, List.take_append_drop] at hfield
  rw [bufferStore, hgrown]
  simp only [Option.bind_eq_bind, Option.bind_some]
  by_cases hmove : data.isNull = false ∧ cells.length ≠ 0
  · rcases hl.memmove hafter hstore with ⟨heap', hmoved, hl'⟩
    simp only [if_pos hmove, hmoved, Option.bind_some]
    exact ⟨_, rfl, hreturned, hl'.done rfl _⟩
  · have hempty : cells = [] := by
      refine Pointer.read_skipped ?_ hread
      by_contra hskip
      rw [not_or] at hskip
      exact hmove ⟨Bool.eq_false_iff.2 hskip.1, hskip.2⟩
    subst hempty
    simp only [if_neg hmove]
    exact ⟨_, rfl, hreturned, Leaves.done (t := t.store []) hl rfl _⟩

theorem bufferConcatenateRaw_done (hheld : Holds heap ptr t) {data : Pointer} {size : ℕ} {cells : Bytes}
    (hstays : data.Outside ptr ∨ ptr.len + size ≤ ptr.capacity) (hread : data.read heap size = some cells) :
    ∃ o, bufferConcatenateRaw junk heap ptr data size = some o ∧ o.result = ptr.len + size ∧
      Done heap (some ptr.buffer) o (t.concatenate cells) := by
  rcases bufferRealloc_done junk hheld (ptr.len + size) with ⟨grown, hgrown, _, hresult, hl⟩
  have hafter := read_grown junk hgrown hl hstays hread
  have hcells := Pointer.read_length hread
  subst hcells
  have hlen : ptr.len + cells.length = (t.concatenate cells).len := by
    rw [hheld.len]
    exact List.length_append.symm
  have hstore : store (t.enlarge (ptr.len + cells.length)).buffer ptr.len cells =
      some (t.concatenate cells).buffer := by
    rw [hheld.len]
    exact BufferT.store_concatenate t cells
  rcases hl.memmove hafter hstore with ⟨heap', hmoved, hl'⟩
  rw [bufferConcatenateRaw, hgrown]
  simp only [Option.bind_eq_bind, Option.bind_some, hmoved]
  refine ⟨_, rfl, ?_, hl'.done hlen _⟩
  rw [hresult]
  exact Nat.min_eq_left (Nat.le_max_left _ _)

/-- Bytes that were in the storage given back are not there any more. -/
theorem read_given_back {heap : Heap UInt8} {b : ℕ} (hget : heap.get b = none) (off n : ℕ) :
    (Pointer.block b off).read heap n = none := Heap.read_of_get_none hget off n

/-- A buffer that has to grow cannot be appended to itself. -/
theorem bufferConcatenateRaw_own {size : ℕ} (hgrow : ptr.capacity < ptr.len + size) (off : ℕ) :
    bufferConcatenateRaw junk heap ptr (.block ptr.buffer off) size = none := by
  rw [bufferConcatenateRaw]
  cases hgrown : bufferRealloc junk heap ptr (ptr.len + size) with
  | none => rfl
  | some grown =>
      have hread := read_given_back (bufferRealloc_gives_back junk hgrow hgrown) off size
      simp only [Option.bind_eq_bind, Option.bind_some, memmove, hread, Option.bind_none]

/-- Nor can it be inserted into itself. -/
theorem bufferInsertRaw_own {size : ℕ} (hgrow : ptr.capacity < ptr.len + size) (hsize : size ≠ 0) (pos off : ℕ) :
    bufferInsertRaw junk heap ptr pos (.block ptr.buffer off) size = none := by
  have hskip : ¬ ((Pointer.block ptr.buffer off).isNull = true ∨ size = 0) :=
    not_or.2 ⟨Bool.false_ne_true, hsize⟩
  rw [bufferInsertRaw, if_neg hskip]
  cases hgrown : bufferRealloc junk heap ptr (ptr.len + size) with
  | none => rfl
  | some grown =>
      simp only [Option.bind_eq_bind, Option.bind_some]
      refine Option.bind_eq_none_iff.2 fun heap' hmoved => ?_
      rcases Option.bind_eq_some_iff.1 hmoved with ⟨cells, _, hwrite⟩
      have hgone := Heap.get_of_write_eq_none (bufferRealloc_gives_back junk hgrow hgrown) hwrite
      rw [memmove, read_given_back hgone off size]
      rfl

/-- The source of an insertion is not among the bytes that are moved back. -/
def Pointer.Unmoved (ptr : Buffer) (pos size : ℕ) : Pointer → Prop
  | .null => True
  | .array _ => True
  | .block _ off => ptr.len ≤ pos ∨ off ≤ pos ∨ ptr.len + size ≤ off

theorem bufferInsertRaw_skip (pos : ℕ) {data : Pointer} {size : ℕ} (h : data.isNull = true ∨ size = 0) :
    bufferInsertRaw junk heap ptr pos data size = some ⟨heap, ptr, 0⟩ := if_pos h

/-- The source is still there after the bytes behind the place of insertion were moved. -/
theorem read_unmoved (hheld : Holds heap ptr t) {pos : ℕ} {data : Pointer} {cells mem : Bytes} {grown : Outcome}
    (hgrown : bufferRealloc junk heap ptr (t.len + cells.length) = some grown)
    (hstays : data.Outside ptr ∨ (ptr.len + cells.length ≤ ptr.capacity ∧ data.Unmoved ptr pos cells.length))
    (hread : data.read heap cells.length = some cells)
    (hstore : store (t.enlarge (t.len + cells.length)).buffer (min pos t.len + cells.length)
      (t.bytes.drop (min pos t.len)) = some mem)
    (hl : Leaves heap (some ptr.buffer) heap' grown.ptr mem) : data.read heap' cells.length = some cells := by
  cases data with
  | null => exact hread
  | array l => exact hread
  | block b off =>
      rcases hstays with hout | ⟨hroom, hunmoved⟩
      · exact hl.read_outside hout hread
      · by_cases hown : b = ptr.buffer
        · rw [hheld.len] at hroom
          rw [bufferRealloc_of_le junk hroom, Option.some.injEq] at hgrown
          have hptr : grown.ptr = ptr := by rw [← hgrown]
          have hload : load t.buffer off cells.length = some cells := by
            rw [← Heap.read_of_get hheld.get, ← hown]
            exact hread
          rw [BufferT.enlarge_of_le (hheld.capacity ▸ hroom)] at hstore
          have hsame : load mem off cells.length = load t.buffer off cells.length := by
            by_cases hend : t.len ≤ pos
            · -- nothing is moved
              rw [Nat.min_eq_right hend, BufferT.len, List.drop_length] at hstore
              rw [Lib.Memory.store_nil hstore]
            · refine Lib.Memory.load_of_store_apart hstore ?_
              have htail : (t.bytes.drop (min pos t.len)).length = t.len - min pos t.len := List.length_drop
              change ptr.len ≤ pos ∨ off ≤ pos ∨ ptr.len + cells.length ≤ off at hunmoved
              rw [hheld.len] at hunmoved
              omega
          have hread' := hl.read off cells.length
          rw [hptr, ← hown] at hread'
          exact hread'.trans (hsame.trans hload)
        · exact hl.read_outside hown hread

theorem bufferInsertRaw_done (hheld : Holds heap ptr t) (pos : ℕ) {data : Pointer} {size : ℕ} {cells : Bytes}
    (hskip : ¬ (data.isNull = true ∨ size = 0))
    (hstays : data.Outside ptr ∨ (ptr.len + size ≤ ptr.capacity ∧ data.Unmoved ptr pos size))
    (hread : data.read heap size = some cells) :
    ∃ o, bufferInsertRaw junk heap ptr pos data size = some o ∧
      Done heap (some ptr.buffer) o (t.insert (min pos t.len) cells) := by
  rcases bufferRealloc_done junk hheld (t.len + size) with ⟨grown, hgrown, _, _, hl⟩
  have hcells := Pointer.read_length hread
  subst hcells
  have hle : min pos t.len ≤ t.len := Nat.min_le_right _ _
  have hpos : (if t.len < pos then t.len else pos) = min pos t.len := by
    split_ifs <;> omega
  -- first the tail is moved back, then the bytes are written where it was
  rcases BufferT.store_moved hle cells.length with ⟨room, hroom, htail⟩
  have htailRead := (hl.read _ _).trans (BufferT.load_tail hle (t.len + cells.length))
  rcases hl.memmove htailRead htail with ⟨heap₁, hmove₁, hl₁⟩
  have hafter := read_unmoved junk hheld hgrown hstays hread htail hl₁
  rcases hl₁.memmove hafter (BufferT.store_insert hle hroom) with ⟨heap₂, hmove₂, hl₂⟩
  rw [bufferInsertRaw, if_neg hskip]
  simp only [hheld.len, hpos, hgrown, Option.bind_eq_bind, Option.bind_some, hmove₁, hmove₂]
  exact ⟨_, rfl, hl₂.done (t.insert_len _ _).symm 0⟩

/-- The part is moved to the front. -/
theorem memmove_part (hheld : Holds heap ptr t) {begin len : ℕ} (h : begin + len ≤ t.len) :
    ∃ heap', (if begin ≠ 0 then memmove heap ptr.buffer 0 (.block ptr.buffer begin) len else some heap) = some heap' ∧
      Leaves heap (some ptr.buffer) heap' ptr (t.part begin len false).buffer := by
  have hpart : (t.part begin len false).buffer = (t.bytes.drop begin).take len ++ t.buffer.drop len := rfl
  have hload := BufferT.load_part h
  have hroom : len ≤ t.buffer.length := by
    rw [BufferT.buffer_length]
    exact Nat.le_trans (Nat.le_trans (Nat.le_add_left _ _) h) t.len_le_capacity
  by_cases hbegin : begin = 0
  · subst hbegin
    refine ⟨heap, if_neg (not_not.2 rfl), ?_⟩
    have hfront : (t.bytes.drop 0).take len = t.buffer.take len := by
      rw [Lib.Memory.load, if_pos (by omega), Option.some.injEq] at hload
      exact hload.symm
    rw [hpart, hfront, List.take_append_drop]
    exact hheld.leaves
  · have hlen := Lib.Memory.load_length hload
    have hfield := Lib.Memory.store_field (a := []) (l := t.buffer.drop len) List.length_nil
      ((List.length_take_of_le hroom).trans hlen.symm)
    rw [List.nil_append, List.take_append_drop] at hfield
    rcases hheld.leaves.memmove ((hheld.leaves.read begin len).trans hload) hfield with ⟨heap', hmove, hl⟩
    exact ⟨heap', (if_pos hbegin).trans hmove, hl⟩

theorem bufferShortenedTo_refused {begin len : ℕ} (h : ¬ (begin ≤ ptr.len ∧ len ≤ ptr.len - begin))
    (eraseInvalid : Bool) : bufferShortenedTo heap ptr begin len eraseInvalid = some ⟨heap, ptr, 0⟩ := if_neg h

theorem bufferShortenedTo_done (hheld : Holds heap ptr t) {begin len : ℕ} (h : begin + len ≤ t.len)
    (eraseInvalid : Bool) :
    ∃ o, bufferShortenedTo heap ptr begin len eraseInvalid = some o ∧
      Done heap (some ptr.buffer) o (t.part begin len eraseInvalid) := by
  have hguard : begin ≤ ptr.len ∧ len ≤ ptr.len - begin := by
    rw [hheld.len]
    omega
  have hlen := BufferT.part_len h false
  rcases memmove_part hheld h with ⟨heap₁, hmove, hl⟩
  rw [bufferShortenedTo, if_pos hguard, hmove]
  simp only [Option.bind_eq_bind, Option.bind_some]
  by_cases herase : eraseInvalid = true ∧ len < ptr.capacity
  · rcases hl.erase (n := len) (by rw [← hl.capacity]; exact Nat.le_of_lt herase.2) with ⟨heap₂, hset, hl₂⟩
    have hbuffer : (t.part begin len true).buffer =
        (t.part begin len false).buffer.take len ++
          List.replicate ((t.part begin len false).buffer.length - len) 0 := by
      rw [← hl.capacity, hheld.capacity, BufferT.buffer, BufferT.buffer, List.take_left' hlen]
      rfl
    rw [← hbuffer] at hl₂
    rw [if_pos herase, hset, herase.1]
    exact ⟨_, rfl, hl₂.done (BufferT.part_len h true).symm 0⟩
  · rw [if_neg herase]
    refine ⟨_, rfl, Leaves.done ?_ (BufferT.part_len h eraseInvalid).symm 0⟩
    cases eraseInvalid with
    | false => exact hl
    | true =>
        -- there is nothing to erase
        have hfull : t.capacity ≤ len := by
          rw [← hheld.capacity]
          exact Nat.not_lt.1 fun hlt => herase ⟨rfl, hlt⟩
        have hnil : t.buffer.drop len = [] := by
          rw [List.drop_eq_nil_iff, BufferT.buffer_length]
          exact hfull
        have hsame : (t.part begin len true) = (t.part begin len false) := by
          rw [BufferT.part, BufferT.part, if_pos rfl, if_neg Bool.false_ne_true, hnil, Nat.sub_eq_zero_of_le hfull,
            List.replicate_zero]
        rw [hsame]
        exact hl

/-- One call after another. -/
theorem Done.trans {o o' : Outcome} {t t' : BufferT} (h : Done heap own o t)
    (h' : Done o.heap (some o.ptr.buffer) o' t') : Done heap own o' t' := by
  refine ⟨⟨h'.leaves.get, h'.leaves.capacity, fun b other hne hget => ?_⟩, h'.len⟩
  rcases h.leaves.frame b other hne hget with ⟨hkept, hother⟩
  exact h'.leaves.frame b other (fun heq => hother (Option.some.inj heq)) hkept

/-- The clone has storage of its own, and all that is not in use is zero. -/
theorem bufferClone_done (hheld : Holds heap ptr t) :
    ∃ o, bufferClone heap ptr = some o ∧
      Done heap none o ⟨t.bytes, List.replicate t.spare.length 0⟩ := by
  have hcap : max ptr.capacity ptr.len = t.capacity := by
    rw [hheld.capacity, hheld.len, Nat.max_eq_left t.len_le_capacity]
  have hnew := bufferCreate_done heap t.capacity
  -- the new block does not take the place of the old one
  have hsource := (hnew.leaves.frame ptr.buffer t.buffer (by simp) hheld.get).1
  have hload : load t.buffer 0 ptr.len = some t.bytes := by
    rw [hheld.len]
    exact (BufferT.load_part (by omega)).trans (congrArg some List.take_length)
  have hstore : store (List.replicate t.capacity 0) 0 t.bytes =
      some (t.bytes ++ List.replicate t.spare.length 0) := by
    have hzeros : List.replicate t.capacity (0 : UInt8) =
        [] ++ (List.replicate t.bytes.length 0 ++ List.replicate t.spare.length 0) := by
      rw [List.nil_append, List.replicate_append_replicate]
      rfl
    rw [hzeros]
    exact Lib.Memory.store_field List.length_nil List.length_replicate
  have hread : (Pointer.block ptr.buffer 0).read (heap.alloc (List.replicate t.capacity 0)) ptr.len = some t.bytes :=
    (Heap.read_of_get hsource 0 ptr.len).trans hload
  rcases hnew.leaves.memmove hread hstore with ⟨heap', hmove, hl⟩
  rw [bufferClone, hcap, bufferCreate_eq]
  simp only [Option.bind_eq_bind, Option.bind_some, hmove]
  exact ⟨_, rfl, Leaves.done (t := ⟨t.bytes, List.replicate t.spare.length 0⟩) hl hheld.len 0⟩

/-- A new buffer that is filled at once. -/
theorem bufferCreateFrom_done {data : Pointer} {len : ℕ} {cells : Bytes} (hread : data.read heap len = some cells) :
    ∃ o, bufferCreateFrom junk heap data len = some o ∧
      Done heap none o (BufferT.store ⟨[], List.replicate (max 1 len * 2) 0⟩ cells) := by
  have hnew := bufferCreate_done heap (max 1 len * 2)
  have hroom : len ≤ max 1 len * 2 := by omega
  have hafter : data.read (heap.alloc (List.replicate (max 1 len * 2) 0)) len = some cells := by
    cases data with
    | null => exact hread
    | array l => exact hread
    | block b off =>
        rcases Option.bind_eq_some_iff.1 hread with ⟨other, hget, hload⟩
        exact (Heap.read_of_get (Heap.get_alloc_of_some hget) off len).trans hload
  rcases bufferStore_done junk hnew.holds (Or.inr hroom) hafter with ⟨o, hrun, _, hdone⟩
  rw [bufferCreateFrom, bufferCreate_eq]
  exact ⟨o, hrun, hnew.trans hdone⟩

/-- A new buffer without data has the length alone. -/
theorem bufferCreateFrom_null (heap : Heap UInt8) (len : ℕ) :
    ∃ o, bufferCreateFrom junk heap .null len = some o ∧
      Done heap none o (BufferT.setLenth ⟨[], List.replicate (max 1 len * 2) 0⟩ len false) := by
  have hnew := bufferCreate_done heap (max 1 len * 2)
  rcases bufferStore_null junk hnew.holds len with ⟨o, hrun, _, hdone⟩
  rw [bufferCreateFrom, bufferCreate_eq]
  exact ⟨o, hrun, hnew.trans hdone⟩

end Functions

end BufferHeap
end SsrNative
