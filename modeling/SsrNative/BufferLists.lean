import SsrNative.BufferHeap
import SsrNative.Lib.Transition

/-!
# BufferLists — buffers as lists of bytes

What a buffer is for: a list of bytes to which others can be appended, into which others can be inserted and
of which a part can be cut out.  Any sequence of calls on any number of buffers is compared with the lists.
-/

namespace SsrNative
namespace BufferLists

open Bytes
open BufferHeap
open Lib.Blocks
open Lib.Transition

/-! ## Lists -/

/-- The bytes of a buffer, and whether all storage behind them is zero. -/
structure ListBuf where
  bytes : Bytes
  erased : Bool
deriving DecidableEq, Repr

namespace ListBuf

def len (l : ListBuf) : ℕ := l.bytes.length

/-- A cell of the storage; `behind` is what earlier contents have left there. -/
def cell (l : ListBuf) (behind : ℕ → UInt8) (k : ℕ) : UInt8 :=
  if k < l.len then byteAt l.bytes k else if l.erased then 0 else behind k

def cells (l : ListBuf) (behind : ℕ → UInt8) (off n : ℕ) : Bytes :=
  (List.range n).map fun k => l.cell behind (off + k)

/-- Bytes that are not in use any more are left behind the others, unless they are erased. -/
def replaceBytes (l : ListBuf) (bytes : Bytes) (eraseInvalid : Bool) : ListBuf :=
  ⟨bytes, eraseInvalid || (l.erased && decide (l.len ≤ bytes.length))⟩

def setLenth (l : ListBuf) (behind : ℕ → UInt8) (length : ℕ) (eraseInvalid : Bool) : ListBuf :=
  l.replaceBytes (l.cells behind 0 length) eraseInvalid

def store (l : ListBuf) (data : Bytes) : ListBuf := l.replaceBytes data false

def append (l : ListBuf) (data : Bytes) : ListBuf := { l with bytes := l.bytes ++ data }

def insert (l : ListBuf) (pos : ℕ) (data : Bytes) : ListBuf :=
  { l with bytes := l.bytes.take (min pos l.len) ++ data ++ l.bytes.drop (min pos l.len) }

def shortenedTo (l : ListBuf) (begin len : ℕ) (eraseInvalid : Bool) : ListBuf :=
  if begin + len ≤ l.len then l.replaceBytes ((l.bytes.drop begin).take len) eraseInvalid else l

def clone (l : ListBuf) : ListBuf := ⟨l.bytes, true⟩

def empty : ListBuf := ⟨[], true⟩

end ListBuf

/-! ## Calls -/

/-- The `data` of a caller: nothing, an array, or what stands in a buffer. -/
inductive Source where
  | null
  | array (l : Bytes)
  | part (i off : ℕ)

def Source.isNull : Source → Bool
  | .null => true
  | .array _ => false
  | .part _ _ => false

/-- A call.  Buffers are numbered as they were created, and `none` is `NULL`. -/
inductive Call where
  | create (capacity : ℕ)
  | createFrom (data : Source) (len : ℕ)
  | clone (ptr : Option ℕ)
  | store (ptr : Option ℕ) (data : Source) (size : ℕ)
  | replace (dst src : Option ℕ)
  | concatenateRaw (ptr : ℕ) (data : Source) (size : ℕ)
  | concatenate (dst src : Option ℕ)
  | insertRaw (ptr : Option ℕ) (pos : ℕ) (data : Source) (size : ℕ)
  | insert (ptr : Option ℕ) (pos : ℕ) (data : Option ℕ)
  | shortenedTo (ptr : Option ℕ) (begin len : ℕ) (eraseInvalid : Bool)
  | setLenth (ptr : Option ℕ) (length : ℕ) (eraseInvalid : Bool)
  | reset (ptr : Option ℕ) (eraseInvalid : Bool)

/-! ## The program -/

/-- The heap and all buffers. -/
structure State where
  heap : Heap UInt8
  bufs : List Buffer

namespace State

def initial : State := ⟨Heap.empty, []⟩

/-- A function that works on a buffer.  Nothing happens to `NULL`. -/
def update (s : State) (ptr : Option ℕ) (f : Buffer → Option Outcome) : Option State :=
  ptr.elim (some s) fun i => (s.bufs[i]?).bind fun p => (f p).map fun o => ⟨o.heap, s.bufs.set i o.ptr⟩

/-- A function that returns a new buffer. -/
def add (s : State) (o : Option Outcome) : Option State := o.map fun o => ⟨o.heap, s.bufs ++ [o.ptr]⟩

def find (s : State) : Option ℕ → Option (Option Buffer)
  | none => some none
  | some i => (s.bufs[i]?).map some

def lenOf (s : State) (i : ℕ) : ℕ := (s.bufs[i]?).elim 0 Buffer.len

/-- What stands in the storage of a buffer. -/
def behind (s : State) (i : ℕ) : ℕ → UInt8 := byteAt (((s.bufs[i]?).bind fun p => s.heap.get p.buffer).getD [])

/-- What the pointer is when a function is called. -/
def pointer (s : State) : Source → Option Pointer
  | .null => some .null
  | .array l => some (.array l)
  | .part i off => (s.bufs[i]?).map fun p => .block p.buffer off

/-- A call of a function of `ssrbuffer.c`. -/
def step (junk : ℕ → ℕ → UInt8) (s : State) : Call → Option State
  | .create capacity => s.add (bufferCreate s.heap capacity)
  | .createFrom data len => (s.pointer data).bind fun d => s.add (bufferCreateFrom junk s.heap d len)
  | .clone ptr => ptr.elim (some s) fun i => (s.bufs[i]?).bind fun p => s.add (bufferClone s.heap p)
  | .store ptr data size => (s.pointer data).bind fun d => s.update ptr fun p => bufferStore junk s.heap p d size
  | .replace dst src => (s.find src).bind fun q => s.update dst fun p => bufferReplace junk s.heap p q
  | .concatenateRaw ptr data size =>
      (s.pointer data).bind fun d => s.update (some ptr) fun p => bufferConcatenateRaw junk s.heap p d size
  | .concatenate dst src => (s.find src).bind fun q => s.update dst fun p => bufferConcatenate junk s.heap p q
  | .insertRaw ptr pos data size =>
      (s.pointer data).bind fun d => s.update ptr fun p => bufferInsertRaw junk s.heap p pos d size
  | .insert ptr pos data => (s.find data).bind fun q => s.update ptr fun p => bufferInsert junk s.heap p pos q
  | .shortenedTo ptr begin len eraseInvalid =>
      s.update ptr fun p => bufferShortenedTo s.heap p begin len eraseInvalid
  | .setLenth ptr length eraseInvalid => s.update ptr fun p => bufferSetLenth junk s.heap p length eraseInvalid
  | .reset ptr eraseInvalid => s.update ptr fun p => bufferReset junk s.heap p eraseInvalid

end State

/-! ## The lists -/

/-- Nothing happens to `NULL`. -/
def updateAt (a : List ListBuf) (ptr : Option ℕ) (f : ℕ → ListBuf → ListBuf) : List ListBuf :=
  ptr.elim a fun i => (a[i]?).elim a fun l => a.set i (f i l)

def bytesOf (a : List ListBuf) (i : ℕ) : Bytes := (a[i]?).elim [] ListBuf.bytes

section Lists

-- what earlier contents have left in the storage of each buffer
variable (behind : ℕ → ℕ → UInt8)

/-- The bytes that a pointer points to. -/
def Source.data (a : List ListBuf) (size : ℕ) : Source → Bytes
  | .null => []
  | .array l => l.take size
  | .part i off => (a[i]?).elim [] fun l => l.cells (behind i) off size

/-- What a call does to the lists. -/
def listStep (a : List ListBuf) : Call → List ListBuf
  | .create _ => a ++ [.empty]
  | .createFrom data len =>
      a ++ [if data.isNull then ListBuf.empty.setLenth (fun _ => 0) len false
        else ListBuf.empty.store (data.data behind a len)]
  | .clone ptr => ptr.elim a fun i => (a[i]?).elim a fun l => a ++ [l.clone]
  | .store ptr data size =>
      updateAt a ptr fun i l =>
        if data.isNull then l.setLenth (behind i) size false else l.store (data.data behind a size)
  | .replace dst src =>
      updateAt a dst fun i l => src.elim (l.setLenth (behind i) 0 true) fun j => l.store (bytesOf a j)
  | .concatenateRaw ptr data size => updateAt a (some ptr) fun _ l => l.append (data.data behind a size)
  | .concatenate dst src => updateAt a dst fun _ l => src.elim l fun j => l.append (bytesOf a j)
  | .insertRaw ptr pos data size => updateAt a ptr fun _ l => l.insert pos (data.data behind a size)
  | .insert ptr pos data => updateAt a ptr fun _ l => data.elim l fun j => l.insert pos (bytesOf a j)
  | .shortenedTo ptr begin len eraseInvalid => updateAt a ptr fun _ l => l.shortenedTo begin len eraseInvalid
  | .setLenth ptr length eraseInvalid => updateAt a ptr fun i l => l.setLenth (behind i) length eraseInvalid
  | .reset ptr eraseInvalid => updateAt a ptr fun i l => l.setLenth (behind i) 0 eraseInvalid

end Lists

/-- The lists after some calls, whatever is left behind their bytes. -/
def ListRun : List ListBuf → List Call → List ListBuf → Prop
  | a, [], a' => a' = a
  | a, c :: calls, a' => ∃ behind, ListRun (listStep behind a c) calls a'

/-! ## What callers have to see to -/

/-- The pointer may be read: there are `size` bytes where it points to. -/
def Source.Valid (s : State) (size : ℕ) : Source → Prop
  | .null => size = 0
  | .array l => size ≤ l.length
  | .part i off => ∃ p, s.bufs[i]? = some p ∧ off + size ≤ p.capacity

/-- The buffer exists or is `NULL`. -/
def State.Has (s : State) (ptr : Option ℕ) : Prop := ∀ i, ptr = some i → i < s.bufs.length

/-- The arguments are what the functions are written for. -/
def Call.Valid (s : State) : Call → Prop
  | .create _ => True
  | .createFrom data len => data.isNull = true ∨ data.Valid s len
  | .clone ptr => s.Has ptr
  | .store ptr data size => s.Has ptr ∧ (data.isNull = true ∨ data.Valid s size)
  | .replace dst src => s.Has dst ∧ s.Has src
  | .concatenateRaw ptr data size => s.Has (some ptr) ∧ data.Valid s size
  | .concatenate dst src => s.Has dst ∧ s.Has src
  | .insertRaw ptr _ data size => s.Has ptr ∧ (data.isNull = true ∨ data.Valid s size)
  | .insert ptr _ data => s.Has ptr ∧ s.Has data
  | .shortenedTo ptr _ _ _ => s.Has ptr
  | .setLenth ptr _ _ => s.Has ptr
  | .reset ptr _ => s.Has ptr

/-! ## Bytes of the buffer itself -/

/-- The buffer does not grow by `size` bytes that are its own. -/
def Source.Stays (s : State) (i size : ℕ) : Source → Prop
  | .null => True
  | .array _ => True
  | .part j _ => j = i → ∀ p, s.bufs[i]? = some p → p.len + size ≤ p.capacity

/-- Bytes that are the buffer's own are not among those that an insertion moves back. -/
def Source.Unmoved (s : State) (i pos size : ℕ) : Source → Prop
  | .null => True
  | .array _ => True
  | .part j off => j = i → ∀ p, s.bufs[i]? = some p → p.len ≤ pos ∨ off ≤ pos ∨ p.len + size ≤ off

/-- No byte is appended or inserted that was in storage given back, or that was moved before it is read. -/
def Call.Safe (s : State) : Call → Prop
  | .concatenateRaw ptr data size => data.Stays s ptr size
  | .concatenate dst src => ∀ i j, dst = some i → src = some j → (Source.part j 0).Stays s i (s.lenOf j)
  | .insertRaw ptr pos data size => ∀ i, ptr = some i → size ≠ 0 → data.Stays s i size ∧ data.Unmoved s i pos size
  | .insert ptr _ data =>
      ∀ i j, ptr = some i → data = some j → s.lenOf j ≠ 0 → (Source.part j 0).Stays s i (s.lenOf j)
  | _ => True

/-! ## Buffers that hold lists -/

/-- A buffer holds a list: what is allocated is what its capacity says, the list stands in front, and what
was erased is zero. -/
def Represents (heap : Heap UInt8) (p : Buffer) (l : ListBuf) : Prop :=
  ∃ mem, heap.get p.buffer = some mem ∧ mem.length = p.capacity ∧ p.len ≤ p.capacity ∧
    mem.take p.len = l.bytes ∧ (l.erased = true → ∀ b ∈ mem.drop p.len, b = 0)

/-- Every buffer holds its list, in storage that is its own. -/
structure Models (s : State) (a : List ListBuf) : Prop where
  length : s.bufs.length = a.length
  holds : ∀ (i : ℕ) p l, s.bufs[i]? = some p → a[i]? = some l → Represents s.heap p l
  apart : ∀ (i j : ℕ) p q, s.bufs[i]? = some p → s.bufs[j]? = some q → i ≠ j → p.buffer ≠ q.buffer

/-- The bytes in use are those of the list. -/
structure Shows (t : BufferT) (l : ListBuf) : Prop where
  bytes : t.bytes = l.bytes
  erased : l.erased = true → ∀ b ∈ t.spare, b = 0

theorem represents_iff {heap : Heap UInt8} {p : Buffer} {l : ListBuf} :
    Represents heap p l ↔ ∃ t, Holds heap p t ∧ Shows t l := by
  constructor
  · rintro ⟨mem, hget, hcap, hlen, hbytes, hzero⟩
    refine ⟨BufferT.ofBuffer mem p.len, ⟨?_, ?_, ?_⟩, ⟨hbytes, hzero⟩⟩
    · rw [BufferT.ofBuffer_buffer]
      exact hget
    · rw [BufferT.ofBuffer_len (by rwa [hcap])]
    · rw [← BufferT.buffer_length, BufferT.ofBuffer_buffer, hcap]
  · rintro ⟨t, hheld, hshows⟩
    refine ⟨t.buffer, hheld.get, hheld.allocated.symm, ?_, ?_, ?_⟩
    · rw [hheld.len, hheld.capacity]
      exact t.len_le_capacity
    · rw [hheld.len, BufferT.take_len_buffer, hshows.bytes]
    · rw [hheld.len]
      intro herased b hb
      exact hshows.erased herased b (by rwa [BufferT.buffer, BufferT.len, List.drop_left] at hb)

/-! ## One operation on a buffer and on its list -/

section Operations

variable {t : BufferT} {l : ListBuf}

theorem Shows.len_eq (h : Shows t l) : t.len = l.len := by
  rw [BufferT.len, h.bytes]
  rfl

theorem Shows.cell (h : Shows t l) (k : ℕ) : l.cell (byteAt t.buffer) k = byteAt t.buffer k := by
  rw [ListBuf.cell]
  by_cases hin : k < l.len
  · rw [if_pos hin, BufferT.buffer, ← h.bytes, byteAt_append_left (by rw [h.bytes]; exact hin)]
  · rw [if_neg hin]
    by_cases herased : l.erased = true
    · have hle : t.bytes.length ≤ k := by
        rw [h.bytes]
        exact Nat.not_lt.1 hin
      rw [if_pos herased, BufferT.buffer, byteAt_append_right hle, byteAt, List.getD_eq_getElem?_getD]
      cases hget : t.spare[k - t.bytes.length]? with
      | none => rfl
      | some b => exact (h.erased herased b (List.mem_of_getElem? hget)).symm
    · rw [if_neg herased]

/-- What the list says about the storage is what stands there. -/
theorem Shows.cells (h : Shows t l) (off n : ℕ) : l.cells (byteAt t.buffer) off n = window t.buffer off n :=
  List.map_congr_left fun k _ => h.cell (off + k)

/-- Behind what is in use are zeros, also where the storage was enlarged. -/
theorem Shows.spare_zero (h : Shows t l) (herased : l.erased = true) (capacity n : ℕ) :
    ∀ b ∈ (t.enlarge capacity).spare.drop n, b = 0 := by
  intro b hb
  rcases List.mem_append.1 (List.mem_of_mem_drop hb) with hspare | hzero
  · exact h.erased herased b hspare
  · exact List.eq_of_mem_replicate hzero

theorem Shows.zero_behind (h : Shows t l) (herased : l.erased = true) {n : ℕ} (hn : l.len ≤ n) (capacity : ℕ) :
    ∀ b ∈ (t.enlarge capacity).buffer.drop n, b = 0 := by
  intro b hb
  have hle : t.bytes.length ≤ n := by
    rw [h.bytes]
    exact hn
  rw [BufferT.buffer, List.drop_append, BufferT.enlarge_bytes, List.drop_eq_nil_of_le hle, List.nil_append] at hb
  exact h.spare_zero herased capacity _ b hb

/-- Other bytes take the place of those in use. -/
theorem Shows.replaceBytes (h : Shows t l) {bytes spare : Bytes} {eraseInvalid : Bool} (capacity : ℕ)
    (hkept : eraseInvalid = false → spare = (t.enlarge capacity).buffer.drop bytes.length)
    (hzero : eraseInvalid = true → ∀ b ∈ spare, b = 0) :
    Shows ⟨bytes, spare⟩ (l.replaceBytes bytes eraseInvalid) := by
  refine ⟨rfl, fun herased => ?_⟩
  cases eraseInvalid with
  | true => exact hzero rfl
  | false =>
      rw [ListBuf.replaceBytes, Bool.false_or, Bool.and_eq_true, decide_eq_true_iff] at herased
      change ∀ b ∈ spare, b = 0
      rw [hkept rfl]
      exact h.zero_behind herased.1 herased.2 capacity

theorem Shows.setLenth (h : Shows t l) (length : ℕ) (eraseInvalid : Bool) :
    Shows (t.setLenth length eraseInvalid) (l.setLenth (byteAt t.buffer) length eraseInvalid) := by
  have hbytes : (t.enlarge length).buffer.take length = l.cells (byteAt t.buffer) 0 length := by
    have hroom : 0 + length ≤ (t.enlarge length).buffer.length := by
      rw [Nat.zero_add]
      exact t.le_enlarge_buffer length
    calc
      (t.enlarge length).buffer.take length = window (t.enlarge length).buffer 0 length := by
        rw [window_eq_take hroom, List.drop_zero]
      _ = window t.buffer 0 length := by
        rw [BufferT.enlarge_buffer]
        exact window_congr fun k _ => byteAt_zeros _ _ k
      _ = l.cells (byteAt t.buffer) 0 length := (h.cells 0 length).symm
  have hlen : (l.cells (byteAt t.buffer) 0 length).length = length := by
    rw [ListBuf.cells, List.length_map, List.length_range]
  rw [ListBuf.setLenth, BufferT.setLenth, ← hbytes]
  rw [← hbytes] at hlen
  cases eraseInvalid with
  | false =>
      refine h.replaceBytes length (fun _ => ?_) (fun herase => absurd herase Bool.false_ne_true)
      rw [hlen]
  | true =>
      refine h.replaceBytes length (fun herase => absurd herase.symm Bool.false_ne_true) fun _ b hb => ?_
      exact List.eq_of_mem_replicate hb

theorem Shows.store (h : Shows t l) (data : Bytes) : Shows (t.store data) (l.store data) :=
  h.replaceBytes data.length (fun _ => rfl) fun herase => absurd herase Bool.false_ne_true

theorem Shows.append (h : Shows t l) (data : Bytes) : Shows (t.concatenate data) (l.append data) :=
  ⟨congrArg (· ++ data) h.bytes, fun herased => h.spare_zero herased _ _⟩

theorem Shows.insert (h : Shows t l) (pos : ℕ) (data : Bytes) :
    Shows (t.insert (min pos t.len) data) (l.insert pos data) := by
  refine ⟨?_, fun herased => h.spare_zero herased _ _⟩
  rw [BufferT.insert, ListBuf.insert, h.bytes, h.len_eq]

theorem Shows.part (h : Shows t l) {begin len : ℕ} (hin : begin + len ≤ l.len) (eraseInvalid : Bool) :
    Shows (t.part begin len eraseInvalid) (l.shortenedTo begin len eraseInvalid) := by
  have hlen : ((l.bytes.drop begin).take len).length = len := by
    refine List.length_take_of_le ?_
    rw [List.length_drop]
    exact Nat.le_sub_of_add_le' hin
  rw [ListBuf.shortenedTo, if_pos hin, BufferT.part, h.bytes]
  refine h.replaceBytes 0 (fun hkept => ?_) fun herase b hb => ?_
  · rw [hkept, if_neg Bool.false_ne_true, hlen, BufferT.enlarge_of_le (Nat.zero_le _)]
  · rw [if_pos herase] at hb
    exact List.eq_of_mem_replicate hb

theorem Shows.clone (h : Shows t l) : Shows ⟨t.bytes, List.replicate t.spare.length 0⟩ l.clone :=
  ⟨h.bytes, fun _ _ hb => List.eq_of_mem_replicate hb⟩

theorem shows_empty (capacity : ℕ) : Shows ⟨[], List.replicate capacity 0⟩ .empty :=
  ⟨rfl, fun _ _ hb => List.eq_of_mem_replicate hb⟩

theorem ListBuf.cells_whole (l : ListBuf) (behind : ℕ → UInt8) : l.cells behind 0 l.len = l.bytes := by
  apply List.ext_getElem
  · rw [ListBuf.cells, List.length_map, List.length_range]
    rfl
  · intro i hi hi'
    have hlt : i < l.len := hi'
    simp [ListBuf.cells, ListBuf.cell, hlt, byteAt, List.getD_eq_getElem?_getD, hi']

/-- Where everything was erased nothing is left behind. -/
theorem ListBuf.setLenth_erased {l : ListBuf} (h : l.erased = true) (behind behind' : ℕ → UInt8) (length : ℕ)
    (eraseInvalid : Bool) : l.setLenth behind length eraseInvalid = l.setLenth behind' length eraseInvalid := by
  have hcells : l.cells behind 0 length = l.cells behind' 0 length :=
    List.map_congr_left fun k _ => by rw [ListBuf.cell, ListBuf.cell, if_pos h, if_pos h]
  rw [ListBuf.setLenth, ListBuf.setLenth, hcells]

theorem ListBuf.insert_nil (l : ListBuf) (pos : ℕ) : l.insert pos [] = l := by
  rw [ListBuf.insert, List.append_nil, List.take_append_drop]

end Operations

/-! ## One call -/

section Calls

variable {s : State} {a : List ListBuf}

theorem Models.find (hm : Models s a) {i : ℕ} (hi : i < s.bufs.length) :
    ∃ p l t, s.bufs[i]? = some p ∧ a[i]? = some l ∧ Holds s.heap p t ∧ Shows t l := by
  have hbuf := List.getElem?_eq_getElem hi
  have hlist := List.getElem?_eq_getElem (l := a) (hm.length ▸ hi)
  rcases represents_iff.1 (hm.holds i _ _ hbuf hlist) with ⟨t, hheld, hshows⟩
  exact ⟨_, _, t, hbuf, hlist, hheld, hshows⟩

theorem behind_eq {i : ℕ} {p : Buffer} {t : BufferT} (hi : s.bufs[i]? = some p) (hheld : Holds s.heap p t) :
    s.behind i = byteAt t.buffer := by
  rw [State.behind, hi, Option.bind_some, hheld.get, Option.getD_some]

/-- One buffer has changed or is new, and the others have kept their storage. -/
theorem Models.changed (hm : Models s a) {own : Option ℕ} {o : Outcome} {t : BufferT} {l : ListBuf}
    (hdone : Done s.heap own o t) (hshows : Shows t l) {bufs : List Buffer} {a' : List ListBuf} {i : ℕ}
    (hlen : bufs.length = a'.length) (hbuf : bufs[i]? = some o.ptr) (hlist : a'[i]? = some l)
    (hrest : ∀ (j : ℕ) q, j ≠ i → bufs[j]? = some q →
      s.bufs[j]? = some q ∧ a'[j]? = a[j]? ∧ some q.buffer ≠ own) : Models ⟨o.heap, bufs⟩ a' := by
  have hkept : ∀ (j : ℕ) q, j ≠ i → bufs[j]? = some q → q.buffer ≠ o.ptr.buffer ∧
      ∀ mem, s.heap.get q.buffer = some mem → o.heap.get q.buffer = some mem := by
    intro j q hne hj
    rcases hrest j q hne hj with ⟨hold, _, hown⟩
    rcases hm.find (List.getElem?_eq_some_iff.1 hold).1 with ⟨q', _, t', hj', _, hheld, _⟩
    obtain rfl : q' = q := Option.some.inj (hj'.symm.trans hold)
    exact ⟨(hdone.leaves.frame _ _ hown hheld.get).2, fun mem hget => (hdone.leaves.frame _ _ hown hget).1⟩
  refine ⟨hlen, fun j q l' hq hl' => ?_, fun j k q r hq hr hne => ?_⟩
  · by_cases hj : j = i
    · subst hj
      rw [← Option.some.inj (hbuf.symm.trans hq), ← Option.some.inj (hlist.symm.trans hl')]
      exact represents_iff.2 ⟨t, hdone.holds, hshows⟩
    · rcases hrest j q hj hq with ⟨hold, hsame, _⟩
      rcases hm.holds j q l' hold (hsame.symm.trans hl') with ⟨mem, hget, hmem⟩
      exact ⟨mem, (hkept j q hj hq).2 mem hget, hmem⟩
  · by_cases hj : j = i
    · subst hj
      rw [← Option.some.inj (hbuf.symm.trans hq)]
      exact (hkept k r hne.symm hr).1.symm
    · by_cases hk : k = i
      · subst hk
        rw [← Option.some.inj (hbuf.symm.trans hr)]
        exact (hkept j q hj hq).1
      · exact hm.apart j k q r (hrest j q hj hq).1 (hrest k r hk hr).1 hne

theorem Models.set (hm : Models s a) {i : ℕ} {p : Buffer} (hi : s.bufs[i]? = some p) {o : Outcome} {t : BufferT}
    {l : ListBuf} (hdone : Done s.heap (some p.buffer) o t) (hshows : Shows t l) :
    Models ⟨o.heap, s.bufs.set i o.ptr⟩ (a.set i l) := by
  have hlt := (List.getElem?_eq_some_iff.1 hi).1
  refine hm.changed (i := i) hdone hshows ?_ (List.getElem?_set_self hlt) (List.getElem?_set_self (hm.length ▸ hlt)) ?_
  · rw [List.length_set, List.length_set, hm.length]
  · intro j q hne hq
    rw [List.getElem?_set_ne hne.symm] at hq
    exact ⟨hq, List.getElem?_set_ne hne.symm, fun heq => hm.apart j i q p hq hi hne (Option.some.inj heq)⟩

theorem Models.add (hm : Models s a) {o : Outcome} {t : BufferT} {l : ListBuf} (hdone : Done s.heap none o t)
    (hshows : Shows t l) : Models ⟨o.heap, s.bufs ++ [o.ptr]⟩ (a ++ [l]) := by
  have hlist : (a ++ [l])[s.bufs.length]? = some l := by
    rw [hm.length]
    exact List.getElem?_concat_length
  refine hm.changed (i := s.bufs.length) hdone hshows ?_ List.getElem?_concat_length hlist ?_
  · rw [List.length_append, List.length_append, hm.length]
    rfl
  · intro j q hne hq
    have hlt : j < s.bufs.length := by
      have hle := (List.getElem?_eq_some_iff.1 hq).1
      rw [List.length_append, List.length_singleton] at hle
      omega
    rw [List.getElem?_append_left hlt] at hq
    exact ⟨hq, List.getElem?_append_left (hm.length ▸ hlt), Option.some_ne_none _⟩

theorem Source.eq_null {data : Source} (h : data.isNull = true) : data = .null := by
  cases data with
  | null => rfl
  | array l => exact absurd h Bool.false_ne_true
  | part i off => exact absurd h Bool.false_ne_true

/-- What is true for every buffer that a function may be called with. -/
theorem update_models (hm : Models s a) {ptr : Option ℕ} (hptr : s.Has ptr) {f : Buffer → Option Outcome}
    {g : ℕ → ListBuf → ListBuf}
    (h : ∀ i p l t, ptr = some i → s.bufs[i]? = some p → a[i]? = some l → Holds s.heap p t → Shows t l →
      ∃ o t', f p = some o ∧ Done s.heap (some p.buffer) o t' ∧ Shows t' (g i l)) :
    ∃ s', s.update ptr f = some s' ∧ Models s' (updateAt a ptr g) := by
  cases ptr with
  | none => exact ⟨s, rfl, hm⟩
  | some i =>
      rcases hm.find (hptr i rfl) with ⟨p, l, t, hbuf, hlist, hheld, hshows⟩
      rcases h i p l t rfl hbuf hlist hheld hshows with ⟨o, t', hrun, hdone, hshows'⟩
      refine ⟨⟨o.heap, s.bufs.set i o.ptr⟩, ?_, ?_⟩
      · rw [State.update, Option.elim_some, hbuf, Option.bind_some, hrun, Option.map_some]
      · rw [updateAt, Option.elim_some, hlist, Option.elim_some]
        exact hm.set hbuf hdone hshows'

/-- The bytes that a valid pointer points to are those that the lists have. -/
theorem read_data (hm : Models s a) {data : Source} {size : ℕ} (hvalid : data.Valid s size) :
    ∃ d, s.pointer data = some d ∧
      d.read s.heap size = some (data.data s.behind a size) := by
  cases data with
  | null =>
      have hzero : size = 0 := hvalid
      exact ⟨.null, rfl, if_pos hzero⟩
  | array l =>
      have hle : size ≤ l.length := hvalid
      refine ⟨.array l, rfl, ?_⟩
      rw [Pointer.read, Lib.Memory.load, if_pos (by omega), List.drop_zero]
      rfl
  | part i off =>
      rcases hvalid with ⟨p, hi, hroom⟩
      rcases hm.find (List.getElem?_eq_some_iff.1 hi).1 with ⟨p', l, t, hi', hlist, hheld, hshows⟩
      obtain rfl : p' = p := Option.some.inj (hi'.symm.trans hi)
      rw [hheld.allocated] at hroom
      refine ⟨.block p'.buffer off, by rw [State.pointer, hi, Option.map_some], ?_⟩
      rw [Pointer.read, Heap.read_of_get hheld.get, Lib.Memory.load, if_pos hroom, Source.data, hlist,
        Option.elim_some, behind_eq hi hheld, hshows.cells, window_eq_take hroom]

/-- A pointer into another buffer is outside of the storage of this one. -/
theorem outside_or_own (hm : Models s a) {i : ℕ} {p : Buffer} (hi : s.bufs[i]? = some p) {data : Source} {d : Pointer}
    (hd : s.pointer data = some d) : d.Outside p ∨ ∃ off, data = .part i off ∧ d = .block p.buffer off := by
  cases data with
  | null =>
      rw [← Option.some.inj hd]
      exact Or.inl trivial
  | array l =>
      rw [← Option.some.inj hd]
      exact Or.inl trivial
  | part j off =>
      rcases Option.map_eq_some_iff.1 hd with ⟨q, hj, rfl⟩
      by_cases hji : j = i
      · subst hji
        obtain rfl : q = p := Option.some.inj (hj.symm.trans hi)
        exact Or.inr ⟨off, rfl, rfl⟩
      · exact Or.inl (hm.apart j i q p hj hi hji)

variable (junk : ℕ → ℕ → UInt8)

theorem store_models (hm : Models s a) {ptr : Option ℕ} {data : Source} {size : ℕ}
    (hvalid : (Call.store ptr data size).Valid s) :
    ∃ s', s.step junk (.store ptr data size) = some s' ∧
      Models s' (listStep s.behind a (.store ptr data size)) := by
  rcases hvalid with ⟨hptr, hdata⟩
  by_cases hnull : data.isNull = true
  · obtain rfl := Source.eq_null hnull
    rw [State.step, State.pointer, Option.bind_some, listStep]
    refine update_models hm hptr fun i p l t _ hbuf _ hheld hshows => ?_
    rcases bufferStore_null junk hheld size with ⟨o, hrun, _, hdone⟩
    have hshown := hshows.setLenth size false
    rw [← behind_eq hbuf hheld] at hshown
    exact ⟨o, _, hrun, hdone, hshown⟩
  · rcases read_data hm (hdata.resolve_left hnull) with ⟨d, hd, hread⟩
    rw [State.step, hd, Option.bind_some, listStep]
    refine update_models hm hptr fun i p l t _ hbuf _ hheld hshows => ?_
    have hstays : d.Outside p ∨ size ≤ p.capacity := by
      refine (outside_or_own hm hbuf hd).imp_right ?_
      rintro ⟨off, rfl, _⟩
      rcases hdata.resolve_left hnull with ⟨q, hq, hroom⟩
      obtain rfl : q = p := Option.some.inj (hq.symm.trans hbuf)
      exact Nat.le_trans (Nat.le_add_left _ _) hroom
    rcases bufferStore_done junk hheld hstays hread with ⟨o, hrun, _, hdone⟩
    refine ⟨o, _, hrun, hdone, ?_⟩
    rw [if_neg hnull]
    exact hshows.store _

theorem concatenateRaw_models (hm : Models s a) {ptr : ℕ} {data : Source} {size : ℕ}
    (hvalid : (Call.concatenateRaw ptr data size).Valid s) (hsafe : (Call.concatenateRaw ptr data size).Safe s) :
    ∃ s', s.step junk (.concatenateRaw ptr data size) = some s' ∧
      Models s' (listStep s.behind a (.concatenateRaw ptr data size)) := by
  rcases hvalid with ⟨hptr, hdata⟩
  rcases read_data hm hdata with ⟨d, hd, hread⟩
  rw [State.step, hd, Option.bind_some, listStep]
  refine update_models hm hptr fun i p l t hi hbuf _ hheld hshows => ?_
  obtain rfl := Option.some.inj hi
  have hstays : d.Outside p ∨ p.len + size ≤ p.capacity := by
    refine (outside_or_own hm hbuf hd).imp_right ?_
    rintro ⟨off, rfl, _⟩
    exact hsafe rfl p hbuf
  rcases bufferConcatenateRaw_done junk hheld hstays hread with ⟨o, hrun, _, hdone⟩
  exact ⟨o, _, hrun, hdone, hshows.append _⟩

theorem insertRaw_models (hm : Models s a) {ptr : Option ℕ} {pos : ℕ} {data : Source} {size : ℕ}
    (hvalid : (Call.insertRaw ptr pos data size).Valid s) (hsafe : (Call.insertRaw ptr pos data size).Safe s) :
    ∃ s', s.step junk (.insertRaw ptr pos data size) = some s' ∧
      Models s' (listStep s.behind a (.insertRaw ptr pos data size)) := by
  rcases hvalid with ⟨hptr, hdata⟩
  by_cases hnull : data.isNull = true
  · obtain rfl := Source.eq_null hnull
    rw [State.step, State.pointer, Option.bind_some, listStep]
    refine update_models hm hptr fun i p l t _ _ _ hheld hshows => ?_
    refine ⟨_, t, bufferInsertRaw_skip junk pos (Or.inl rfl), hheld.unchanged, ?_⟩
    rw [Source.data, ListBuf.insert_nil]
    exact hshows
  · rcases read_data hm (hdata.resolve_left hnull) with ⟨d, hd, hread⟩
    rw [State.step, hd, Option.bind_some, listStep]
    refine update_models hm hptr fun i p l t hi hbuf _ hheld hshows => ?_
    by_cases hskip : d.isNull = true ∨ size = 0
    · have hempty := Pointer.read_skipped hskip hread
      refine ⟨_, t, bufferInsertRaw_skip junk pos hskip, hheld.unchanged, ?_⟩
      rw [hempty, ListBuf.insert_nil]
      exact hshows
    · have hstays : d.Outside p ∨ (p.len + size ≤ p.capacity ∧ d.Unmoved p pos size) := by
        refine (outside_or_own hm hbuf hd).imp_right ?_
        rintro ⟨off, rfl, rfl⟩
        rcases hsafe i hi (fun hzero => hskip (Or.inr hzero)) with ⟨hroom, hunmoved⟩
        exact ⟨hroom rfl p hbuf, hunmoved rfl p hbuf⟩
      rcases bufferInsertRaw_done junk hheld pos hskip hstays hread with ⟨o, hrun, hdone⟩
      exact ⟨o, _, hrun, hdone, hshows.insert pos _⟩

/-- The bytes of another buffer, or of the same. -/
theorem data_whole (hm : Models s a) (behind : ℕ → ℕ → UInt8) {j : ℕ} {q : Buffer} (hj : s.bufs[j]? = some q) :
    (Source.part j 0).data behind a q.len = bytesOf a j := by
  rcases hm.find (List.getElem?_eq_some_iff.1 hj).1 with ⟨q', l, t, hj', hlist, hheld, hshows⟩
  obtain rfl : q' = q := Option.some.inj (hj'.symm.trans hj)
  rw [Source.data, bytesOf, hlist, Option.elim_some, Option.elim_some, hheld.len, hshows.len_eq]
  exact l.cells_whole (behind j)

theorem valid_whole (hm : Models s a) {j : ℕ} {q : Buffer} (hj : s.bufs[j]? = some q) :
    (Source.part j 0).Valid s q.len := by
  rcases hm.find (List.getElem?_eq_some_iff.1 hj).1 with ⟨q', l, t, hj', _, hheld, _⟩
  obtain rfl : q' = q := Option.some.inj (hj'.symm.trans hj)
  refine ⟨q', hj, ?_⟩
  rw [Nat.zero_add, hheld.len, hheld.capacity]
  exact t.len_le_capacity

theorem Has.find {j : ℕ} (h : s.Has (some j)) : ∃ q, s.bufs[j]? = some q :=
  ⟨_, List.getElem?_eq_getElem (h j rfl)⟩

/-- `buffer_replace` stores the bytes of the other buffer. -/
theorem replace_models (hm : Models s a) {dst src : Option ℕ} (hvalid : (Call.replace dst src).Valid s) :
    ∃ s', s.step junk (.replace dst src) = some s' ∧
      Models s' (listStep s.behind a (.replace dst src)) := by
  cases src with
  | none =>
      refine update_models hm hvalid.1 fun i p l t _ hbuf _ hheld hshows => ?_
      rcases bufferSetLenth_done junk hheld 0 true with ⟨o, hrun, hdone⟩
      have hshown := hshows.setLenth 0 true
      rw [← behind_eq hbuf hheld] at hshown
      exact ⟨o, _, hrun, hdone, hshown⟩
  | some j =>
      rcases Has.find hvalid.2 with ⟨q, hj⟩
      have hstep : s.step junk (.replace dst (some j)) = s.step junk (.store dst (.part j 0) q.len) := by
        rw [State.step, State.step, State.find, State.pointer, hj]
        rfl
      have hlist : listStep s.behind a (.replace dst (some j)) =
          listStep s.behind a (.store dst (.part j 0) q.len) := by
        rw [listStep, listStep, data_whole hm _ hj]
        rfl
      rw [hstep, hlist]
      exact store_models junk hm ⟨hvalid.1, Or.inr (valid_whole hm hj)⟩

/-- `buffer_concatenate` appends the bytes of the other buffer. -/
theorem concatenate_models (hm : Models s a) {dst src : Option ℕ} (hvalid : (Call.concatenate dst src).Valid s)
    (hsafe : (Call.concatenate dst src).Safe s) :
    ∃ s', s.step junk (.concatenate dst src) = some s' ∧
      Models s' (listStep s.behind a (.concatenate dst src)) := by
  cases src with
  | none =>
      exact update_models hm hvalid.1 fun i p l t _ _ _ hheld hshows => ⟨_, t, rfl, hheld.unchanged, hshows⟩
  | some j =>
      rcases Has.find hvalid.2 with ⟨q, hj⟩
      cases dst with
      | none =>
          refine ⟨s, ?_, hm⟩
          rw [State.step, State.find, hj]
          rfl
      | some i =>
          have hstep : s.step junk (.concatenate (some i) (some j)) =
              s.step junk (.concatenateRaw i (.part j 0) q.len) := by
            rw [State.step, State.step, State.find, State.pointer, hj]
            rfl
          have hlist : listStep s.behind a (.concatenate (some i) (some j)) =
              listStep s.behind a (.concatenateRaw i (.part j 0) q.len) := by
            rw [listStep, listStep, data_whole hm _ hj]
            rfl
          have hstays := hsafe i j rfl rfl
          rw [State.lenOf, hj, Option.elim_some] at hstays
          rw [hstep, hlist]
          exact concatenateRaw_models junk hm ⟨hvalid.1, valid_whole hm hj⟩ hstays

/-- `buffer_insert` inserts the bytes of the other buffer. -/
theorem insert_models (hm : Models s a) {ptr data : Option ℕ} {pos : ℕ} (hvalid : (Call.insert ptr pos data).Valid s)
    (hsafe : (Call.insert ptr pos data).Safe s) :
    ∃ s', s.step junk (.insert ptr pos data) = some s' ∧
      Models s' (listStep s.behind a (.insert ptr pos data)) := by
  cases data with
  | none =>
      exact update_models hm hvalid.1 fun i p l t _ _ _ hheld hshows => ⟨_, t, rfl, hheld.unchanged, hshows⟩
  | some j =>
      rcases Has.find hvalid.2 with ⟨q, hj⟩
      have hstep : s.step junk (.insert ptr pos (some j)) = s.step junk (.insertRaw ptr pos (.part j 0) q.len) := by
        rw [State.step, State.step, State.find, State.pointer, hj]
        rfl
      have hlist : listStep s.behind a (.insert ptr pos (some j)) =
          listStep s.behind a (.insertRaw ptr pos (.part j 0) q.len) := by
        rw [listStep, listStep, data_whole hm _ hj]
        rfl
      rw [hstep, hlist]
      refine insertRaw_models junk hm ⟨hvalid.1, Or.inr (valid_whole hm hj)⟩ fun i hi hsize => ⟨?_, ?_⟩
      · have hstays := hsafe i j hi rfl
        rw [State.lenOf, hj, Option.elim_some] at hstays
        exact hstays hsize
      -- its first byte stands in front of everything that is moved
      · exact fun _ p _ => Or.inr (Or.inl (Nat.zero_le pos))

/-- The part is cut out when it is inside. -/
theorem shortenedTo_models (hm : Models s a) {ptr : Option ℕ} (begin len : ℕ) (eraseInvalid : Bool)
    (hptr : s.Has ptr) :
    ∃ s', s.step junk (.shortenedTo ptr begin len eraseInvalid) = some s' ∧
      Models s' (listStep s.behind a (.shortenedTo ptr begin len eraseInvalid)) := by
  refine update_models hm hptr fun i p l t _ _ _ hheld hshows => ?_
  by_cases hin : begin + len ≤ l.len
  · rcases bufferShortenedTo_done hheld (hshows.len_eq ▸ hin) eraseInvalid with ⟨o, hrun, hdone⟩
    exact ⟨o, _, hrun, hdone, hshows.part hin eraseInvalid⟩
  · have hguard : ¬ (begin ≤ p.len ∧ len ≤ p.len - begin) := by
      rw [hheld.len, hshows.len_eq]
      omega
    refine ⟨_, t, bufferShortenedTo_refused hguard eraseInvalid, hheld.unchanged, ?_⟩
    rw [ListBuf.shortenedTo, if_neg hin]
    exact hshows

theorem setLenth_models (hm : Models s a) {ptr : Option ℕ} (length : ℕ) (eraseInvalid : Bool) (hptr : s.Has ptr) :
    ∃ s', s.step junk (.setLenth ptr length eraseInvalid) = some s' ∧
      Models s' (listStep s.behind a (.setLenth ptr length eraseInvalid)) := by
  refine update_models hm hptr fun i p l t _ hbuf _ hheld hshows => ?_
  rcases bufferSetLenth_done junk hheld length eraseInvalid with ⟨o, hrun, hdone⟩
  have hshown := hshows.setLenth length eraseInvalid
  rw [← behind_eq hbuf hheld] at hshown
  exact ⟨o, _, hrun, hdone, hshown⟩

theorem create_models (hm : Models s a) (capacity : ℕ) :
    ∃ s', s.step junk (.create capacity) = some s' ∧
      Models s' (listStep s.behind a (.create capacity)) := by
  refine ⟨_, ?_, hm.add (bufferCreate_done s.heap capacity) (shows_empty capacity)⟩
  rw [State.step, bufferCreate_eq]
  rfl

theorem createFrom_models (hm : Models s a) {data : Source} {len : ℕ} (hvalid : (Call.createFrom data len).Valid s) :
    ∃ s', s.step junk (.createFrom data len) = some s' ∧
      Models s' (listStep s.behind a (.createFrom data len)) := by
  have hempty := shows_empty (max 1 len * 2)
  by_cases hnull : data.isNull = true
  · obtain rfl := Source.eq_null hnull
    rcases bufferCreateFrom_null junk s.heap len with ⟨o, hrun, hdone⟩
    have hzero : ListBuf.empty.setLenth (byteAt ([] ++ List.replicate (max 1 len * 2) 0)) len false =
        ListBuf.empty.setLenth (fun _ => 0) len false := ListBuf.setLenth_erased rfl _ _ _ _
    have hshown := hempty.setLenth len false
    rw [BufferT.buffer, hzero] at hshown
    rw [State.step, State.pointer, Option.bind_some, hrun, listStep, if_pos hnull]
    exact ⟨_, rfl, hm.add hdone hshown⟩
  · rcases read_data hm (hvalid.resolve_left hnull) with ⟨d, hd, hread⟩
    rcases bufferCreateFrom_done junk hread with ⟨o, hrun, hdone⟩
    rw [State.step, hd, Option.bind_some, hrun, listStep, if_neg hnull]
    exact ⟨_, rfl, hm.add hdone (hempty.store _)⟩

theorem clone_models (hm : Models s a) {ptr : Option ℕ} (hptr : s.Has ptr) :
    ∃ s', s.step junk (.clone ptr) = some s' ∧
      Models s' (listStep s.behind a (.clone ptr)) := by
  cases ptr with
  | none => exact ⟨s, rfl, hm⟩
  | some i =>
      rcases hm.find (hptr i rfl) with ⟨p, l, t, hbuf, hlist, hheld, hshows⟩
      rcases bufferClone_done hheld with ⟨o, hrun, hdone⟩
      rw [State.step, Option.elim_some, hbuf, Option.bind_some, hrun, listStep, Option.elim_some, hlist]
      exact ⟨_, rfl, hm.add hdone hshows.clone⟩

/-- Own bytes are lost whenever the buffer has to grow for them. -/
theorem concatenateRaw_own {i : ℕ} {p : Buffer} (hi : s.bufs[i]? = some p) {size : ℕ}
    (hgrow : p.capacity < p.len + size) (off : ℕ) : s.step junk (.concatenateRaw i (.part i off) size) = none := by
  rw [State.step, State.pointer, hi, Option.map_some, Option.bind_some, State.update, Option.elim_some, hi,
    Option.bind_some, bufferConcatenateRaw_own junk hgrow, Option.map_none]

theorem insertRaw_own {i : ℕ} {p : Buffer} (hi : s.bufs[i]? = some p) {size : ℕ}
    (hgrow : p.capacity < p.len + size) (hsize : size ≠ 0) (pos off : ℕ) :
    s.step junk (.insertRaw (some i) pos (.part i off) size) = none := by
  rw [State.step, State.pointer, hi, Option.map_some, Option.bind_some, State.update, Option.elim_some, hi,
    Option.bind_some, bufferInsertRaw_own junk hgrow hsize, Option.map_none]

/-- What a call does to the buffers it does to their lists. -/
theorem step_models (hm : Models s a) {c : Call} (hvalid : c.Valid s) (hsafe : c.Safe s) :
    ∃ s', s.step junk c = some s' ∧ Models s' (listStep s.behind a c) := by
  cases c with
  | create capacity => exact create_models junk hm capacity
  | createFrom data len => exact createFrom_models junk hm hvalid
  | clone ptr => exact clone_models junk hm hvalid
  | store ptr data size => exact store_models junk hm hvalid
  | replace dst src => exact replace_models junk hm hvalid
  | concatenateRaw ptr data size => exact concatenateRaw_models junk hm hvalid hsafe
  | concatenate dst src => exact concatenate_models junk hm hvalid hsafe
  | insertRaw ptr pos data size => exact insertRaw_models junk hm hvalid hsafe
  | insert ptr pos data => exact insert_models junk hm hvalid hsafe
  | shortenedTo ptr begin len eraseInvalid => exact shortenedTo_models junk hm begin len eraseInvalid hvalid
  | setLenth ptr length eraseInvalid => exact setLenth_models junk hm length eraseInvalid hvalid
  | reset ptr eraseInvalid => exact setLenth_models junk hm 0 eraseInvalid hvalid

end Calls

/-! ## All calls -/

section Runs

variable (junk : ℕ → ℕ → UInt8)

/-- A call after others.  There is no state any more once memory was touched that is not allocated. -/
def call (s : Option State) (c : Call) : Option State := s.bind fun s => s.step junk c

/-- The arguments of a call are what the functions are written for. -/
def Callable (s : Option State) (c : Call) : Prop := ∀ s', s = some s' → c.Valid s'

/-- Moreover nothing is lost of what is the buffer's own. -/
def Allowed (s : Option State) (c : Call) : Prop := ∀ s', s = some s' → c.Valid s' ∧ c.Safe s'

theorem models_initial : Models State.initial [] :=
  ⟨rfl, fun _ _ _ h => absurd h (by simp [State.initial]), fun _ _ _ _ h => absurd h (by simp [State.initial])⟩

theorem run_models {s : State} {a : List ListBuf} (hm : Models s a) {calls : List Call}
    (h : Legal Allowed (call junk) (some s) calls) :
    ∃ s' a', calls.foldl (call junk) (some s) = some s' ∧ ListRun a calls a' ∧ Models s' a' := by
  induction calls generalizing s a with
  | nil => exact ⟨s, a, rfl, rfl, hm⟩
  | cons c calls ih =>
      have hallowed := h.1 s rfl
      rcases step_models junk hm hallowed.1 hallowed.2 with ⟨s₁, hstep, hm₁⟩
      have hcall : call junk (some s) c = some s₁ := hstep
      have hrest := h.2
      rw [hcall] at hrest
      rcases ih hm₁ hrest with ⟨s', a', hrun, hlists, hm'⟩
      refine ⟨s', a', ?_, ⟨s.behind, hlists⟩, hm'⟩
      rw [List.foldl_cons, hcall, hrun]

/-- Whatever has been called on any number of buffers, they all exist, each is in storage of its own of which
the size is its capacity, and the bytes in use are those of its list. -/
theorem buffers_are_lists {calls past : List Call} (h : Legal Allowed (call junk) (some State.initial) calls)
    (hpast : past <+: calls) :
    ∃ s a, past.foldl (call junk) (some State.initial) = some s ∧ ListRun [] past a ∧ Models s a := by
  rcases hpast with ⟨rest, rfl⟩
  exact run_models junk models_initial h.append_left

end Runs

/-- A buffer that grows, and its clone. -/
theorem buffers_are_lists_grown :
    ∃ s a, [Call.create 1, .concatenateRaw 0 (.array [7, 8]) 2, .clone (some 0)].foldl (call fun _ _ => 0)
        (some State.initial) = some s ∧
      ListRun [] [Call.create 1, .concatenateRaw 0 (.array [7, 8]) 2, .clone (some 0)] a ∧ Models s a := by
  have h : Legal Allowed (call fun _ _ => 0) (some State.initial)
      [Call.create 1, .concatenateRaw 0 (.array [7, 8]) 2, .clone (some 0)] := by
    refine ⟨fun _ _ => ⟨trivial, trivial⟩, fun s hs => ?_, fun s hs => ?_, trivial⟩
    · obtain rfl := Option.some.inj hs
      exact ⟨⟨by simp [State.Has], by simp [Source.Valid]⟩, trivial⟩
    · obtain rfl := Option.some.inj hs
      exact ⟨by simp [Call.Valid, State.Has], trivial⟩
  exact buffers_are_lists (fun _ _ => 0) h (List.prefix_refl _)

/-- Two bytes that fill their buffer are put behind themselves. -/
def ownAppended : List Call := [.create 2, .store (some 0) (.array [1, 2]) 2, .concatenate (some 0) (some 0)]

/-- The last of three bytes is put behind the first. -/
def ownInserted : List Call := [.create 8, .store (some 0) (.array [1, 2, 3]) 3, .insertRaw (some 0) 1 (.part 0 2) 1]

/-- The two bytes are read from storage that was given back, and the last of three has been moved when it is
read. -/
theorem own_bytes_lost :
    (Legal Callable (call fun _ _ => 0) (some State.initial) ownAppended ∧
      ¬ ∃ s a, ownAppended.foldl (call fun _ _ => 0) (some State.initial) = some s ∧ ListRun [] ownAppended a ∧
        Models s a) ∧
    (Legal Callable (call fun _ _ => 0) (some State.initial) ownInserted ∧
      ¬ ∃ s a, ownInserted.foldl (call fun _ _ => 0) (some State.initial) = some s ∧ ListRun [] ownInserted a ∧
        Models s a) := by
  refine ⟨⟨⟨fun _ _ => trivial, fun s hs => ?_, fun s hs => ?_, trivial⟩, ?_⟩,
    ⟨⟨fun _ _ => trivial, fun s hs => ?_, fun s hs => ?_, trivial⟩, ?_⟩⟩
  · obtain rfl := Option.some.inj hs
    exact ⟨by simp [State.Has], Or.inr (by simp [Source.Valid])⟩
  · obtain rfl := Option.some.inj hs
    exact ⟨by simp [State.Has], by simp [State.Has]⟩
  · rintro ⟨s, a, hrun, -, -⟩
    have hlost : ownAppended.foldl (call fun _ _ => 0) (some State.initial) = none := rfl
    rw [hlost] at hrun
    exact absurd hrun.symm (Option.some_ne_none s)
  · obtain rfl := Option.some.inj hs
    exact ⟨by simp [State.Has], Or.inr (by simp [Source.Valid])⟩
  · obtain rfl := Option.some.inj hs
    exact ⟨by simp [State.Has], Or.inr ⟨_, rfl, by decide⟩⟩
  · rintro ⟨s, a, hrun, ⟨_, _, behind, hlists⟩, hmodels⟩
    have hlist : a = [⟨[1, 3, 2, 3], true⟩] := hlists
    subst hlist
    obtain rfl := Option.some.inj hrun
    rcases hmodels.holds 0 _ _ rfl rfl with ⟨mem, hget, -, -, hbytes, -⟩
    obtain rfl := Option.some.inj hget
    exact absurd hbytes (by decide)

end BufferLists
end SsrNative
