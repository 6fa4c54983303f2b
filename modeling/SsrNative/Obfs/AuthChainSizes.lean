import SsrNative.CString
import SsrNative.Obfs.AuthChainRand

/-!
# AuthChainSizes — the size lists in their arrays

`set_server_info` of auth_chain_b to auth_chain_f fills arrays of sizes, sorts them and, from
auth_chain_d on, adds sizes at the end; `get_tcp_rand_len` searches them.  Here every read and write is
checked against the array, and a difference is kept as the `int` that it is.  What is checked gives the
same lists and lengths as the functions of `AuthChainRand`.
-/

namespace SsrNative
namespace Obfs
namespace AuthChain

open Bytes
open CString
open Lib.Text

/-! ## Arrays of sizes -/

/-- An array with the number of entries in use. -/
structure DataSizeList where
  arr : List ℕ
  length : ℕ

namespace DataSizeList

def used (l : DataSizeList) : List ℕ := l.arr.take l.length

/-- An entry in use. -/
def read (l : DataSizeList) (i : ℕ) : Option ℕ := if i < l.length then l.arr[i]? else none

/-- `qsort` over the entries in use. -/
def sort (l : DataSizeList) : Option DataSizeList :=
  if l.length ≤ l.arr.length then
    some { l with arr := l.used.insertionSort (· ≤ ·) ++ l.arr.drop l.length }
  else none

/-- The loop of `auth_chain_find_pos`. -/
def findPosLoop (l : DataSizeList) (key : ℕ) : ℕ → ℕ → ℕ → Option ℕ
  | 0, _, _ => none
  | fuel + 1, low, high =>
      if low < high then do
        let middle := (low + high) / 2
        let entry ← l.read middle
        if entry < key then findPosLoop l key fuel (middle + 1) high
        else findPosLoop l key fuel low middle
      else some low

/-- `auth_chain_find_pos`. -/
def findPos (l : DataSizeList) (key : ℕ) : Option ℕ := do
  let last ← l.read (l.length - 1)
  if last < key then return l.length
  findPosLoop l key l.length 0 (l.length - 1)

end DataSizeList

/-- One entry of an array is written. -/
def writeEntry (arr : List ℕ) (i x : ℕ) : Option (List ℕ) :=
  if i < arr.length then some (arr.set i x) else none

/-- `n` values of the generator are written from the entry `i` on. -/
def fillSizes : ℕ → ℕ → Shift128Plus → List ℕ → Option (Shift128Plus × List ℕ)
  | 0, _, random, arr => some (random, arr)
  | n + 1, i, random, arr => do
      let arr ← writeEntry arr i (random.next.2.toNat % 2340 % 2040 % 1440)
      fillSizes n (i + 1) random.next.1 arr

/-- A new array of `size` entries, the first `n` of them drawn and sorted. -/
def newSizes (size n : ℕ) (random : Shift128Plus) : Option (Shift128Plus × DataSizeList) := do
  let filled ← fillSizes n 0 random (List.replicate size 0)
  let l ← DataSizeList.sort ⟨filled.2, n⟩
  return (filled.1, l)

def LIST_LIMIT_SIZE : ℕ := 64

/-- `auth_chain_d_check_and_patch_data_size`. -/
def checkAndPatchDataSize : ℕ → Shift128Plus → DataSizeList → Option DataSizeList
  | 0, _, _ => none
  | fuel + 1, random, l => do
      let last ← l.read (l.length - 1)
      if last < 1300 ∧ l.length < LIST_LIMIT_SIZE then
        let arr ← writeEntry l.arr l.length (random.next.2.toNat % 2340 % 2040 % 1440)
        checkAndPatchDataSize fuel random.next.1 ⟨arr, l.length + 1⟩
      else return l

/-! ## Setting up -/

/-- `auth_chain_b_init_data_size`. -/
def initDataSizeB (key : Bytes) : Option (DataSizeList × DataSizeList) := do
  let n := (Shift128Plus.initFromBin key).draw 8
  let l ← newSizes (n.2 + 4) (n.2 + 4) n.1
  let n2 := l.1.draw 16
  let l2 ← newSizes (n2.2 + 8) (n2.2 + 8) n2.1
  return (l.2, l2.2)

/-- `auth_chain_c_init_data_size`. -/
def initDataSizeC (key : Bytes) : Option DataSizeList := do
  let n := (Shift128Plus.initFromBin key).draw (8 + 16)
  let l ← newSizes (n.2 + (4 + 8)) (n.2 + (4 + 8)) n.1
  return l.2

/-- What auth_chain_d and auth_chain_f do behind the seed, in an array of `size n` entries for `n`. -/
def initDataSizeFrom (size : ℕ → ℕ) (random : Shift128Plus) : Option DataSizeList := do
  let n := random.draw (8 + 16)
  let l ← newSizes (size (n.2 + (4 + 8))) (n.2 + (4 + 8)) n.1
  let patched ← checkAndPatchDataSize (LIST_LIMIT_SIZE + 1) l.1 l.2
  if patched.length ≠ l.2.length then patched.sort else return patched

/-- `auth_chain_d_init_data_size`. -/
def initDataSizeD (key : Bytes) : Option DataSizeList :=
  initDataSizeFrom (fun _ => LIST_LIMIT_SIZE) (Shift128Plus.initFromBin key)

/-- The seed of auth_chain_f.  The copy of the key has `(uint8_t)key_len` bytes, the first eight of it
are changed, and all `key_len` bytes are copied into the sixteen of `fill_bin`. -/
def seedF (key dateBytes : Bytes) : Option Shift128Plus :=
  if key.length % 256 < key.length then none
  else if key.length < 8 then none
  else if 16 < key.length then none
  else some (Shift128Plus.initFromBin (Lib.Hash.xorWith dateBytes key))

/-- `auth_chain_f_init_data_size`. -/
def initDataSizeF (key dateBytes : Bytes) : Option DataSizeList := do
  let random ← seedF key dateBytes
  initDataSizeFrom (max LIST_LIMIT_SIZE) random

/-! ## The interval of auth_chain_f -/

def digitVal (c : UInt8) : ℕ :=
  if 48 ≤ c ∧ c ≤ 57 then c.toNat - 48
  else if 97 ≤ c ∧ c ≤ 122 then c.toNat - 87
  else if 65 ≤ c ∧ c ≤ 90 then c.toNat - 55
  else 36

/-- The number that the digits at the front form in a base. -/
def leadingNum (base : ℕ) (s : Bytes) : ℕ :=
  (s.takeWhile fun c => digitVal c < base).foldl (fun n c => n * base + digitVal c) 0

/-- The digits of a number whose base its first characters tell. -/
def prefixedNum : Bytes → ℕ
  | 48 :: x :: c :: s =>
      if (x = 0x78 ∨ x = 0x58) ∧ digitVal c < 16 then leadingNum 16 (c :: s)
      else leadingNum 8 (x :: c :: s)
  | 48 :: s => leadingNum 8 s
  | s => leadingNum 10 s

/-- `strtoll` in base zero. -/
def strtoll (str : Bytes) : ℤ :=
  match str.dropWhile isSpace with
  | 45 :: s => -(min (prefixedNum s) (LONG_MAX + 1) : ℕ)
  | 43 :: s => (min (prefixedNum s) LONG_MAX : ℕ)
  | s => (min (prefixedNum s) LONG_MAX : ℕ)

/-- The interval in `extra_param`: a number of at least three characters behind the first `#`. -/
def keyChangeInterval (extraParam : Bytes) : ℕ :=
  match cut 35 extraParam with
  | some (_, delim1) =>
      let l := match cut 35 delim1 with
        | some (number, _) => number.length
        | none => delim1.length
      let n := strtoll delim1
      if 2 < l ∧ n ≠ LONG_MAX ∧ 0 < n then n.toNat else 60 * 60 * 24
  | none => 60 * 60 * 24

theorem keyChangeInterval_pos (extraParam : Bytes) : 0 < keyChangeInterval extraParam := by
  unfold keyChangeInterval
  split
  · dsimp only
    split_ifs with hnumber
    · omega
    · decide
  · decide

/-- `auth_chain_f_set_server_info` at a time. -/
def setServerInfoF (key extraParam : Bytes) (time : ℕ) : Option DataSizeList :=
  let day := time / keyChangeInterval extraParam
  initDataSizeF key (be32 (day / 4294967296) ++ be32 day)

/-- `set_server_info` of a protocol: its one list, or the two of auth_chain_b. -/
def Protocol.setServerInfo (p : Protocol) (key extraParam : Bytes) (time : ℕ) :
    Option (DataSizeList × DataSizeList) :=
  match p with
  | .a => some (⟨[], 0⟩, ⟨[], 0⟩)
  | .b => initDataSizeB key
  | .c => (initDataSizeC key).map fun l => (l, ⟨[], 0⟩)
  | .d => (initDataSizeD key).map fun l => (l, ⟨[], 0⟩)
  | .e => (initDataSizeD key).map fun l => (l, ⟨[], 0⟩)
  | .f => (setServerInfoF key extraParam time).map fun l => (l, ⟨[], 0⟩)

/-! ## Padding lengths -/

/-- `list[pos] - datalength - overhead`. -/
def difference (l : DataSizeList) (pos key : ℕ) : Option ℤ :=
  (l.read pos).map fun entry => (entry : ℤ) - key

def getRandLenB (L : DataSizeList × DataSizeList) (overhead datalength : ℕ) (random : Shift128Plus)
    (lastHash : Bytes) : Option (Shift128Plus × ℤ) := do
  if 1440 ≤ datalength then return (random, 0)
  let random := Shift128Plus.initFromBinDatalen lastHash datalength
  let pos ← L.1.findPos (datalength + overhead)
  let r := random.draw L.1.length
  let finalPos := pos + r.2
  if finalPos < L.1.length then
    let d ← difference L.1 finalPos (datalength + overhead)
    return (r.1, d)
  let pos2 ← L.2.findPos (datalength + overhead)
  let r2 := r.1.draw L.2.length
  let finalPos2 := pos2 + r2.2
  if finalPos2 < L.2.length then
    let d ← difference L.2 finalPos2 (datalength + overhead)
    return (r2.1, d)
  if finalPos2 < pos2 + L.2.length - 1 then return (r2.1, 0)
  let c := classLen datalength r2.1
  return (c.1, c.2)

def getRandLenC (l : DataSizeList) (overhead datalength : ℕ) (lastHash : Bytes) :
    Option (Shift128Plus × ℤ) := do
  let random := Shift128Plus.initFromBinDatalen lastHash datalength
  let last ← l.read (l.length - 1)
  if last ≤ datalength + overhead then
    if 1440 < datalength then return (random, 0)
    let c := classLen datalength random
    return (c.1, c.2)
  let pos ← l.findPos (datalength + overhead)
  let r := random.draw (l.length - pos)
  let d ← difference l (pos + r.2) (datalength + overhead)
  return (r.1, d)

def getRandLenD (l : DataSizeList) (overhead datalength : ℕ) (random : Shift128Plus)
    (lastHash : Bytes) : Option (Shift128Plus × ℤ) := do
  let last ← l.read (l.length - 1)
  if last ≤ datalength + overhead then return (random, 0)
  let pos ← l.findPos (datalength + overhead)
  let r := (Shift128Plus.initFromBinDatalen lastHash datalength).draw (l.length - pos)
  let d ← difference l (pos + r.2) (datalength + overhead)
  return (r.1, d)

def getRandLenE (l : DataSizeList) (overhead datalength : ℕ) (lastHash : Bytes) :
    Option (Shift128Plus × ℤ) := do
  let random := Shift128Plus.initFromBinDatalen lastHash datalength
  let last ← l.read (l.length - 1)
  if last ≤ datalength + overhead then return (random, 0)
  let pos ← l.findPos (datalength + overhead)
  let d ← difference l pos (datalength + overhead)
  return (random, d)

/-- `get_tcp_rand_len` of a protocol: the `int` that is returned as an `unsigned int`. -/
def Protocol.getRandLen (p : Protocol) (L : DataSizeList × DataSizeList) (overhead datalength : ℕ)
    (random : Shift128Plus) (lastHash : Bytes) : Option (Shift128Plus × ℤ) :=
  match p with
  | .a =>
      let r := authChainAGetRandLen datalength random lastHash
      some (r.1, r.2)
  | .b => getRandLenB L overhead datalength random lastHash
  | .c => getRandLenC L.1 overhead datalength lastHash
  | .d => getRandLenD L.1 overhead datalength random lastHash
  | .e => getRandLenE L.1 overhead datalength lastHash
  | .f => getRandLenE L.1 overhead datalength lastHash

/-! ## What the arrays hold -/

/-- The entries in use are those of a list of sizes. -/
structure Holds (l : DataSizeList) (L : SizeList) : Prop where
  used : l.used = L.sizes
  fits : l.length ≤ l.arr.length

namespace Holds

variable {l : DataSizeList} {L : SizeList}

theorem length_eq (h : Holds l L) : l.length = L.length := by
  have hlen := congrArg List.length h.used
  rw [DataSizeList.used, List.length_take, Nat.min_eq_left h.fits] at hlen
  exact hlen

theorem read (h : Holds l L) {i : ℕ} (hi : i < L.length) : l.read i = some (L.get i) := by
  have hil : i < l.length := h.length_eq ▸ hi
  have hentry : l.arr[i]? = L.sizes[i]? := by
    rw [← h.used, DataSizeList.used, List.getElem?_take_of_lt hil]
  rw [DataSizeList.read, if_pos hil, hentry, SizeList.get, List.getD_eq_getElem?_getD]
  rw [List.getElem?_eq_getElem hi]
  rfl

theorem last (h : Holds l L) : l.read (l.length - 1) = some (L.get (L.length - 1)) := by
  have hpos := L.length_pos
  rw [h.length_eq]
  exact h.read (by omega)

/-- Every entry that the search looks at is in use. -/
theorem findPosLoop (h : Holds l L) (key : ℕ) {fuel low high : ℕ} (hfuel : high - low < fuel)
    (hhigh : high < L.length) :
    l.findPosLoop key fuel low high = some (L.findPosLoop key fuel low high) := by
  induction fuel generalizing low high with
  | zero => omega
  | succ fuel ih =>
      rw [DataSizeList.findPosLoop, SizeList.findPosLoop]
      by_cases hrange : low < high
      · have hmiddle : (low + high) / 2 < L.length := by omega
        simp only [if_pos hrange, h.read hmiddle, Option.bind_eq_bind, Option.bind_some]
        by_cases hkey : L.get ((low + high) / 2) < key
        · rw [if_pos hkey, if_pos hkey]
          exact ih (by omega) hhigh
        · rw [if_neg hkey, if_neg hkey]
          exact ih (by omega) hmiddle
      · rw [if_neg hrange, if_neg hrange]

theorem findPos (h : Holds l L) (key : ℕ) : l.findPos key = some (L.findPos key) := by
  have hpos := L.length_pos
  unfold DataSizeList.findPos SizeList.findPos
  simp only [h.last, Option.bind_eq_bind, Option.bind_some]
  by_cases hlast : L.get (L.length - 1) < key
  · rw [if_pos hlast, if_pos hlast, h.length_eq]
    rfl
  · rw [if_neg hlast, if_neg hlast, h.length_eq]
    exact h.findPosLoop key (by omega) (by omega)

/-- From the position found on, a difference is not negative, and it is the length returned. -/
theorem difference (h : Holds l L) {key i : ℕ} (hle : L.findPos key ≤ i) (hi : i < L.length) :
    difference l i key = some (unsignedSub (L.get i) key : ℤ) := by
  have hkey := L.le_get_of_findPos hle hi
  have hlt := L.get_lt hi
  have hval : ((unsignedSub (L.get i) key : ℕ) : ℤ) = (L.get i : ℤ) - key := by
    unfold unsignedSub
    omega
  rw [AuthChain.difference, h.read hi, hval]
  rfl

end Holds

section Lengths

variable {l : DataSizeList} {L : SizeList} (overhead datalength : ℕ) (random : Shift128Plus)
  (lastHash : Bytes)

/-- A length as the `int` that the source computes. -/
def lengthResult (r : Shift128Plus × ℕ) : Shift128Plus × ℤ := (r.1, r.2)

theorem getRandLenB_eq {L : DataSizeList × DataSizeList} {M : SizeList × SizeList}
    (h1 : Holds L.1 M.1) (h2 : Holds L.2 M.2) :
    getRandLenB L overhead datalength random lastHash =
      some (lengthResult (authChainBGetRandLen M overhead datalength random lastHash)) := by
  unfold getRandLenB authChainBGetRandLen
  by_cases hlarge : 1440 ≤ datalength
  · rw [if_pos hlarge, if_pos hlarge]
    rfl
  · rw [if_neg hlarge, if_neg hlarge]
    simp only [h1.findPos, h2.findPos, h1.length_eq, h2.length_eq, Option.bind_eq_bind,
      Option.bind_some]
    -- an entry of the first list, one of the second, the gap in which nothing is added, the length classes
    split_ifs with hfirst hsecond hgap
    · rw [h1.difference (Nat.le_add_right _ _) hfirst]
      rfl
    · rw [h2.difference (Nat.le_add_right _ _) hsecond]
      rfl
    · rfl
    · rfl

theorem getRandLenC_eq (h : Holds l L) :
    getRandLenC l overhead datalength lastHash =
      some (lengthResult (authChainCGetRandLen L overhead datalength random lastHash)) := by
  unfold getRandLenC authChainCGetRandLen
  simp only [h.last, Option.bind_eq_bind, Option.bind_some]
  by_cases hlast : L.get (L.length - 1) ≤ datalength + overhead
  · rw [if_pos hlast, if_pos hlast]
    split_ifs <;> rfl
  · rw [if_neg hlast, if_neg hlast, h.findPos, Option.bind_some, h.length_eq,
      h.difference (Nat.le_add_right _ _) (L.drawn_lt hlast _)]
    rfl

theorem getRandLenD_eq (h : Holds l L) :
    getRandLenD l overhead datalength random lastHash =
      some (lengthResult (authChainDGetRandLen L overhead datalength random lastHash)) := by
  unfold getRandLenD authChainDGetRandLen
  simp only [h.last, Option.bind_eq_bind, Option.bind_some]
  by_cases hlast : L.get (L.length - 1) ≤ datalength + overhead
  · rw [if_pos hlast, if_pos hlast]
    rfl
  · rw [if_neg hlast, if_neg hlast, h.findPos, Option.bind_some, h.length_eq,
      h.difference (Nat.le_add_right _ _) (L.drawn_lt hlast _)]
    rfl

theorem getRandLenE_eq (h : Holds l L) :
    getRandLenE l overhead datalength lastHash =
      some (lengthResult (authChainEGetRandLen L overhead datalength random lastHash)) := by
  unfold getRandLenE authChainEGetRandLen
  simp only [h.last, Option.bind_eq_bind, Option.bind_some]
  by_cases hlast : L.get (L.length - 1) ≤ datalength + overhead
  · rw [if_pos hlast, if_pos hlast]
    rfl
  · have hpos := (L.findPos_spec (Nat.le_of_lt (Nat.lt_of_not_le hlast))).1
    rw [if_neg hlast, if_neg hlast, h.findPos, Option.bind_some,
      h.difference (Nat.le_refl _) hpos]
    rfl

end Lengths

/-! ## How the arrays are filled -/

theorem writeEntry_of_lt {arr : List ℕ} {i : ℕ} (h : i < arr.length) (x : ℕ) :
    writeEntry arr i x = some (arr.set i x) := if_pos h

/-- The values drawn stand behind what was there. -/
theorem fillSizes_eq (n : ℕ) {i : ℕ} (random : Shift128Plus) {arr : List ℕ} (h : i + n ≤ arr.length) :
    fillSizes n i random arr = some ((drawSizes n random).1,
      arr.take i ++ ((drawSizes n random).2 ++ arr.drop (i + n))) := by
  -- on the entries that are still to be written; the written ones stand in front of `i`
  induction n generalizing i random arr with
  | zero => simp [fillSizes, drawSizes]
  | succ n ih =>
      have hi : i < arr.length := by omega
      rw [fillSizes, writeEntry_of_lt hi, Option.bind_eq_bind, Option.bind_some,
        ih _ (by rw [List.length_set]; omega), drawSizes]
      have htake : ∀ x : ℕ, (arr.set i x).take (i + 1) = arr.take i ++ [x] := fun x => by
        have hcat : arr.set i x = (arr.take i ++ [x]) ++ arr.drop (i + 1) := by
          rw [List.set_eq_take_append_cons_drop, if_pos hi, List.append_assoc]
          rfl
        have hlen : (arr.take i ++ [x]).length = i + 1 := by
          rw [List.length_append, List.length_take, Nat.min_eq_left (by omega)]
          rfl
        rw [hcat, List.take_left' hlen]
      have hdrop : ∀ x : ℕ, (arr.set i x).drop (i + 1 + n) = arr.drop (i + (n + 1)) := fun x => by
        rw [List.drop_set_of_lt (by omega)]
        congr 1
        omega
      rw [htake, hdrop]
      simp

theorem sort_eq {l : DataSizeList} (h : l.length ≤ l.arr.length) :
    ∃ l', l.sort = some l' ∧ l'.used = l.used.insertionSort (· ≤ ·) ∧ l'.length = l.length ∧
      l'.arr.length = l.arr.length := by
  have hused : l.used.length = l.length := by
    rw [DataSizeList.used, List.length_take, Nat.min_eq_left h]
  refine ⟨_, if_pos h, ?_, rfl, ?_⟩
  · rw [DataSizeList.used, List.take_left']
    rw [List.length_insertionSort, hused]
  · rw [List.length_append, List.length_insertionSort, hused, List.length_drop]
    omega

/-- A new array holds the values drawn, sorted. -/
theorem newSizes_eq {size n : ℕ} (h : n ≤ size) (random : Shift128Plus) :
    ∃ l, newSizes size n random = some ((drawSizes n random).1, l) ∧
      l.used = (drawSizes n random).2.insertionSort (· ≤ ·) ∧ l.length = n ∧ l.arr.length = size := by
  have hroom : 0 + n ≤ (List.replicate size 0).length := by
    rw [List.length_replicate]
    omega
  have hfill := fillSizes_eq n random hroom
  have hdrawn := drawSizes_length n random
  rw [List.take_zero, List.nil_append] at hfill
  obtain ⟨l, hsort, hused, hlen, harr⟩ :=
    sort_eq (l := ⟨(drawSizes n random).2 ++ (List.replicate size 0).drop (0 + n), n⟩)
      (by simp [hdrawn])
  refine ⟨l, ?_, ?_, hlen, ?_⟩
  · unfold newSizes
    simp only [hfill, Option.bind_eq_bind, Option.bind_some, hsort]
    rfl
  · rw [hused, DataSizeList.used, List.take_left' hdrawn]
  · rw [harr]
    simp [hdrawn]
    omega

theorem used_length {l : DataSizeList} (h : l.length ≤ l.arr.length) : l.used.length = l.length := by
  rw [DataSizeList.used, List.length_take, Nat.min_eq_left h]

theorem read_last {l : DataSizeList} (hpos : 0 < l.length) (h : l.length ≤ l.arr.length) :
    l.read (l.length - 1) = some (l.used.getLastD 0) := by
  have hentry : l.arr[l.length - 1]? = l.used[l.length - 1]? := by
    rw [DataSizeList.used, List.getElem?_take_of_lt (by omega)]
  have hused := used_length h
  rw [DataSizeList.read, if_pos (by omega), hentry, List.getLastD_eq_getLast?, List.getLast?_eq_getElem?,
    hused, List.getElem?_eq_getElem (by omega)]
  rfl

/-- The entries in use when one is added behind them. -/
theorem used_push {l : DataSizeList} (h : l.length < l.arr.length) (x : ℕ) :
    (⟨l.arr.set l.length x, l.length + 1⟩ : DataSizeList).used = l.used ++ [x] := by
  have hcat : l.arr.set l.length x = (l.arr.take l.length ++ [x]) ++ l.arr.drop (l.length + 1) := by
    rw [List.set_eq_take_append_cons_drop, if_pos h, List.append_assoc]
    rfl
  have hlen : (l.arr.take l.length ++ [x]).length = l.length + 1 := by
    rw [List.length_append, List.length_take, Nat.min_eq_left (Nat.le_of_lt h)]
    rfl
  rw [DataSizeList.used, hcat, List.take_left' hlen, DataSizeList.used]

/-- The loop ends with at most 64 entries, and does not leave an array of that size. -/
theorem checkAndPatchDataSize_eq (fuel : ℕ) (random : Shift128Plus) {l : DataSizeList}
    (hpos : 0 < l.length) (hfuel : LIST_LIMIT_SIZE - l.length ≤ fuel) (hle : l.length ≤ LIST_LIMIT_SIZE)
    (hroom : LIST_LIMIT_SIZE ≤ l.arr.length) :
    ∃ l', checkAndPatchDataSize (fuel + 1) random l = some l' ∧
      l'.used = checkAndPatch fuel random l.used ∧ l.used <+: l'.used ∧
      l'.length ≤ LIST_LIMIT_SIZE ∧ l'.arr.length = l.arr.length := by
  have hused := used_length (Nat.le_trans hle hroom)
  have hlast := read_last hpos (Nat.le_trans hle hroom)
  -- on the fuel: every pass adds one entry, and the list may have 64
  induction fuel generalizing random l with
  | zero =>
      have hfull : ¬ (l.used.getLastD 0 < 1300 ∧ l.length < LIST_LIMIT_SIZE) := by omega
      refine ⟨l, ?_, rfl, List.prefix_refl _, hle, rfl⟩
      rw [checkAndPatchDataSize, hlast, Option.bind_eq_bind, Option.bind_some, if_neg hfull]
      rfl
  | succ fuel ih =>
      rw [checkAndPatchDataSize, checkAndPatch, hlast, Option.bind_eq_bind, Option.bind_some, hused]
      by_cases hmore : l.used.getLastD 0 < 1300 ∧ l.length < LIST_LIMIT_SIZE
      · have hin : l.length < l.arr.length := by omega
        have hpush := used_push hin (random.next.2.toNat % 2340 % 2040 % 1440)
        have hroom' : LIST_LIMIT_SIZE ≤
            (l.arr.set l.length (random.next.2.toNat % 2340 % 2040 % 1440)).length := by
          rw [List.length_set]
          exact hroom
        obtain ⟨l', hrest, hval, hinitial, hle', harr⟩ := ih random.next.1
          (l := ⟨l.arr.set l.length (random.next.2.toNat % 2340 % 2040 % 1440), l.length + 1⟩)
          (Nat.succ_pos _) (by dsimp only; omega) (by dsimp only; omega) hroom'
          (used_length (by dsimp only; omega)) (read_last (Nat.succ_pos _) (by dsimp only; omega))
        rw [List.length_set] at harr
        rw [hpush] at hval hinitial
        refine ⟨l', ?_, ?_, (List.prefix_append _ _).trans hinitial, hle', harr⟩
        · rw [if_pos hmore, writeEntry_of_lt hin]
          exact hrest
        · exact hval.trans (if_pos hmore).symm
      · refine ⟨l, ?_, ?_, List.prefix_refl _, hle, rfl⟩
        · rw [if_neg hmore]
          rfl
        · exact (if_neg hmore).symm

/-! ## What set_server_info leaves -/

/-- A list that is sorted, of at most 64 entries, and inside its array. -/
structure InRange (l : DataSizeList) : Prop where
  sorted : l.used.Pairwise (· ≤ ·)
  limit : l.length ≤ LIST_LIMIT_SIZE
  allocated : l.length ≤ l.arr.length

theorem Holds.inRange {l : DataSizeList} {L : SizeList} (h : Holds l L)
    (hlimit : l.length ≤ LIST_LIMIT_SIZE) : InRange l :=
  ⟨h.used ▸ L.sorted, hlimit, h.fits⟩

theorem inRange_empty : InRange ⟨[], 0⟩ := ⟨List.Pairwise.nil, Nat.zero_le _, Nat.le_refl _⟩

/-- A new array of exactly the drawn size. -/
theorem newSizes_holds (n k : ℕ) (hk : 0 < k) (random : Shift128Plus) :
    ∃ l, newSizes (n + k) (n + k) random = some ((drawSizes (n + k) random).1, l) ∧
      Holds l (sortedDraws n k hk random) ∧ l.length = n + k := by
  obtain ⟨l, hnew, hused, hlen, harr⟩ := newSizes_eq (Nat.le_refl (n + k)) random
  exact ⟨l, hnew, ⟨hused, by omega⟩, hlen⟩

theorem initDataSizeB_holds (key : Bytes) :
    ∃ L, initDataSizeB key = some L ∧ Holds L.1 (authChainBInitDataSize key).1 ∧
      Holds L.2 (authChainBInitDataSize key).2 ∧ InRange L.1 ∧ InRange L.2 := by
  let n := (Shift128Plus.initFromBin key).draw 8
  obtain ⟨l, hnew, hl, hlen⟩ := newSizes_holds n.2 4 (by decide) n.1
  let n2 := (drawSizes (n.2 + 4) n.1).1.draw 16
  obtain ⟨l2, hnew2, hl2, hlen2⟩ := newSizes_holds n2.2 8 (by decide) n2.1
  have hn : n.2 < 8 := Nat.mod_lt _ (by decide)
  have hn2 : n2.2 < 16 := Nat.mod_lt _ (by decide)
  -- both lists stay below the limit: 8 + 4 and 16 + 8 entries at most
  refine ⟨(l, l2), ?_, hl, hl2, hl.inRange ?_, hl2.inRange ?_⟩
  · unfold initDataSizeB
    simp only [Option.bind_eq_bind]
    rw [hnew, Option.bind_some]
    dsimp only
    rw [hnew2]
    rfl
  · rw [hlen, LIST_LIMIT_SIZE]
    omega
  · rw [hlen2, LIST_LIMIT_SIZE]
    omega

theorem initDataSizeC_holds (key : Bytes) :
    ∃ l, initDataSizeC key = some l ∧ Holds l (authChainCInitDataSize key) ∧ InRange l := by
  let n := (Shift128Plus.initFromBin key).draw (8 + 16)
  obtain ⟨l, hnew, hl, hlen⟩ := newSizes_holds n.2 (4 + 8) (by decide) n.1
  have hn : n.2 < 8 + 16 := Nat.mod_lt _ (by decide)
  refine ⟨l, ?_, hl, hl.inRange ?_⟩
  · unfold initDataSizeC
    simp only [Option.bind_eq_bind]
    rw [hnew]
    rfl
  · rw [hlen, LIST_LIMIT_SIZE]
    omega

theorem authChainDInitDataSize_sizes (bin : Bytes) :
    (authChainDInitDataSize bin).sizes =
      (checkAndPatch 64
        (drawSizes (((Shift128Plus.initFromBin bin).draw (8 + 16)).2 + (4 + 8))
          ((Shift128Plus.initFromBin bin).draw (8 + 16)).1).1
        ((drawSizes (((Shift128Plus.initFromBin bin).draw (8 + 16)).2 + (4 + 8))
          ((Shift128Plus.initFromBin bin).draw (8 + 16)).1).2.insertionSort (· ≤ ·))).insertionSort
        (· ≤ ·) := by
  simp only [authChainDInitDataSize, sortedDraws, qsort]

/-- The list of auth_chain_d, from any seed, in an array that takes 64 entries. -/
theorem initDataSizeFrom_holds {size : ℕ → ℕ} (hsize : ∀ n, n ≤ LIST_LIMIT_SIZE →
    size n = LIST_LIMIT_SIZE) (bin : Bytes) :
    ∃ l, initDataSizeFrom size (Shift128Plus.initFromBin bin) = some l ∧
      Holds l (authChainDInitDataSize bin) ∧ InRange l := by
  have hsizes := authChainDInitDataSize_sizes bin
  have hn : ((Shift128Plus.initFromBin bin).draw (8 + 16)).2 < 8 + 16 := Nat.mod_lt _ (by decide)
  unfold initDataSizeFrom
  generalize (Shift128Plus.initFromBin bin).draw (8 + 16) = n at hsizes hn ⊢
  have hlimit : n.2 + (4 + 8) ≤ LIST_LIMIT_SIZE := by
    rw [LIST_LIMIT_SIZE]
    omega
  have hroom := hsize _ hlimit
  obtain ⟨l, hnew, hused, hlen, harr⟩ := newSizes_eq (Nat.le_trans hlimit (Nat.le_of_eq hroom.symm)) n.1
  obtain ⟨l', hpatch, hval, hinitial, hle, harr'⟩ := checkAndPatchDataSize_eq 64
    (drawSizes (n.2 + (4 + 8)) n.1).1 (l := l) (by omega) (Nat.sub_le _ _) (by omega) (by omega)
  have hfits : l'.length ≤ l'.arr.length := by omega
  rw [← hused, ← hval] at hsizes
  simp only [Option.bind_eq_bind, hnew, Option.bind_some]
  rw [LIST_LIMIT_SIZE, hpatch, Option.bind_some]
  -- the list is sorted again only if something was added
  by_cases hmore : l'.length ≠ l.length
  · obtain ⟨l'', hsort, hused'', hlen'', harr''⟩ := sort_eq hfits
    have hholds : Holds l'' (authChainDInitDataSize bin) := ⟨hused''.trans hsizes.symm, by omega⟩
    refine ⟨l'', ?_, hholds, hholds.inRange (by omega)⟩
    rw [if_pos hmore, hsort]
  · -- nothing was added: the list is the sorted one
    have hsame : l.used = l'.used := by
      refine hinitial.eq_of_length ?_
      rw [used_length hfits, used_length (by omega)]
      omega
    have hsorted : l'.used.insertionSort (· ≤ ·) = l'.used := by
      rw [← hsame, hused]
      exact (List.pairwise_insertionSort _ _).insertionSort_eq
    have hholds : Holds l' (authChainDInitDataSize bin) := ⟨hsorted.symm.trans hsizes.symm, hfits⟩
    exact ⟨l', if_neg hmore, hholds, hholds.inRange hle⟩

/-! ## Seeding auth_chain_f -/

/-- The seed stays inside its arrays for a key of eight to sixteen bytes. -/
theorem seedF_isSome_iff (key dateBytes : Bytes) :
    (seedF key dateBytes).isSome = true ↔ 8 ≤ key.length ∧ key.length ≤ 16 := by
  unfold seedF
  split_ifs with hcopy hshort hlong
  · exact iff_of_false nofun (by omega)
  · exact iff_of_false nofun (by omega)
  · exact iff_of_false nofun (by omega)
  · exact iff_of_true rfl (by omega)

theorem seedF_of_some {key dateBytes : Bytes} {random : Shift128Plus}
    (h : seedF key dateBytes = some random) :
    random = Shift128Plus.initFromBin (Lib.Hash.xorWith dateBytes key) := by
  unfold seedF at h
  split_ifs at h
  cases h
  rfl

theorem setServerInfoF_eq (key extraParam : Bytes) (time : ℕ) :
    (8 ≤ key.length ∧ key.length ≤ 16 → ∃ l, setServerInfoF key extraParam time = some l) ∧
      ∀ l, setServerInfoF key extraParam time = some l →
        (8 ≤ key.length ∧ key.length ≤ 16) ∧
          Holds l (authChainFInitDataSize key time (keyChangeInterval extraParam)) ∧ InRange l := by
  have hsize : ∀ n, n ≤ LIST_LIMIT_SIZE → max LIST_LIMIT_SIZE n = LIST_LIMIT_SIZE :=
    fun n hn => Nat.max_eq_left hn
  have hseed := seedF_isSome_iff key
    (be32 (time / keyChangeInterval extraParam / 4294967296) ++
      be32 (time / keyChangeInterval extraParam))
  unfold setServerInfoF initDataSizeF
  dsimp only
  cases hrandom : seedF key (be32 (time / keyChangeInterval extraParam / 4294967296) ++
      be32 (time / keyChangeInterval extraParam)) with
  | none =>
      rw [hrandom] at hseed
      exact ⟨fun h => absurd (hseed.2 h) nofun, nofun⟩
  | some random =>
      rw [hrandom] at hseed
      obtain ⟨l, hinit, hl, hrange⟩ := initDataSizeFrom_holds hsize
        (Lib.Hash.xorWith (be32 (time / keyChangeInterval extraParam / 4294967296) ++
          be32 (time / keyChangeInterval extraParam)) key)
      rw [seedF_of_some hrandom]
      simp only [Option.bind_eq_bind, Option.bind_some, hinit]
      refine ⟨fun _ => ⟨l, rfl⟩, ?_⟩
      rintro _ ⟨⟩
      exact ⟨hseed.1 rfl, hl, hrange⟩

/-- auth_chain_f is seeded inside its arrays, and two peers with the same parameter whose clocks are in
one interval get the same list, exactly when the key has eight to sixteen bytes. -/
theorem auth_chain_f_seeding_iff (key extraParam : Bytes) (time time' : ℕ) :
    ((∃ l, setServerInfoF key extraParam time = some l) ∧
        (time / keyChangeInterval extraParam = time' / keyChangeInterval extraParam →
          setServerInfoF key extraParam time' = setServerInfoF key extraParam time)) ↔
      8 ≤ key.length ∧ key.length ≤ 16 := by
  have hmain := setServerInfoF_eq key extraParam time
  constructor
  · rintro ⟨⟨l, hl⟩, -⟩
    exact (hmain.2 l hl).1
  · intro hkey
    refine ⟨hmain.1 hkey, fun hday => ?_⟩
    unfold setServerInfoF
    rw [hday]

/-- The key of a method with keys of 32 bytes leaves `fill_bin`. -/
theorem auth_chain_f_long_key :
    ¬ ∀ key : Bytes, key.length = 16 ∨ key.length = 24 ∨ key.length = 32 →
      ∃ l, setServerInfoF key [] 0 = some l := by
  intro h
  obtain ⟨l, hl⟩ := h (List.replicate 32 1) (by decide)
  have hkey := ((setServerInfoF_eq _ _ _).2 l hl).1.2
  exact absurd hkey (by decide)

/-! ## The sizes in range -/

/-- What is set up gives the lengths of the protocol, read inside lists in range. -/
theorem Protocol.getRandLen_eq {p : Protocol} {key extraParam : Bytes} {time : ℕ}
    {L : DataSizeList × DataSizeList} (h : p.setServerInfo key extraParam time = some L) :
    InRange L.1 ∧ InRange L.2 ∧ ∀ overhead datalength random lastHash,
      p.getRandLen L overhead datalength random lastHash =
        some (lengthResult ((p.variant key overhead time (keyChangeInterval extraParam)).getTcpRandLen
          datalength random lastHash)) := by
  cases p with
  | a =>
      cases h
      exact ⟨inRange_empty, inRange_empty, fun _ _ _ _ => rfl⟩
  | b =>
      obtain ⟨L', hinit, h1, h2, hrange1, hrange2⟩ := initDataSizeB_holds key
      cases hinit.symm.trans h
      refine ⟨hrange1, hrange2, fun overhead n r hash => ?_⟩
      simp only [Protocol.getRandLen, Protocol.variant, authChainB]
      exact getRandLenB_eq overhead n r hash h1 h2
  | c =>
      obtain ⟨l, hinit, hl, hrange⟩ := initDataSizeC_holds key
      simp only [Protocol.setServerInfo, hinit, Option.map_some] at h
      cases h
      refine ⟨hrange, inRange_empty, fun overhead n r hash => ?_⟩
      simp only [Protocol.getRandLen, Protocol.variant, authChainC]
      exact getRandLenC_eq overhead n r hash hl
  | d =>
      obtain ⟨l, hinit, hl, hrange⟩ := initDataSizeFrom_holds (fun _ _ => rfl) key
      simp only [Protocol.setServerInfo, initDataSizeD, hinit, Option.map_some] at h
      cases h
      refine ⟨hrange, inRange_empty, fun overhead n r hash => ?_⟩
      simp only [Protocol.getRandLen, Protocol.variant, authChainD]
      exact getRandLenD_eq overhead n r hash hl
  -- auth_chain_e has the list of auth_chain_d
  | e =>
      obtain ⟨l, hinit, hl, hrange⟩ := initDataSizeFrom_holds (fun _ _ => rfl) key
      simp only [Protocol.setServerInfo, initDataSizeD, hinit, Option.map_some] at h
      cases h
      refine ⟨hrange, inRange_empty, fun overhead n r hash => ?_⟩
      simp only [Protocol.getRandLen, Protocol.variant, authChainE, authChainOfSizes]
      exact getRandLenE_eq overhead n r hash hl
  -- and auth_chain_f the same one, from another seed
  | f =>
      obtain ⟨l, hinit, hlist⟩ := Option.map_eq_some_iff.1 h
      obtain ⟨-, hl, hrange⟩ := (setServerInfoF_eq _ _ _).2 l hinit
      cases hlist
      refine ⟨hrange, inRange_empty, fun overhead n r hash => ?_⟩
      simp only [Protocol.getRandLen, Protocol.variant, authChainF, authChainOfSizes]
      exact getRandLenE_eq overhead n r hash hl

theorem Protocol.setServerInfo_isSome (p : Protocol) {key : Bytes}
    (h : p = .f → 8 ≤ key.length ∧ key.length ≤ 16) (extraParam : Bytes) (time : ℕ) :
    ∃ L, p.setServerInfo key extraParam time = some L := by
  cases p with
  | a => exact ⟨_, rfl⟩
  | b =>
      obtain ⟨L, hinit, -⟩ := initDataSizeB_holds key
      exact ⟨L, hinit⟩
  | c =>
      obtain ⟨l, hinit, -⟩ := initDataSizeC_holds key
      exact ⟨_, Option.map_eq_some_iff.2 ⟨l, hinit, rfl⟩⟩
  | d =>
      obtain ⟨l, hinit, -⟩ := initDataSizeFrom_holds (fun _ _ => rfl) key
      exact ⟨_, Option.map_eq_some_iff.2 ⟨l, hinit, rfl⟩⟩
  | e =>
      obtain ⟨l, hinit, -⟩ := initDataSizeFrom_holds (fun _ _ => rfl) key
      exact ⟨_, Option.map_eq_some_iff.2 ⟨l, hinit, rfl⟩⟩
  | f =>
      obtain ⟨l, hinit⟩ := (setServerInfoF_eq key extraParam time).1 (h rfl)
      exact ⟨_, Option.map_eq_some_iff.2 ⟨l, hinit, rfl⟩⟩

/-- Only auth_chain_f can fail to be set up, by its seed. -/
theorem Protocol.setServerInfo_iff (p : Protocol) (key extraParam : Bytes) (time : ℕ) :
    (∃ L, p.setServerInfo key extraParam time = some L) ↔ (p = .f → 8 ≤ key.length ∧ key.length ≤ 16) := by
  constructor
  · rintro ⟨L, hL⟩ rfl
    obtain ⟨l, hinit, -⟩ := Option.map_eq_some_iff.1 hL
    exact ((setServerInfoF_eq key extraParam time).2 l hinit).1
  · intro h
    exact p.setServerInfo_isSome h extraParam time

/-- `set_server_info` leaves lists that are sorted, have at most 64 entries and lie inside their arrays;
every entry that `get_tcp_rand_len` reads is one of them, the difference that it returns is not negative,
and the length is at most 1439. -/
def SizesInRange (p : Protocol) (key extraParam : Bytes) (time : ℕ) : Prop :=
  ∃ L, p.setServerInfo key extraParam time = some L ∧ InRange L.1 ∧ InRange L.2 ∧
    ∀ overhead datalength random lastHash,
      ∃ r : Shift128Plus × ℤ, p.getRandLen L overhead datalength random lastHash = some r ∧
        0 ≤ r.2 ∧ r.2 ≤ 1439

/-- Sizes in range: everything that is set up is, and only auth_chain_f with a key of less than eight or
more than sixteen bytes is not set up. -/
theorem padding_sizes_in_range (p : Protocol) (key extraParam : Bytes) (time : ℕ) :
    SizesInRange p key extraParam time ↔ (p = .f → 8 ≤ key.length ∧ key.length ≤ 16) := by
  rw [← p.setServerInfo_iff key extraParam time]
  constructor
  · rintro ⟨L, hL, -⟩
    exact ⟨L, hL⟩
  · rintro ⟨L, hL⟩
    obtain ⟨hrange1, hrange2, hlen⟩ := Protocol.getRandLen_eq hL
    refine ⟨L, hL, hrange1, hrange2, fun overhead datalength random lastHash => ?_⟩
    have hlt := (p.variant key overhead time (keyChangeInterval extraParam)).randLen_lt datalength random
      lastHash
    refine ⟨_, hlen overhead datalength random lastHash, ?_, ?_⟩
    · exact Int.natCast_nonneg _
    · unfold lengthResult
      omega

/-- A key of 32 bytes. -/
theorem padding_sizes_unset : ¬ SizesInRange .f (List.replicate 32 1) [] 0 := by
  rintro ⟨L, hL, -⟩
  have hkey := (Protocol.setServerInfo_iff .f (List.replicate 32 1) [] 0).1 ⟨L, hL⟩ rfl
  exact absurd hkey.2 (by decide)

/-! ## Agreement of the peers -/

/-- The generator of a receiver that has looked at a frame before, each time with another length. -/
def Protocol.attempts (p : Protocol) (L : DataSizeList × DataSizeList) (overhead : ℕ) (lastHash : Bytes) :
    List ℕ → Shift128Plus → Option Shift128Plus
  | [], random => some random
  | n :: lengths, random => do
      let r ← p.getRandLen L overhead n random lastHash
      p.attempts L overhead lastHash lengths r.1

theorem Protocol.attempts_eq {p : Protocol} {key extraParam : Bytes} {time : ℕ}
    {L : DataSizeList × DataSizeList} (h : p.setServerInfo key extraParam time = some L) (overhead : ℕ)
    (lastHash : Bytes) (lengths : List ℕ) (random : Shift128Plus) :
    ∃ random', p.attempts L overhead lastHash lengths random = some random' := by
  induction lengths generalizing random with
  | nil => exact ⟨random, rfl⟩
  | cons n lengths ih =>
      have hlen := (Protocol.getRandLen_eq h).2.2 overhead n random lastHash
      obtain ⟨random', hrest⟩ := ih
        ((p.variant key overhead time (keyChangeInterval extraParam)).getTcpRandLen n random lastHash).1
      refine ⟨random', ?_⟩
      rw [Protocol.attempts, hlen]
      exact hrest

/-- What a peer has of its own: the parameter, the clock when it is set up, and the generator. -/
structure Peer where
  extraParam : Bytes
  time : ℕ
  random : Shift128Plus

/-- Both peers are set up, and find the same padding and the same place of the data, when the receiver has
looked at the frame before with other lengths. -/
def PaddingAgrees (p : Protocol) (key : Bytes) (overhead : ℕ) (sender receiver : Peer) (lastHash : Bytes)
    (n : ℕ) (lengths : List ℕ) : Prop :=
  ∃ L L' random sent found,
    p.setServerInfo key sender.extraParam sender.time = some L ∧
      p.setServerInfo key receiver.extraParam receiver.time = some L' ∧
      p.getRandLen L overhead n sender.random lastHash = some sent ∧
      p.attempts L' overhead lastHash lengths receiver.random = some random ∧
      p.getRandLen L' overhead n random lastHash = some found ∧
      sent.2 = found.2 ∧
      (getRandStartPos sent.2.toNat sent.1).2 = (getRandStartPos found.2.toNat found.1).2

/-- The interval in which a peer is set up. -/
def Peer.interval (peer : Peer) : ℕ := peer.time / keyChangeInterval peer.extraParam

/-- Padding agreement: the peers find the same padding and the same place of the data, exactly when they
are set up at all. -/
theorem padding_agreement (p : Protocol) (key : Bytes) (overhead : ℕ) (sender receiver : Peer)
    (hday : p = .f → sender.interval = receiver.interval) (lastHash : Bytes) (n : ℕ) (lengths : List ℕ) :
    PaddingAgrees p key overhead sender receiver lastHash n lengths ↔
      (p = .f → 8 ≤ key.length ∧ key.length ≤ 16) := by
  constructor
  · rintro ⟨L, -, -, -, -, hL, -⟩
    exact (p.setServerInfo_iff key sender.extraParam sender.time).1 ⟨L, hL⟩
  · intro hkey
    obtain ⟨L, hL⟩ := p.setServerInfo_isSome hkey sender.extraParam sender.time
    obtain ⟨L', hL'⟩ := p.setServerInfo_isSome hkey receiver.extraParam receiver.time
    obtain ⟨random, hrandom⟩ := Protocol.attempts_eq hL' overhead lastHash lengths receiver.random
    have hsent := (Protocol.getRandLen_eq hL).2.2 overhead n sender.random lastHash
    have hfound := (Protocol.getRandLen_eq hL').2.2 overhead n random lastHash
    rw [Protocol.variant_congr key overhead hday] at hsent
    have hagree := (p.variant key overhead receiver.time (keyChangeInterval receiver.extraParam)).padding_eq n
      sender.random random lastHash
    exact ⟨L, L', random, _, _, hL, hL', hsent, hrandom, hfound, congrArg Nat.cast hagree.1, hagree.2⟩

/-- Two clocks in one day, and a receiver that has seen one byte of the frame before. -/
theorem padding_agreement_sample :
    PaddingAgrees .f (List.replicate 16 1) 4 ⟨[], 86401, ⟨1, 2⟩⟩ ⟨[], 172799, ⟨3, 4⟩⟩ [7, 8] 100 [2048, 100] :=
  (padding_agreement .f (List.replicate 16 1) 4 ⟨[], 86401, ⟨1, 2⟩⟩ ⟨[], 172799, ⟨3, 4⟩⟩ (fun _ => by decide)
    [7, 8] 100 [2048, 100]).2 fun _ => by decide

/-- Two peers at the same time with a key of 32 bytes. -/
theorem padding_without_lists :
    ¬ PaddingAgrees .f (List.replicate 32 1) 4 ⟨[], 86401, ⟨1, 2⟩⟩ ⟨[], 86401, ⟨3, 4⟩⟩ [7, 8] 100 [] := by
  rintro ⟨L, -, -, -, -, hL, -⟩
  have hkey := (Protocol.setServerInfo_iff .f (List.replicate 32 1) [] 86401).1 ⟨L, hL⟩ rfl
  exact absurd hkey.2 (by decide)

end AuthChain
end Obfs
end SsrNative
