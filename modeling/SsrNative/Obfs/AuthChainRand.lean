import Mathlib.Data.List.Sort
import SsrNative.Bytes
import SsrNative.Lib.Hash

/-!
# AuthChainRand — padding lengths of the auth_chain protocols

Both peers compute the length of the padding of a frame from the hash of the frame before it, with
a generator that is reseeded for every frame.  The protocols auth_chain_a to auth_chain_f differ in
their salt and in this computation only; a `Variant` holds both, with what the protocol relies on.
-/

namespace SsrNative
namespace Obfs
namespace AuthChain

open Bytes

/-! ## The generator -/

/-- `struct shift128plus_ctx`. -/
structure Shift128Plus where
  v0 : UInt64
  v1 : UInt64

namespace Shift128Plus

def next (c : Shift128Plus) : Shift128Plus × UInt64 :=
  let x := c.v0 ^^^ (c.v0 <<< 23)
  let x := x ^^^ (c.v1 ^^^ (x >>> 17) ^^^ (c.v1 >>> 26))
  (⟨c.v1, x⟩, x + c.v1)

def initFromBin (bin : Bytes) : Shift128Plus :=
  ⟨UInt64.ofNat (Lib.Hash.wordLE (window bin 0 8)), UInt64.ofNat (Lib.Hash.wordLE (window bin 8 8))⟩

/-- The length takes the place of the first two bytes, and four values are dropped. -/
def initFromBinDatalen (bin : Bytes) (datalen : ℕ) : Shift128Plus :=
  let c := initFromBin (le16 datalen ++ window bin 2 14)
  c.next.1.next.1.next.1.next.1

/-- `shift128plus_next(random) % n`. -/
def draw (c : Shift128Plus) (n : ℕ) : Shift128Plus × ℕ := (c.next.1, c.next.2.toNat % n)

end Shift128Plus

open Shift128Plus

def getRandStartPos (randLen : ℕ) (random : Shift128Plus) : Shift128Plus × ℕ :=
  if 0 < randLen then (random.next.1, random.next.2.toNat % 8589934609 % randLen) else (random, 0)

theorem getRandStartPos_lt {randLen : ℕ} (h : 0 < randLen) (random : Shift128Plus) :
    (getRandStartPos randLen random).2 < randLen := by
  rw [getRandStartPos, if_pos h]
  exact Nat.mod_lt _ h

/-! ## Lists of sizes -/

/-- A sorted list of sizes, as the generator makes them from the key. -/
structure SizeList where
  sizes : List ℕ
  sorted : sizes.Pairwise (· ≤ ·)
  nonempty : sizes ≠ []
  lt : ∀ x ∈ sizes, x < 1440

namespace SizeList

def length (L : SizeList) : ℕ := L.sizes.length

def get (L : SizeList) (i : ℕ) : ℕ := L.sizes.getD i 0

theorem length_pos (L : SizeList) : 0 < L.length := List.length_pos_iff.2 L.nonempty

theorem get_mem (L : SizeList) {i : ℕ} (h : i < L.length) : L.get i ∈ L.sizes := by
  rw [get, List.getD_eq_getElem?_getD, List.getElem?_eq_getElem h]
  exact List.getElem_mem h

theorem get_lt (L : SizeList) {i : ℕ} (h : i < L.length) : L.get i < 1440 := L.lt _ (L.get_mem h)

theorem get_mono (L : SizeList) {i j : ℕ} (hij : i ≤ j) (hj : j < L.length) : L.get i ≤ L.get j := by
  have hi : i < L.sizes.length := Nat.lt_of_le_of_lt hij hj
  rw [get, get, List.getD_eq_getElem?_getD, List.getD_eq_getElem?_getD,
    List.getElem?_eq_getElem hi, List.getElem?_eq_getElem hj]
  rcases Nat.eq_or_lt_of_le hij with rfl | hlt
  · exact Nat.le_refl _
  · exact List.pairwise_iff_getElem.1 L.sorted i j hi hj hlt

/-- The loop of `auth_chain_find_pos`. -/
def findPosLoop (L : SizeList) (key : ℕ) : ℕ → ℕ → ℕ → ℕ
  | 0, low, _ => low
  | fuel + 1, low, high =>
      if low < high then
        let middle := (low + high) / 2
        if L.get middle < key then findPosLoop L key fuel (middle + 1) high
        else findPosLoop L key fuel low middle
      else low

/-- `auth_chain_find_pos`. -/
def findPos (L : SizeList) (key : ℕ) : ℕ :=
  if L.get (L.length - 1) < key then L.length
  else findPosLoop L key L.length 0 (L.length - 1)

/-- The search keeps an entry that is large enough at its upper end. -/
theorem findPosLoop_spec (L : SizeList) {key fuel low high : ℕ} (hfuel : high - low < fuel)
    (hle : low ≤ high) (hhigh : high < L.length) (hkey : key ≤ L.get high) :
    findPosLoop L key fuel low high < L.length ∧ key ≤ L.get (findPosLoop L key fuel low high) := by
  induction fuel generalizing low high with
  | zero => omega
  | succ fuel ih =>
      rw [findPosLoop]
      split
      · dsimp only
        split
        · exact ih (by omega) (by omega) hhigh hkey
        · rename_i hmiddle
          exact ih (by omega) (by omega) (by omega) (Nat.le_of_not_lt hmiddle)
      · obtain rfl : low = high := by omega
        exact ⟨hhigh, hkey⟩

theorem findPos_spec (L : SizeList) {key : ℕ} (h : key ≤ L.get (L.length - 1)) :
    L.findPos key < L.length ∧ key ≤ L.get (L.findPos key) := by
  have hpos := L.length_pos
  rw [findPos, if_neg (Nat.not_lt.2 h)]
  exact L.findPosLoop_spec (by omega) (Nat.zero_le _) (by omega) h

/-- From the position found on, the entries are large enough. -/
theorem le_get_of_findPos (L : SizeList) {key i : ℕ} (hle : L.findPos key ≤ i) (hi : i < L.length) :
    key ≤ L.get i := by
  have hkey : key ≤ L.get (L.length - 1) := by
    by_contra hlast
    rw [findPos, if_pos (Nat.lt_of_not_le hlast)] at hle
    omega
  exact (L.findPos_spec hkey).2.trans (L.get_mono hle hi)

end SizeList

/-- `n` values of the generator, as sizes. -/
def drawSizes : ℕ → Shift128Plus → Shift128Plus × List ℕ
  | 0, random => (random, [])
  | n + 1, random =>
      let q := drawSizes n random.next.1
      (q.1, random.next.2.toNat % 2340 % 2040 % 1440 :: q.2)

theorem drawSizes_length (n : ℕ) (random : Shift128Plus) : (drawSizes n random).2.length = n := by
  induction n generalizing random with
  | zero => rfl
  | succ n ih => rw [drawSizes, List.length_cons, ih]

theorem drawSizes_lt (n : ℕ) (random : Shift128Plus) : ∀ x ∈ (drawSizes n random).2, x < 1440 := by
  induction n generalizing random with
  | zero => simp [drawSizes]
  | succ n ih =>
      rw [drawSizes, List.forall_mem_cons]
      exact ⟨Nat.mod_lt _ (by omega), ih _⟩

/-- `qsort` with `data_size_list_compare`. -/
def qsort (sizes : List ℕ) (hne : sizes ≠ []) (hlt : ∀ x ∈ sizes, x < 1440) : SizeList where
  sizes := sizes.insertionSort (· ≤ ·)
  sorted := List.pairwise_insertionSort _ _
  nonempty := by
    intro h
    have hlen := List.length_insertionSort (· ≤ ·) sizes
    rw [h] at hlen
    exact hne (List.length_eq_zero_iff.1 hlen.symm)
  lt x hx := hlt x ((List.mem_insertionSort _).1 hx)

/-- A list of `n + k` sizes with `k > 0`, sorted. -/
def sortedDraws (n k : ℕ) (hk : 0 < k) (random : Shift128Plus) : SizeList :=
  qsort (drawSizes (n + k) random).2
    (fun h => by
      have hlen := drawSizes_length (n + k) random
      rw [h, List.length_nil] at hlen
      omega)
    (drawSizes_lt _ _)

def authChainBInitDataSize (key : Bytes) : SizeList × SizeList :=
  let n := (initFromBin key).draw 8
  let n2 := (drawSizes (n.2 + 4) n.1).1.draw 16
  (sortedDraws n.2 4 (by decide) n.1, sortedDraws n2.2 8 (by decide) n2.1)

def authChainCInitDataSize (key : Bytes) : SizeList :=
  let n := (initFromBin key).draw (8 + 16)
  sortedDraws n.2 (4 + 8) (by decide) n.1

/-- `auth_chain_d_check_and_patch_data_size`: sizes are added until a large one comes. -/
def checkAndPatch : ℕ → Shift128Plus → List ℕ → List ℕ
  | 0, _, sizes => sizes
  | fuel + 1, random, sizes =>
      if sizes.getLastD 0 < 1300 ∧ sizes.length < 64 then
        checkAndPatch fuel random.next.1 (sizes ++ [random.next.2.toNat % 2340 % 2040 % 1440])
      else sizes

theorem checkAndPatch_spec (fuel : ℕ) (random : Shift128Plus) {sizes : List ℕ} (hne : sizes ≠ [])
    (hlt : ∀ x ∈ sizes, x < 1440) :
    checkAndPatch fuel random sizes ≠ [] ∧ ∀ x ∈ checkAndPatch fuel random sizes, x < 1440 := by
  induction fuel generalizing random sizes with
  | zero => exact ⟨hne, hlt⟩
  | succ fuel ih =>
      rw [checkAndPatch]
      split
      · refine ih _ (by simp) ?_
        rw [List.forall_mem_append, List.forall_mem_singleton]
        exact ⟨hlt, Nat.mod_lt _ (by omega)⟩
      · exact ⟨hne, hlt⟩

/-- Sorting once more is harmless when nothing was added. -/
def authChainDInitDataSize (key : Bytes) : SizeList :=
  let n := (initFromBin key).draw (8 + 16)
  let L := sortedDraws n.2 (4 + 8) (by decide) n.1
  let patched := checkAndPatch_spec 64 (drawSizes (n.2 + (4 + 8)) n.1).1 L.nonempty L.lt
  qsort _ patched.1 patched.2

/-- The first eight bytes of the key are changed with the number of the current interval. -/
def authChainFInitDataSize (key : Bytes) (time keyChangeInterval : ℕ) : SizeList :=
  let day := time / keyChangeInterval
  authChainDInitDataSize (Lib.Hash.xorWith (be32 (day / 4294967296) ++ be32 day) key)

/-! ## Padding lengths -/

/-- The length of the padding by the length of the data alone. -/
def classLen (datalength : ℕ) (random : Shift128Plus) : Shift128Plus × ℕ :=
  if 1300 < datalength then random.draw 31
  else if 900 < datalength then random.draw 127
  else if 400 < datalength then random.draw 521
  else random.draw 1021

/-- A difference of two `int`s as an `unsigned int`. -/
def unsignedSub (a b : ℕ) : ℕ := (((a : ℤ) - b) % 4294967296).toNat

def authChainAGetRandLen (datalength : ℕ) (random : Shift128Plus) (lastHash : Bytes) :
    Shift128Plus × ℕ :=
  if 1440 < datalength then (random, 0)
  else classLen datalength (initFromBinDatalen lastHash datalength)

def authChainBGetRandLen (L : SizeList × SizeList) (overhead datalength : ℕ) (random : Shift128Plus)
    (lastHash : Bytes) : Shift128Plus × ℕ :=
  if 1440 ≤ datalength then (random, 0)
  else
    let r := (initFromBinDatalen lastHash datalength).draw L.1.length
    let finalPos := L.1.findPos (datalength + overhead) + r.2
    if finalPos < L.1.length then (r.1, unsignedSub (L.1.get finalPos) (datalength + overhead))
    else
      let pos2 := L.2.findPos (datalength + overhead)
      let r2 := r.1.draw L.2.length
      let finalPos2 := pos2 + r2.2
      if finalPos2 < L.2.length then (r2.1, unsignedSub (L.2.get finalPos2) (datalength + overhead))
      else if finalPos2 < pos2 + L.2.length - 1 then (r2.1, 0)
      else classLen datalength r2.1

def authChainCGetRandLen (L : SizeList) (overhead datalength : ℕ) (_random : Shift128Plus)
    (lastHash : Bytes) : Shift128Plus × ℕ :=
  let random := initFromBinDatalen lastHash datalength
  let otherDataSize := datalength + overhead
  if L.get (L.length - 1) ≤ otherDataSize then
    if 1440 < datalength then (random, 0) else classLen datalength random
  else
    let pos := L.findPos otherDataSize
    let r := random.draw (L.length - pos)
    (r.1, unsignedSub (L.get (pos + r.2)) otherDataSize)

def authChainDGetRandLen (L : SizeList) (overhead datalength : ℕ) (random : Shift128Plus)
    (lastHash : Bytes) : Shift128Plus × ℕ :=
  let otherDataSize := datalength + overhead
  if L.get (L.length - 1) ≤ otherDataSize then (random, 0)
  else
    let pos := L.findPos otherDataSize
    let r := (initFromBinDatalen lastHash datalength).draw (L.length - pos)
    (r.1, unsignedSub (L.get (pos + r.2)) otherDataSize)

def authChainEGetRandLen (L : SizeList) (overhead datalength : ℕ) (_random : Shift128Plus)
    (lastHash : Bytes) : Shift128Plus × ℕ :=
  let random := initFromBinDatalen lastHash datalength
  let otherDataSize := datalength + overhead
  if L.get (L.length - 1) ≤ otherDataSize then (random, 0)
  else (random, unsignedSub (L.get (L.findPos otherDataSize)) otherDataSize)

theorem classLen_lt (datalength : ℕ) (random : Shift128Plus) :
    (classLen datalength random).2 < 1440 := by
  have hdraw : ∀ n, 0 < n → n ≤ 1440 → (random.draw n).2 < 1440 :=
    fun n hpos hle => Nat.lt_of_lt_of_le (Nat.mod_lt _ hpos) hle
  unfold classLen
  split
  · exact hdraw 31 (by omega) (by omega)
  · split
    · exact hdraw 127 (by omega) (by omega)
    · split
      · exact hdraw 521 (by omega) (by omega)
      · exact hdraw 1021 (by omega) (by omega)

/-- A size from the position found on is not exceeded by what it has to cover. -/
theorem unsignedSub_get {L : SizeList} {key i : ℕ} (hle : L.findPos key ≤ i) (hi : i < L.length) :
    unsignedSub (L.get i) key < 1440 := by
  have hkey := L.le_get_of_findPos hle hi
  have hlt := L.get_lt hi
  unfold unsignedSub
  omega

/-! ## The protocols -/

/-- A protocol of the family, as `set_server_info` leaves it. -/
structure Variant where
  salt : Bytes
  getTcpRandLen : (datalength : ℕ) → (random : Shift128Plus) → (lastHash : Bytes) → Shift128Plus × ℕ
  /-- The length does not depend on what the generator was used for before, and if there is any
  padding, neither does what the generator is used for next. -/
  reseeds : ∀ n r r' h, (getTcpRandLen n r h).2 = (getTcpRandLen n r' h).2 ∧
    (0 < (getTcpRandLen n r h).2 → (getTcpRandLen n r h).1 = (getTcpRandLen n r' h).1)
  randLen_lt : ∀ n r h, (getTcpRandLen n r h).2 < 1440
  randLen_of_large : ∀ n r h, 1440 < n → (getTcpRandLen n r h).2 = 0

def authChainA : Variant where
  salt := ascii "auth_chain_a"
  getTcpRandLen := authChainAGetRandLen
  reseeds n r r' h := by
    unfold authChainAGetRandLen
    split <;> simp
  randLen_lt n r h := by
    unfold authChainAGetRandLen
    split
    · omega
    · exact classLen_lt _ _
  randLen_of_large n r h hn := by simp [authChainAGetRandLen, hn]

/-- The size lists and the overhead decide with the key. -/
def authChainB (key : Bytes) (overhead : ℕ) : Variant where
  salt := ascii "auth_chain_b"
  getTcpRandLen := authChainBGetRandLen (authChainBInitDataSize key) overhead
  reseeds n r r' h := by
    unfold authChainBGetRandLen
    split <;> simp
  randLen_lt n r h := by
    unfold authChainBGetRandLen
    dsimp only
    split
    · omega
    · split
      · exact unsignedSub_get (Nat.le_add_right _ _) ‹_›
      · split
        · exact unsignedSub_get (Nat.le_add_right _ _) ‹_›
        · split
          · omega
          · exact classLen_lt _ _
  randLen_of_large n r h hn := by simp [authChainBGetRandLen, Nat.le_of_lt hn]

/-- Data larger than every size of the list. -/
theorem SizeList.last_le (L : SizeList) {n overhead : ℕ} (hn : 1440 < n) :
    L.get (L.length - 1) ≤ n + overhead := by
  have hpos := L.length_pos
  have hlt := L.get_lt (show L.length - 1 < L.length by omega)
  omega

/-- Otherwise the position drawn lies in the list. -/
theorem SizeList.drawn_lt (L : SizeList) {key : ℕ} (h : ¬ L.get (L.length - 1) ≤ key)
    (random : Shift128Plus) :
    L.findPos key + (random.draw (L.length - L.findPos key)).2 < L.length := by
  have hspec := L.findPos_spec (Nat.le_of_lt (Nat.lt_of_not_le h))
  have hmod : (random.draw (L.length - L.findPos key)).2 < L.length - L.findPos key :=
    Nat.mod_lt _ (by omega)
  omega

def authChainC (key : Bytes) (overhead : ℕ) : Variant where
  salt := ascii "auth_chain_c"
  getTcpRandLen := authChainCGetRandLen (authChainCInitDataSize key) overhead
  reseeds n r r' h := ⟨rfl, fun _ => rfl⟩
  randLen_lt n r h := by
    unfold authChainCGetRandLen
    dsimp only
    split
    · split
      · omega
      · exact classLen_lt _ _
    · exact unsignedSub_get (Nat.le_add_right _ _) (SizeList.drawn_lt _ ‹_› _)
  randLen_of_large n r h hn := by
    simp [authChainCGetRandLen, SizeList.last_le _ hn, hn]

def authChainD (key : Bytes) (overhead : ℕ) : Variant where
  salt := ascii "auth_chain_d"
  getTcpRandLen := authChainDGetRandLen (authChainDInitDataSize key) overhead
  reseeds n r r' h := by
    unfold authChainDGetRandLen
    dsimp only
    split <;> simp
  randLen_lt n r h := by
    unfold authChainDGetRandLen
    dsimp only
    split
    · omega
    · exact unsignedSub_get (Nat.le_add_right _ _) (SizeList.drawn_lt _ ‹_› _)
  randLen_of_large n r h hn := by simp [authChainDGetRandLen, SizeList.last_le _ hn]

/-- `auth_chain_e` and `auth_chain_f`, which differ in their salt and their sizes. -/
def authChainOfSizes (salt : Bytes) (L : SizeList) (overhead : ℕ) : Variant where
  salt := salt
  getTcpRandLen := authChainEGetRandLen L overhead
  reseeds n r r' h := ⟨rfl, fun _ => rfl⟩
  randLen_lt n r h := by
    unfold authChainEGetRandLen
    dsimp only
    split
    · omega
    · rename_i hlast
      exact unsignedSub_get (Nat.le_refl _)
        (L.findPos_spec (Nat.le_of_lt (Nat.lt_of_not_le hlast))).1
  randLen_of_large n r h hn := by simp [authChainEGetRandLen, SizeList.last_le _ hn]

def authChainE (key : Bytes) (overhead : ℕ) : Variant :=
  authChainOfSizes (ascii "auth_chain_e") (authChainDInitDataSize key) overhead

/-- `time` is when `set_server_info` was called. -/
def authChainF (key : Bytes) (overhead time keyChangeInterval : ℕ) : Variant :=
  authChainOfSizes (ascii "auth_chain_f") (authChainFInitDataSize key time keyChangeInterval) overhead

/-! ## Agreement of the peers -/

/-- The protocols of the family. -/
inductive Protocol where
  | a | b | c | d | e | f
  deriving DecidableEq, Repr

/-- What a peer computes with; `time` is when it was set up. -/
def Protocol.variant (p : Protocol) (key : Bytes) (overhead time keyChangeInterval : ℕ) : Variant :=
  match p with
  | .a => authChainA
  | .b => authChainB key overhead
  | .c => authChainC key overhead
  | .d => authChainD key overhead
  | .e => authChainE key overhead
  | .f => authChainF key overhead time keyChangeInterval

/-- Only auth_chain_f depends on the time, and only through the number of the interval. -/
theorem Protocol.variant_congr {p : Protocol} (key : Bytes) (overhead : ℕ) {t t' i i' : ℕ}
    (h : p = .f → t / i = t' / i') : p.variant key overhead t i = p.variant key overhead t' i' := by
  cases p with
  | a => rfl
  | b => rfl
  | c => rfl
  | d => rfl
  | e => rfl
  | f =>
      have hsizes : authChainFInitDataSize key t i = authChainFInitDataSize key t' i' := by
        unfold authChainFInitDataSize
        rw [h rfl]
      unfold Protocol.variant authChainF
      rw [hsizes]

/-- Neither the padding nor the place of the data depends on the history of the generator. -/
theorem Variant.padding_eq (V : Variant) (n : ℕ) (r r' : Shift128Plus) (lastHash : Bytes) :
    (V.getTcpRandLen n r lastHash).2 = (V.getTcpRandLen n r' lastHash).2 ∧
      (getRandStartPos (V.getTcpRandLen n r lastHash).2 (V.getTcpRandLen n r lastHash).1).2 =
        (getRandStartPos (V.getTcpRandLen n r' lastHash).2 (V.getTcpRandLen n r' lastHash).1).2 := by
  obtain ⟨hlen, hstate⟩ := V.reseeds n r r' lastHash
  refine ⟨hlen, ?_⟩
  by_cases hpos : 0 < (V.getTcpRandLen n r lastHash).2
  · rw [hstate hpos, hlen]
  · -- without padding nothing is drawn
    have hpos' : ¬ 0 < (V.getTcpRandLen n r' lastHash).2 := hlen ▸ hpos
    rw [getRandStartPos, getRandStartPos, if_neg hpos, if_neg hpos']

end AuthChain
end Obfs
end SsrNative
