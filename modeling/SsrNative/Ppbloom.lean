import SsrNative.Aead

/-!
# Ppbloom — the two filters of used salts

`ppbloom.c` adds to one of two bloom filters, and when that one is full it clears the other and goes on
there.  What was added stays in one of the two until half of `n` further items were added
(`ppbloom_window`), if the filters could be set up; the vendored `bloom.c` sets none up for less than
1000 items.  Of the filters only the laws in `BloomLib` are used.  `replayed_stream_refused` says what this
means for the salts of `aead.c`.
-/

namespace SsrNative
namespace Ppbloom

open Bytes
open Lib.Segments

/-! ## The library -/

/-- `bloom.h`.  A filter finds what was added to it since it was cleared; one that is not ready answers
everything with -1. -/
structure BloomLib where
  Filter : Type
  /-- A `struct bloom` in static storage. -/
  zeroed : Filter
  ready : Filter → Bool
  init : (entries : ℤ) → Filter → Filter × ℤ
  check : Filter → Bytes → ℤ
  add : Filter → Bytes → Filter × ℤ
  reset : Filter → Filter
  init_ready : ∀ entries f, (init entries f).2 = 0 → ready (init entries f).1 = true
  add_ready : ∀ f x, ready f = true → (add f x).2 ≠ -1 ∧ ready (add f x).1 = true
  reset_ready : ∀ f, ready (reset f) = ready f
  check_ready : ∀ f x, ready f = true → check f x = 0 ∨ check f x = 1
  check_add_self : ∀ f x, ready f = true → check (add f x).1 x = 1
  check_add : ∀ f x y, ready f = true → check f y = 1 → check (add f x).1 y = 1

/-! ## The filter of libbloom -/

/-- `struct bloom`, with the bits of `bf`. -/
structure Bloom where
  entries : ℤ
  bits : ℕ
  hashes : ℕ
  bf : ℕ → Bool
  ready : Bool

/-- The mixing constant of `murmurhash2`. -/
def murmurM : UInt32 := 0x5bd1e995

/-- The loop of `murmurhash2` over words of four bytes, and the bytes behind the last word. -/
def murmurLoop (h : UInt32) : Bytes → UInt32
  | d₀ :: d₁ :: d₂ :: d₃ :: data =>
      let k := UInt32.ofNat (rdLe32 [d₀, d₁, d₂, d₃] 0) * murmurM
      let k := (k ^^^ (k >>> 24)) * murmurM
      murmurLoop ((h * murmurM) ^^^ k) data
  | [d₀, d₁, d₂] => (h ^^^ (d₂.toUInt32 <<< 16) ^^^ (d₁.toUInt32 <<< 8) ^^^ d₀.toUInt32) * murmurM
  | [d₀, d₁] => (h ^^^ (d₁.toUInt32 <<< 8) ^^^ d₀.toUInt32) * murmurM
  | [d₀] => (h ^^^ d₀.toUInt32) * murmurM
  | [] => h

def murmurhash2 (key : Bytes) (seed : UInt32) : UInt32 :=
  let h := murmurLoop (seed ^^^ UInt32.ofNat key.length) key
  let h := (h ^^^ (h >>> 13)) * murmurM
  h ^^^ (h >>> 15)

/-- What `bloom_init` computes of the error rate: whether it is zero, and the numbers of bits and of hash
functions for a number of entries.  The rate is below one, so that a filter has bits. -/
structure Sizes where
  errorZero : Bool
  bits : ℤ → ℕ
  hashes : ℤ → ℕ
  bits_pos : ∀ entries, 1000 ≤ entries → 0 < bits entries

/-- `bloom_init`, with memory for the bits. -/
def bloomInit (z : Sizes) (entries : ℤ) (b : Bloom) : Bloom × ℤ :=
  if entries < 1000 ∨ z.errorZero = true then ({ b with ready := false }, 1)
  else (⟨entries, z.bits entries, z.hashes entries, fun _ => false, true⟩, 0)

/-- The bits that `bloom_check_add` looks at for an item. -/
def Bloom.positions (b : Bloom) (item : Bytes) : List ℕ :=
  let h₁ := murmurhash2 item 0x9747b28c
  let h₂ := murmurhash2 item h₁
  (List.range b.hashes).map fun i => (h₁ + UInt32.ofNat i * h₂).toNat % b.bits

/-- The loop of `bloom_check_add`; a check ends at the first bit that is not set. -/
def checkAddLoop (add : Bool) : (ℕ → Bool) → ℕ → List ℕ → (ℕ → Bool) × Option ℕ
  | bf, hits, [] => (bf, some hits)
  | bf, hits, x :: xs =>
      if bf x = true then checkAddLoop add bf (hits + 1) xs
      else if add = true then checkAddLoop add (Function.update bf x true) hits xs
      else (bf, none)

def bloomCheckAdd (b : Bloom) (item : Bytes) (add : Bool) : Bloom × ℤ :=
  if b.ready = false then (b, -1)
  else
    let r := checkAddLoop add b.bf 0 (b.positions item)
    ({ b with bf := r.1 }, if r.2 = some b.hashes then 1 else 0)

def bloomCheck (b : Bloom) (item : Bytes) : ℤ := (bloomCheckAdd b item false).2

def bloomAdd (b : Bloom) (item : Bytes) : Bloom × ℤ := bloomCheckAdd b item true

def bloomReset (b : Bloom) : Bloom := if b.ready = false then b else { b with bf := fun _ => false }

theorem checkAddLoop_check (bf : ℕ → Bool) (hits : ℕ) (xs : List ℕ) :
    (checkAddLoop false bf hits xs).2 = if ∀ x ∈ xs, bf x = true then some (hits + xs.length) else none := by
  induction xs generalizing hits with
  | nil => simp [checkAddLoop]
  | cons x xs ih =>
      by_cases hx : bf x = true
      · rw [checkAddLoop, if_pos hx, ih, List.length_cons, Nat.add_right_comm, Nat.add_assoc]
        simp [hx]
      · simp [checkAddLoop, hx]

theorem checkAddLoop_add (bf : ℕ → Bool) (hits : ℕ) (xs : List ℕ) (y : ℕ) :
    (checkAddLoop true bf hits xs).1 y = true ↔ bf y = true ∨ y ∈ xs := by
  induction xs generalizing bf hits with
  | nil => simp [checkAddLoop]
  | cons x xs ih =>
      -- a bit that is set already counts as a hit, any other one is set
      by_cases hx : bf x = true
      · rw [checkAddLoop, if_pos hx, ih, List.mem_cons]
        constructor
        · rintro (h | h)
          · exact .inl h
          · exact .inr (.inr h)
        · rintro (h | rfl | h)
          · exact .inl h
          · exact .inl hx
          · exact .inr h
      · rw [checkAddLoop, if_neg hx, if_pos rfl, ih, List.mem_cons]
        by_cases hyx : y = x
        · simp [hyx]
        · simp [hyx]

theorem bloomCheck_eq_one_iff {b : Bloom} (hready : b.ready = true) (item : Bytes) :
    bloomCheck b item = 1 ↔ ∀ x ∈ b.positions item, b.bf x = true := by
  have hlen : (b.positions item).length = b.hashes := by simp [Bloom.positions]
  simp only [bloomCheck, bloomCheckAdd, hready, Bool.true_eq_false, if_false, checkAddLoop_check, hlen]
  by_cases hall : ∀ x ∈ b.positions item, b.bf x = true
  · simp only [if_pos hall, Nat.zero_add, if_true, true_iff]
    exact hall
  · simp only [if_neg hall, reduceCtorEq, if_false]
    exact iff_of_false (by decide) hall

/-- Additions only set bits, among them those of the item. -/
theorem bloomAdd_bf_iff {b : Bloom} (hready : b.ready = true) (item : Bytes) (y : ℕ) :
    (bloomAdd b item).1.bf y = true ↔ b.bf y = true ∨ y ∈ b.positions item := by
  simp only [bloomAdd, bloomCheckAdd, hready, Bool.true_eq_false, if_false, checkAddLoop_add]

theorem bloomAdd_ready {b : Bloom} (hready : b.ready = true) (item : Bytes) :
    (bloomAdd b item).2 ≠ -1 ∧ (bloomAdd b item).1.ready = true := by
  simp only [bloomAdd, bloomCheckAdd, hready, Bool.true_eq_false, if_false]
  refine ⟨?_, trivial⟩
  split_ifs
  · decide
  · decide

theorem bloomAdd_positions {b : Bloom} (hready : b.ready = true) (item item' : Bytes) :
    (bloomAdd b item).1.positions item' = b.positions item' := by
  simp only [bloomAdd, bloomCheckAdd, hready, Bool.true_eq_false, if_false]
  rfl

theorem bloomReset_ready (b : Bloom) : (bloomReset b).ready = b.ready := by
  unfold bloomReset
  split_ifs <;> rfl

/-- The library as `ppbloom.c` uses it. -/
def libbloom (z : Sizes) : BloomLib where
  Filter := Bloom
  zeroed := ⟨0, 0, 0, fun _ => false, false⟩
  ready := Bloom.ready
  init := bloomInit z
  check := bloomCheck
  add := bloomAdd
  reset := bloomReset
  init_ready entries f h := by
    unfold bloomInit at h ⊢
    split_ifs at h ⊢
    · cases h
    · rfl
  add_ready _ x h := bloomAdd_ready h x
  reset_ready := bloomReset_ready
  check_ready f x h := by
    simp only [bloomCheck, bloomCheckAdd, h, Bool.true_eq_false, if_false]
    split_ifs <;> simp
  check_add_self f x h := by
    rw [bloomCheck_eq_one_iff (bloomAdd_ready h x).2, bloomAdd_positions h]
    intro y hy
    exact (bloomAdd_bf_iff h x y).2 (.inr hy)
  check_add f x y h hy := by
    rw [bloomCheck_eq_one_iff h] at hy
    rw [bloomCheck_eq_one_iff (bloomAdd_ready h x).2, bloomAdd_positions h]
    intro i hi
    exact (bloomAdd_bf_iff h x i).2 (.inl (hy i hi))

/-! ## Ping and pong -/

/-- `PING` and `PONG`. -/
inductive Index where
  | ping
  | pong
  deriving DecidableEq

def Index.other : Index → Index
  | .ping => .pong
  | .pong => .ping

/-- The static variables of `ppbloom.c`. -/
structure State (B : BloomLib) where
  ppbloom : Index → B.Filter
  bloomCount : Index → ℤ
  current : Index
  entries : ℤ

section Definitions

variable (B : BloomLib)

def start : State B := ⟨fun _ => B.zeroed, fun _ => 0, .ping, 0⟩

def ppbloomInit (s : State B) (n : ℤ) : State B × ℤ :=
  let entries := n / 2
  let ping := B.init entries (s.ppbloom .ping)
  let filters := Function.update s.ppbloom .ping ping.1
  if ping.2 ≠ 0 then (⟨filters, s.bloomCount, s.current, entries⟩, ping.2)
  else
    let pong := B.init entries (filters .pong)
    let filters := Function.update filters .pong pong.1
    if pong.2 ≠ 0 then (⟨filters, s.bloomCount, s.current, entries⟩, pong.2)
    else (⟨filters, fun _ => 0, .ping, entries⟩, 0)

def ppbloomCheck (s : State B) (buffer : Bytes) : ℤ :=
  let ret := B.check (s.ppbloom .ping) buffer
  if ret ≠ 0 then ret
  else
    let ret := B.check (s.ppbloom .pong) buffer
    if ret ≠ 0 then ret else 0

def ppbloomAdd (s : State B) (buffer : Bytes) : State B × ℤ :=
  let r := B.add (s.ppbloom s.current) buffer
  let s := { s with ppbloom := Function.update s.ppbloom s.current r.1 }
  if r.2 = -1 then (s, r.2)
  else
    let s := { s with bloomCount := Function.update s.bloomCount s.current (s.bloomCount s.current + 1) }
    if s.entries ≤ s.bloomCount s.current then
      let s := { s with bloomCount := Function.update s.bloomCount s.current 0, current := s.current.other }
      ({ s with ppbloom := Function.update s.ppbloom s.current (B.reset (s.ppbloom s.current)) }, 0)
    else (s, 0)

/-- The state after a sequence of calls. -/
def after (s : State B) (items : List Bytes) : State B := (run (ppbloomAdd B) s items).1

end Definitions

/-! ## The window -/

section Window

variable {B : BloomLib}

@[simp] theorem Index.other_ne (i : Index) : i.other ≠ i := by
  cases i <;> decide

@[simp] theorem Index.ne_other (i : Index) : i ≠ i.other := by
  cases i <;> decide

@[simp] theorem Index.other_other (i : Index) : i.other.other = i := by
  cases i <;> rfl

/-- `items` were added, the last one first: the filter in use has as many of them as it counts, and the
other filter has the `entries` before. -/
structure Window (s : State B) (items : List Bytes) : Prop where
  entries_pos : 0 < s.entries
  ready : ∀ i, B.ready (s.ppbloom i) = true
  count_nonneg : 0 ≤ s.bloomCount s.current
  count_lt : s.bloomCount s.current < s.entries
  other_count : s.bloomCount s.current.other = 0
  recent : ∀ x ∈ items.take (s.bloomCount s.current).toNat, B.check (s.ppbloom s.current) x = 1
  older : ∀ x ∈ (items.drop (s.bloomCount s.current).toNat).take s.entries.toNat,
    B.check (s.ppbloom s.current.other) x = 1

variable {s : State B} {items : List Bytes}

/-- When `ppbloom_init` succeeds, both filters are ready. -/
theorem ppbloomInit_start {n : ℤ} (hinit : (ppbloomInit B (start B) n).2 = 0) :
    ∃ f, (ppbloomInit B (start B) n).1 = ⟨f, fun _ => 0, .ping, n / 2⟩ ∧ ∀ i, B.ready (f i) = true := by
  unfold ppbloomInit at hinit ⊢
  dsimp only at hinit ⊢
  split_ifs at hinit ⊢ with hping hpong
  · exact absurd hinit hping
  · exact absurd hinit hpong
  · refine ⟨_, rfl, fun i => ?_⟩
    cases i with
    | ping =>
        rw [Function.update_of_ne (by decide), Function.update_self]
        exact B.init_ready _ _ (not_not.1 hping)
    | pong =>
        rw [Function.update_self]
        exact B.init_ready _ _ (not_not.1 hpong)

theorem window_init {n : ℤ} (hn : 2 ≤ n) (hinit : (ppbloomInit B (start B) n).2 = 0) :
    Window (ppbloomInit B (start B) n).1 [] := by
  have hpos : 0 < n / 2 := by omega
  obtain ⟨f, hval, hready⟩ := ppbloomInit_start hinit
  rw [hval]
  exact ⟨hpos, hready, Int.le_refl 0, hpos, rfl, by simp, by simp⟩

/-- What a call does: it adds to the filter in use, and changes over if that one is full then. -/
theorem ppbloomAdd_cases (hready : B.ready (s.ppbloom s.current) = true) (x : Bytes) :
    (s.bloomCount s.current + 1 < s.entries ∧
      ppbloomAdd B s x =
        (⟨Function.update s.ppbloom s.current (B.add (s.ppbloom s.current) x).1,
          Function.update s.bloomCount s.current (s.bloomCount s.current + 1), s.current,
          s.entries⟩, 0)) ∨
      (s.entries ≤ s.bloomCount s.current + 1 ∧
        ppbloomAdd B s x =
          (⟨Function.update (Function.update s.ppbloom s.current (B.add (s.ppbloom s.current) x).1)
              s.current.other (B.reset (s.ppbloom s.current.other)),
            Function.update s.bloomCount s.current 0, s.current.other, s.entries⟩, 0)) := by
  have hadd := (B.add_ready _ x hready).1
  -- `bloom_count[current] >= entries` behind the increment
  by_cases hfull : s.entries ≤ s.bloomCount s.current + 1
  · refine .inr ⟨hfull, ?_⟩
    simp [ppbloomAdd, hadd, hfull]
  · refine .inl ⟨Int.not_le.1 hfull, ?_⟩
    simp [ppbloomAdd, hadd, hfull]

/-- The items of the filter in use, behind an addition. -/
theorem check_add_take {f : B.Filter} (hready : B.ready f = true) {x : Bytes} {k : ℕ}
    (h : ∀ y ∈ items.take k, B.check f y = 1) :
    ∀ y ∈ (x :: items).take (k + 1), B.check (B.add f x).1 y = 1 := by
  intro y hy
  rw [List.take_succ_cons] at hy
  rcases List.mem_cons.1 hy with rfl | hy
  · exact B.check_add_self f y hready
  · exact B.check_add f x y hready (h y hy)

section Add

variable (h : Window s items) (x : Bytes)

include h

/-- The filters stay ready, also the one that is cleared. -/
theorem Window.add_ready (i : Index) :
    B.ready (Function.update s.ppbloom s.current (B.add (s.ppbloom s.current) x).1 i) = true := by
  by_cases hcur : i = s.current
  · rw [hcur, Function.update_self]
    exact (B.add_ready _ x (h.ready s.current)).2
  · rw [Function.update_of_ne hcur]
    exact h.ready i

/-- An addition with room for another one. -/
theorem Window.add_room (hroom : s.bloomCount s.current + 1 < s.entries) :
    Window ⟨Function.update s.ppbloom s.current (B.add (s.ppbloom s.current) x).1,
      Function.update s.bloomCount s.current (s.bloomCount s.current + 1), s.current, s.entries⟩
      (x :: items) := by
  have hcount := h.count_nonneg
  have hnat : (s.bloomCount s.current + 1).toNat = (s.bloomCount s.current).toNat + 1 := by omega
  refine ⟨h.entries_pos, h.add_ready x, ?_, ?_, ?_, ?_, ?_⟩
  · -- the count of the filter in use
    dsimp only
    rw [Function.update_self]
    omega
  · dsimp only
    rwa [Function.update_self]
  · -- the other filter is as it was
    dsimp only
    rw [Function.update_of_ne (Index.other_ne _)]
    exact h.other_count
  · -- the new item joins those of the filter in use
    dsimp only
    rw [Function.update_self, Function.update_self, hnat]
    exact check_add_take (h.ready s.current) h.recent
  · dsimp only
    rw [Function.update_self, Function.update_of_ne (Index.other_ne _), hnat, List.drop_succ_cons]
    exact h.older

/-- The addition that fills the filter: it becomes the older one. -/
theorem Window.add_full (hfull : s.entries ≤ s.bloomCount s.current + 1) :
    Window ⟨Function.update (Function.update s.ppbloom s.current (B.add (s.ppbloom s.current) x).1)
        s.current.other (B.reset (s.ppbloom s.current.other)),
      Function.update s.bloomCount s.current 0, s.current.other, s.entries⟩ (x :: items) := by
  have hentries : s.entries.toNat = (s.bloomCount s.current).toNat + 1 := by
    have := h.count_lt
    have := h.count_nonneg
    omega
  have hcount : Function.update s.bloomCount s.current 0 s.current.other = 0 := by
    rw [Function.update_of_ne (Index.other_ne _)]
    exact h.other_count
  refine ⟨h.entries_pos, fun i => ?_, ?_, ?_, ?_, ?_, ?_⟩
  · -- `bloom_reset` keeps a filter ready, and so does an addition
    dsimp only
    by_cases hother : i = s.current.other
    · rw [hother, Function.update_self, B.reset_ready]
      exact h.ready s.current.other
    · rw [Function.update_of_ne hother]
      exact h.add_ready x i
  · -- the new filter starts to count at zero
    dsimp only
    exact Int.le_of_eq hcount.symm
  · dsimp only
    rw [hcount]
    exact h.entries_pos
  · dsimp only
    rw [Index.other_other, Function.update_self]
  · -- it has no items yet
    dsimp only
    rw [hcount]
    nofun
  · -- the full one has the last `entries` items, this one among them
    dsimp only
    rw [hcount, Index.other_other, Function.update_of_ne (Index.ne_other _), Function.update_self,
      hentries]
    exact check_add_take (h.ready s.current) h.recent

theorem Window.add : (ppbloomAdd B s x).2 = 0 ∧ (ppbloomAdd B s x).1.entries = s.entries ∧
    Window (ppbloomAdd B s x).1 (x :: items) := by
  rcases ppbloomAdd_cases (h.ready s.current) x with ⟨hroom, hval⟩ | ⟨hfull, hval⟩
  · rw [hval]
    exact ⟨rfl, rfl, h.add_room x hroom⟩
  · rw [hval]
    exact ⟨rfl, rfl, h.add_full x hfull⟩

end Add

theorem Window.addAll (h : Window s items) (xs : List Bytes) :
    (after B s xs).entries = s.entries ∧ Window (after B s xs) (xs.reverse ++ items) := by
  induction xs generalizing s items with
  | nil => exact ⟨rfl, h⟩
  | cons x xs ih =>
      obtain ⟨-, hentries, hadd⟩ := h.add x
      obtain ⟨hrest, hw⟩ := ih hadd
      rw [List.reverse_cons, List.append_assoc, List.singleton_append]
      exact ⟨hrest.trans hentries, hw⟩

/-- From `ppbloom_init` on. -/
theorem window_after {n : ℤ} (hn : 2 ≤ n) (hinit : (ppbloomInit B (start B) n).2 = 0) (items : List Bytes) :
    (after B (ppbloomInit B (start B) n).1 items).entries = n / 2 ∧
      Window (after B (ppbloomInit B (start B) n).1 items) items.reverse := by
  obtain ⟨f, hval, -⟩ := ppbloomInit_start hinit
  have hstart : (ppbloomInit B (start B) n).1.entries = n / 2 := congrArg State.entries hval
  obtain ⟨hentries, hw⟩ := (window_init hn hinit).addAll items
  rw [List.append_nil] at hw
  exact ⟨hentries.trans hstart, hw⟩

theorem Window.finds (h : Window s items) {x : Bytes} (hx : x ∈ items.take s.entries.toNat) :
    ppbloomCheck B s x = 1 := by
  -- an item is among those of the filter in use, or of the older one behind them
  have hfound : B.check (s.ppbloom s.current) x = 1 ∨ B.check (s.ppbloom s.current.other) x = 1 := by
    rw [← List.take_append_drop (s.bloomCount s.current).toNat items, List.take_append,
      List.mem_append] at hx
    rcases hx with hx | hx
    · exact .inl (h.recent x (List.mem_of_mem_take hx))
    · exact .inr (h.older x ((List.take_sublist_take_left (by omega)).mem hx))
  have hboth : B.check (s.ppbloom .ping) x = 1 ∨ B.check (s.ppbloom .pong) x = 1 := by
    cases hcur : s.current with
    | ping =>
        rw [hcur] at hfound
        exact hfound
    | pong =>
        rw [hcur] at hfound
        exact hfound.symm
  unfold ppbloomCheck
  -- `ppbloom_check` asks ping first, and pong only when ping says no
  rcases B.check_ready _ x (h.ready .ping) with hzero | hone
  · have hpong : B.check (s.ppbloom .pong) x = 1 := by
      rcases hboth with h1 | h1
      · rw [hzero] at h1
        cases h1
      · exact h1
    simp [hzero, hpong]
  · simp [hone]

end Window

/-- The vendored library sets filters up for 1000 items each or more. -/
theorem ppbloomInit_libbloom (z : Sizes) (n : ℤ) :
    (ppbloomInit (libbloom z) (start (libbloom z)) n).2 = 0 ↔ 2000 ≤ n ∧ z.errorZero = false := by
  have hinit : ∀ b, (bloomInit z (n / 2) b).2 = 0 ↔ 2000 ≤ n ∧ z.errorZero = false := by
    intro b
    unfold bloomInit
    split_ifs with hrefused
    · refine iff_of_false one_ne_zero fun h => hrefused.elim (fun hfew => ?_) fun hzero => ?_
      · omega
      · exact absurd (h.2.symm.trans hzero) Bool.false_ne_true
    · rw [not_or, Bool.not_eq_true] at hrefused
      exact iff_of_true rfl ⟨by omega, hrefused.2⟩
  unfold ppbloomInit
  dsimp only
  split_ifs with hping hpong
  · exact (not_iff_not.1 (iff_of_true hping fun h => hping ((hinit _).2 h)))
  · exact (not_iff_not.1 (iff_of_true hpong fun h => hpong ((hinit _).2 h)))
  · exact iff_of_true rfl ((hinit _).1 (not_not.1 hping))

/-- The sizes for an error rate of `1e-10`. -/
def sampleSizes : Sizes where
  errorZero := false
  bits entries := (entries * 47925 / 1000).toNat
  hashes _ := 34
  bits_pos entries h := by omega

open Aead
open Lib.Framing (drain)

section Replay

variable (B : BloomLib) (C : AeadCipher)

/-- The filter of used salts, as `aead.c` asks it. -/
@[reducible]
def saltFilter : Aead.Bloom where
  State := State B
  check s salt := decide (ppbloomCheck B s salt = 1)
  add s salt := (ppbloomAdd B s salt).1

/-- A call for any stream of the process. -/
inductive AeadCall where
  | encrypt (ctx : AeadCtx) (plaintext : Bytes)
  | decrypt (ctx : AeadCtx) (ciphertext : Bytes)

/-- The filter behind a call. -/
def AeadCall.filter (s : State B) : AeadCall → State B
  | .encrypt ctx plaintext => (aeadEncrypt C (saltFilter B) (ctx, s) plaintext).1.2
  | .decrypt ctx ciphertext => (aeadDecrypt C (saltFilter B) (ctx, s) ciphertext).1.2

/-- The salt that a call enters: the one of a stream of which it encrypts the first chunk or returns the
first plaintext. -/
def AeadCall.entered (s : State B) : AeadCall → List Bytes
  | .encrypt ctx plaintext => if plaintext.length = 0 ∨ ctx.init ≠ 0 then [] else [ctx.salt]
  | .decrypt ctx ciphertext =>
      let r := aeadDecrypt C (saltFilter B) (ctx, s) ciphertext
      if ctx.init ≤ 1 ∧ r.2.1 = .ok then [r.1.1.salt] else []

/-- The filter behind a sequence of calls. -/
def filterAfter (s : State B) (calls : List AeadCall) : State B :=
  calls.foldl (fun s call => call.filter B C s) s

/-- The salts that a sequence of calls enters. -/
def enteredBy (s : State B) : List AeadCall → List Bytes
  | [] => []
  | call :: calls => call.entered B C s ++ enteredBy (call.filter B C s) calls

variable {B C}

theorem after_append (s : State B) (xs ys : List Bytes) :
    after B s (xs ++ ys) = after B (after B s xs) ys := by
  unfold after
  rw [run_append]

/-- Behind the salt: it is entered with the first plaintext. -/
theorem decryptChunks_filter (F : Aead.Bloom) (ctx : AeadCtx) (b : F.State) (ciphertext : Bytes) :
    (decryptChunks C F ctx b ciphertext).1.1.salt = ctx.salt ∧
      (decryptChunks C F ctx b ciphertext).1.2 =
        if ctx.init = 1 ∧ (decryptChunks C F ctx b ciphertext).2.1 = .ok then F.add b ctx.salt else b := by
  generalize hd : drain (aeadChunkDecrypt C ctx.skey) (ctx.chunk.length + 1) ctx.nonce ctx.chunk [] = d
  cases hstop : d.stop with
  | some e => simp [decryptChunks, hd, hstop]
  | none =>
      by_cases hwait : d.out = [] ∧ d.rest ≠ []
      · simp [decryptChunks, hd, hstop, hwait]
      · by_cases hone : ctx.init = 1
        · by_cases hused : F.check b ctx.salt = true
          · simp [decryptChunks, hd, hstop, hwait, hone, hused]
          · simp [decryptChunks, hd, hstop, hwait, hone, hused]
        · simp [decryptChunks, hd, hstop, hwait, hone]

/-- `aead_decrypt` enters the salt with the first plaintext. -/
theorem aeadDecrypt_filter (F : Aead.Bloom) (ctx : AeadCtx) (b : F.State) (ciphertext : Bytes) :
    (aeadDecrypt C F (ctx, b) ciphertext).1.2 =
      if ctx.init ≤ 1 ∧ (aeadDecrypt C F (ctx, b) ciphertext).2.1 = .ok then
        F.add b (aeadDecrypt C F (ctx, b) ciphertext).1.1.salt
      else b := by
  -- behind the salt `init` is 1 until then
  have hchunks (ctx₁ : AeadCtx) (hinit : ctx₁.init = 1 ↔ ctx.init ≤ 1)
      (hcall : aeadDecrypt C F (ctx, b) ciphertext = decryptChunks C F ctx₁ b ciphertext) :
      (aeadDecrypt C F (ctx, b) ciphertext).1.2 =
        if ctx.init ≤ 1 ∧ (aeadDecrypt C F (ctx, b) ciphertext).2.1 = .ok then
          F.add b (aeadDecrypt C F (ctx, b) ciphertext).1.1.salt
        else b := by
    obtain ⟨hsalt, hfilter⟩ := decryptChunks_filter (C := C) F ctx₁ b ciphertext
    rw [hcall, hfilter, hsalt]
    exact if_congr (and_congr_left' hinit) rfl rfl
  by_cases hinit : ctx.init = 0
  · by_cases hshort : (ctx.chunk ++ ciphertext).length ≤ C.keyLen
    · simp only [aeadDecrypt, hinit, if_true, if_pos hshort, reduceCtorEq, and_false, if_false]
    · by_cases hused : F.check b ((ctx.chunk ++ ciphertext).take C.keyLen) = true
      · simp only [aeadDecrypt, hinit, if_true, if_neg hshort, if_pos hused, reduceCtorEq, and_false, if_false]
      · refine hchunks { aeadCipherCtxSetKey C { ctx with
            chunk := ctx.chunk ++ ciphertext, salt := (ctx.chunk ++ ciphertext).take C.keyLen } with
          init := 1, chunk := (ctx.chunk ++ ciphertext).drop C.keyLen } (iff_of_true rfl (by omega)) ?_
        simp only [aeadDecrypt, hinit, if_true, if_neg hshort, if_neg hused]
  · refine hchunks { ctx with chunk := ctx.chunk ++ ciphertext } (by dsimp only; omega) ?_
    simp only [aeadDecrypt, hinit, if_false]

/-- A call changes the filter by the salt that it enters. -/
theorem AeadCall.filter_eq (s : State B) (call : AeadCall) :
    call.filter B C s = after B s (call.entered B C s) := by
  cases call with
  | encrypt ctx plaintext =>
      by_cases hnil : plaintext.length = 0
      · simp [AeadCall.filter, AeadCall.entered, aeadEncrypt, hnil, after]
      · by_cases hinit : ctx.init = 0
        · simp [AeadCall.filter, AeadCall.entered, aeadEncrypt, hnil, hinit, after, run_cons, saltFilter,
            aeadCipherCtxSetKey]
        · simp [AeadCall.filter, AeadCall.entered, aeadEncrypt, hnil, hinit, after]
  | decrypt ctx ciphertext =>
      have hfilter := aeadDecrypt_filter (C := C) (saltFilter B) ctx s ciphertext
      unfold AeadCall.filter AeadCall.entered
      dsimp only
      rw [hfilter]
      by_cases hfirst : ctx.init ≤ 1 ∧ (aeadDecrypt C (saltFilter B) (ctx, s) ciphertext).2.1 = .ok
      · rw [if_pos hfirst, if_pos hfirst]
        rfl
      · rw [if_neg hfirst, if_neg hfirst]
        rfl

theorem filterAfter_eq (s : State B) (calls : List AeadCall) :
    filterAfter B C s calls = after B s (enteredBy B C s calls) := by
  induction calls generalizing s with
  | nil => rfl
  | cons call calls ih =>
      rw [enteredBy, after_append, ← AeadCall.filter_eq]
      exact ih (call.filter B C s)

/-- While less than `entries` other salts were entered, a stream with this salt is refused when the salt
is complete, in whatever pieces it arrives. -/
theorem Window.refuses {s : State B} {items : List Bytes} (h : Window s items) {salt : Bytes}
    (hlen : salt.length = C.keyLen) (hrecent : salt ∈ items.take s.entries.toNat) {rest : Bytes}
    (segs : List Bytes) (ctx : AeadCtx) (hinit : ctx.init = 0) (hstream : ctx.chunk ++ segs.flatten = salt ++ rest) :
    (∀ r ∈ (run (ssDecryptAead C (saltFilter B)) (ctx, s) segs).2, r = (.ok, []) ∨ r.1 = .error) ∧
      (ctx.chunk.length ≤ C.keyLen → rest ≠ [] →
        ∃ r ∈ (run (ssDecryptAead C (saltFilter B)) (ctx, s) segs).2, r.1 = .error) := by
  have hused : (saltFilter B).check s salt = true := decide_eq_true (h.finds hrecent)
  induction segs generalizing ctx with
  | nil =>
      refine ⟨nofun, fun hshort hrest => ?_⟩
      have hall := congrArg List.length hstream
      have hpos := List.length_pos_iff.2 hrest
      simp only [List.flatten_nil, List.append_nil, List.length_append] at hall
      omega
  | cons seg segs ih =>
      rw [run_cons, List.forall_mem_cons, List.exists_mem_cons_iff]
      rw [List.flatten_cons, ← List.append_assoc] at hstream
      by_cases hshort : (ctx.chunk ++ seg).length ≤ C.keyLen
      · -- the salt is not complete, and the call waits for more
        have hcall : ssDecryptAead C (saltFilter B) (ctx, s) seg =
            (({ ctx with chunk := ctx.chunk ++ seg }, s), (.ok, [])) := by
          simp only [ssDecryptAead, aeadDecrypt, hinit, if_true, if_pos hshort, and_self]
        rw [hcall]
        obtain ⟨hall, herror⟩ := ih { ctx with chunk := ctx.chunk ++ seg } hinit hstream
        exact ⟨⟨.inl rfl, hall⟩, fun _ hrest => .inr (herror hshort hrest)⟩
      · -- the salt is complete, and the filter reports it
        have htake : (ctx.chunk ++ seg).take C.keyLen = salt := by
          have hprefix := congrArg (List.take C.keyLen) hstream
          rwa [List.take_append_of_le_length (by omega), List.take_left' hlen] at hprefix
        have hcall : ssDecryptAead C (saltFilter B) (ctx, s) seg =
            (({ ctx with chunk := ctx.chunk ++ seg, salt := salt }, s), (.error, seg)) := by
          simp only [ssDecryptAead, aeadDecrypt, hinit, if_true, if_neg hshort, htake, if_pos hused,
            reduceCtorEq, false_and, if_false]
        rw [hcall]
        have hrest := ih { ctx with chunk := ctx.chunk ++ seg, salt := salt } hinit hstream
        exact ⟨⟨.inr rfl, hrest.1⟩, fun _ _ => .inl rfl⟩

variable (B C)

/-- Behind any calls of `aead_encrypt` and `aead_decrypt` for any streams, a stream whose salt is among the
last `n / 2` that were entered delivers nothing, in whatever pieces it arrives, and is refused when more
than the salt has come. -/
theorem replayed_stream_refused {n : ℤ} (hn : 2 ≤ n) (hinit : (ppbloomInit B (start B) n).2 = 0)
    (calls : List AeadCall) {salt rest : Bytes} (hlen : salt.length = C.keyLen)
    (hrecent : salt ∈ (enteredBy B C (ppbloomInit B (start B) n).1 calls).reverse.take (n / 2).toNat)
    {segs : List Bytes} (hstream : segs.flatten = salt ++ rest) :
    (∀ r ∈ (run (ssDecryptAead C (saltFilter B))
        (aeadCtxInit C [], filterAfter B C (ppbloomInit B (start B) n).1 calls) segs).2,
      r = (.ok, []) ∨ r.1 = .error) ∧
    (rest ≠ [] → ∃ r ∈ (run (ssDecryptAead C (saltFilter B))
        (aeadCtxInit C [], filterAfter B C (ppbloomInit B (start B) n).1 calls) segs).2, r.1 = .error) := by
  obtain ⟨hentries, hw⟩ := window_after hn hinit (enteredBy B C (ppbloomInit B (start B) n).1 calls)
  rw [← hentries] at hrecent
  rw [filterAfter_eq]
  obtain ⟨hall, herror⟩ := hw.refuses hlen hrecent segs (aeadCtxInit C []) rfl hstream
  exact ⟨hall, herror (Nat.zero_le _)⟩

end Replay

/-- A stream is sent with this salt, and then one with it comes in two pieces. -/
theorem replayed_stream_refused_sample :
    ∃ r ∈ (run (ssDecryptAead (chacha20IetfPoly1305 sampleSalt) (saltFilter (libbloom sampleSizes)))
        (aeadCtxInit (chacha20IetfPoly1305 sampleSalt) [], filterAfter (libbloom sampleSizes)
          (chacha20IetfPoly1305 sampleSalt) (ppbloomInit (libbloom sampleSizes) (start _) 2000).1
          [.encrypt (aeadCtxInit (chacha20IetfPoly1305 sampleSalt) sampleSalt) [1, 2, 3]])
        [sampleSalt.take 20, sampleSalt.drop 20 ++ [7, 7]]).2,
      r.1 = .error := by
  have hstream : [sampleSalt.take 20, sampleSalt.drop 20 ++ [7, 7]].flatten = sampleSalt ++ [7, 7] := by
    rw [List.flatten_cons, List.flatten_cons, List.flatten_nil, List.append_nil, ← List.append_assoc,
      List.take_append_drop]
  exact (replayed_stream_refused (libbloom sampleSizes) (chacha20IetfPoly1305 sampleSalt) (by decide)
    ((ppbloomInit_libbloom sampleSizes 2000).2 ⟨by decide, rfl⟩)
    [.encrypt (aeadCtxInit (chacha20IetfPoly1305 sampleSalt) sampleSalt) [1, 2, 3]] rfl
    (List.mem_cons_self (a := sampleSalt)) hstream).2 (by simp)

end Ppbloom
end SsrNative
