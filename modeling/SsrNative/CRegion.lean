import SsrNative.Lib.Search
import SsrNative.SsrBuffer

/-!
# CRegion — texts with their terminator

A function that gets a `char *` may read up to the NUL and no further.
-/

namespace SsrNative

open Bytes
open Lib.Demand
open Lib.Demand.Demanding
open Lib.Search

/-! ## A text in its array -/

/-- The terminator of a text that has one. -/
theorem eq_cString_append {m : Bytes} (h : 0 ∈ m) : ∃ rest, m = cString m ++ 0 :: rest := by
  have hsplit : cString m ++ m.dropWhile (· != 0) = m := List.takeWhile_append_dropWhile
  cases hrest : m.dropWhile (· != 0) with
  | nil =>
      rw [hrest, List.append_nil] at hsplit
      rw [← hsplit] at h
      exact absurd h (not_mem_cString m)
  | cons x rest =>
      have hx : x = 0 := by
        have hhead := List.head?_dropWhile_not (fun x : UInt8 => x != 0) m
        rw [hrest] at hhead
        simpa using hhead
      rw [hrest, hx] at hsplit
      exact ⟨rest, hsplit.symm⟩

theorem byteAt_cString {m : Bytes} (h : 0 ∈ m) {i : ℕ} (hi : i ≤ (cString m).length) :
    byteAt (cString m) i = byteAt m i := by
  rcases eq_cString_append h with ⟨rest, hm⟩
  conv_rhs => rw [hm]
  rcases Nat.lt_or_eq_of_le hi with hlt | rfl
  · exact (byteAt_append_left hlt).symm
  · rw [byteAt_append_right (Nat.le_refl _), Nat.sub_self, byteAt, List.getD_eq_getElem?_getD,
      List.getElem?_eq_none (Nat.le_refl _)]
    rfl

theorem take_cString (m : Bytes) {n : ℕ} (h : n ≤ (cString m).length) : m.take n = (cString m).take n := by
  rcases cString_initial m with ⟨rest, hm⟩
  conv_lhs => rw [← hm]
  exact List.take_append_of_le_length h

theorem not_mem_take (m : Bytes) {n : ℕ} (h : n ≤ (cString m).length) : (0 : UInt8) ∉ m.take n := by
  rw [take_cString m h]
  exact fun hmem => not_mem_cString m (List.mem_of_mem_take hmem)

theorem cString_drop (m : Bytes) {n : ℕ} (h : n ≤ (cString m).length) :
    cString (m.drop n) = (cString m).drop n := by
  have hlen : (m.take n).length = n := by
    rw [take_cString m h, List.length_take]
    exact Nat.min_eq_left h
  have happ := cString_append (not_mem_take m h) (m.drop n)
  rw [List.take_append_drop] at happ
  rw [happ, List.drop_left' hlen]

/-! ## What may be read -/

/-- A C string that is stored in `m`, with its terminator, and what stands behind it: the rest of `m`, and
then what is not known. -/
def cRegion (behind : ℕ → UInt8) (m : Bytes) : Region UInt8 where
  cells := cString m ++ [0]
  beyond := fun i => (m.drop ((cString m).length + 1)).getD i (behind i)

section Region

variable {behind : ℕ → UInt8} {m : Bytes}

variable (behind) in
/-- The terminator can be read as well. -/
theorem cRegion_read {i : ℕ} (h : i ≤ (cString m).length) :
    ((cRegion behind m).read i).Yields (byteAt (cString m) i) := by
  refine ⟨(Region.met_read _ _).2 ?_, ?_⟩
  · simpa [cRegion] using Nat.lt_succ_of_le h
  · have hlt : i < (cString m ++ [0]).length := by simpa using Nat.lt_succ_of_le h
    rw [Region.value_read, get_eq_byteAt (by exact hlt)]
    rcases Nat.lt_or_eq_of_le h with hinside | rfl
    · exact byteAt_append_left hinside
    · rw [cRegion, byteAt_append_right (Nat.le_refl _), Nat.sub_self]
      simp [byteAt]

theorem cRegion_met_read (i : ℕ) : ((cRegion behind m).read i).Met ↔ i ≤ (cString m).length := by
  simp [cRegion, Nat.lt_succ_iff]

end Region

/-! ## A search in memory -/

/-- Whether `needle` stands at `i`.  The comparison ends with the first difference. -/
def prefixIn (r : Region UInt8) (i : ℕ) : Bytes → Demanding Bool
  | [] => return true
  | c :: needle => do
      let x ← r.read i
      if x = c then prefixIn r (i + 1) needle else return false

/-- `strstr` in memory: the search ends with the first occurrence or with the first NUL, wherever that stands.
`fuel` bounds the search behind the cells. -/
def strstrIn (r : Region UInt8) (needle : Bytes) : ℕ → ℕ → Demanding (Option ℕ)
  | 0, _ => return none
  | fuel + 1, i => do
      let found ← prefixIn r i needle
      if found = true then return some i
      else do
        let x ← r.read i
        if x = 0 then return none else strstrIn r needle fuel (i + 1)

section Search

variable {r : Region UInt8}

/-- The comparison stays in the cells unless they end in the middle of the pattern. -/
theorem prefixIn_yields {needle l : Bytes} {i : ℕ} (hl : r.cells.drop i = l)
    (h : needle <+: l ∨ ¬ l <+: needle) : (prefixIn r i needle).Yields (decide (needle <+: l)) := by
  induction needle generalizing i l with
  | nil => simp [prefixIn, yields_pure]
  | cons c needle ih =>
      cases l with
      | nil => simp at h
      | cons x l =>
          obtain ⟨hread, hnext⟩ := Region.read_of_drop hl
          rw [prefixIn, hread.bind]
          by_cases hx : x = c
          · rw [if_pos hx]
            simp only [hx, List.cons_prefix_cons, true_and] at h ⊢
            exact ih hnext h
          · rw [if_neg hx, yields_pure]
            simp [List.cons_prefix_cons, Ne.symm hx]

theorem prefixIn_not_met {needle l : Bytes} {i : ℕ} (hl : r.cells.drop i = l) (hpre : l <+: needle)
    (hshort : l.length < needle.length) : ¬ (prefixIn r i needle).Met := by
  induction needle generalizing i l with
  | nil => simp at hshort
  | cons c needle ih =>
      rw [prefixIn, met_bind, Region.met_read]
      cases l with
      | nil =>
          have hend : r.cells.length ≤ i := List.drop_eq_nil_iff.1 hl
          exact fun hmet => Nat.not_lt.2 hend hmet.1
      | cons x l =>
          obtain ⟨hread, hnext⟩ := Region.read_of_drop hl
          simp only [List.cons_prefix_cons, List.length_cons, Nat.add_lt_add_iff_right] at hpre hshort
          rw [hread.2, if_pos hpre.1]
          exact fun hmet => ih hnext hpre.2 hshort hmet.2

/-- A search that finds neither runs off the cells. -/
theorem strstrIn_not_met {needle l : Bytes} {fuel i : ℕ} (hl : r.cells.drop i = l) (hfuel : l.length < fuel)
    (hzero : (0 : UInt8) ∉ l) (hnone : findSub needle l = none) : ¬ (strstrIn r needle fuel i).Met := by
  induction fuel generalizing i l with
  | zero => exact absurd hfuel (Nat.not_lt_zero _)
  | succ fuel ih =>
      have hpre : ¬ needle <+: l := fun hp => by
        rw [findSub_zero hp] at hnone
        cases hnone
      by_cases hcut : l <+: needle
      · have hshort : l.length < needle.length := by
          by_contra hlong
          exact hpre (hcut.eq_of_length_le (Nat.not_lt.1 hlong) ▸ List.prefix_refl _)
        rw [strstrIn, met_bind]
        exact fun hmet => prefixIn_not_met hl hcut hshort hmet.1
      · rw [strstrIn, (prefixIn_yields hl (Or.inr hcut)).met_bind, if_neg (by simpa using hpre)]
        cases l with
        | nil => simp at hcut
        | cons x l =>
            obtain ⟨hread, hnext⟩ := Region.read_of_drop hl
            simp only [List.mem_cons, not_or] at hzero
            rw [findSub_cons_of_not hpre, Option.map_eq_none_iff] at hnone
            rw [hread.met_bind, if_neg (Ne.symm hzero.1)]
            exact ih hnext (by simpa using hfuel) hzero.2 hnone

variable {needle : Bytes} (hnul : (0 : UInt8) ∉ needle) (hne : needle ≠ [])

include hnul hne

/-- A search that finds a NUL or the pattern in the cells stays there. -/
theorem strstrIn_yields {l : Bytes} {fuel i : ℕ} (hl : r.cells.drop i = l) (hfuel : l.length < fuel)
    (h : 0 ∈ l ∨ findSub needle l ≠ none) :
    (strstrIn r needle fuel i).Yields ((findSub needle (cString l)).map (i + ·)) := by
  induction fuel generalizing i l with
  | zero => exact absurd hfuel (Nat.not_lt_zero _)
  | succ fuel ih =>
      -- the comparison here stays in the cells, which have a NUL or the whole pattern ahead
      have hstays : needle <+: l ∨ ¬ l <+: needle := by
        by_contra hcut
        simp only [not_or, not_not] at hcut
        rcases h with h | h
        · exact hnul (hcut.2.subset h)
        · rcases Option.ne_none_iff_exists'.1 h with ⟨j, hj⟩
          have hlong := findSub_le hj hne
          exact hcut.1 (hcut.2.eq_of_length_le (by omega) ▸ List.prefix_refl _)
      rw [strstrIn, (prefixIn_yields hl hstays).bind]
      by_cases hpre : needle <+: l
      · obtain ⟨rest, rfl⟩ := hpre
        rw [if_pos (decide_eq_true (List.prefix_append _ _)), yields_pure, cString_append hnul,
          findSub_zero (List.prefix_append _ _)]
        rfl
      rw [if_neg (by simpa using hpre)]
      cases l with
      | nil => simp [findSub, hne] at h
      | cons x l =>
          obtain ⟨hread, hnext⟩ := Region.read_of_drop hl
          rw [hread.bind]
          by_cases hx : x = 0
          · rw [if_pos hx, yields_pure, hx]
            simp [cString, findSub, hne]
          · have hcstr : cString (x :: l) = x :: cString l := by simp [cString, hx]
            have hlater : ¬ needle <+: x :: cString l := fun hp =>
              hpre (hcstr ▸ hp |>.trans (cString_initial _))
            rw [findSub_cons_of_not hpre] at h
            have hrest : 0 ∈ l ∨ findSub needle l ≠ none := by
              simpa [Ne.symm hx] using h
            rw [if_neg hx, hcstr, findSub_cons_of_not hlater, Option.map_map]
            have hsum : ((i + ·) ∘ (· + 1) : ℕ → ℕ) = (i + 1 + ·) := by
              funext k
              simp only [Function.comp]
              omega
            rw [hsum]
            exact ih hnext (by simpa using hfuel) hrest

/-- The search from the first cell on. -/
theorem strstrIn_met_iff :
    (strstrIn r needle (r.cells.length + 1) 0).Met ↔ 0 ∈ r.cells ∨ findSub needle r.cells ≠ none := by
  constructor
  · intro hmet
    by_contra hnot
    simp only [not_or, not_not] at hnot
    exact strstrIn_not_met List.drop_zero (Nat.lt_succ_self _) hnot.1 hnot.2 hmet
  · exact fun h => (strstrIn_yields hnul hne List.drop_zero (Nat.lt_succ_self _) h).1

end Search

end SsrNative
