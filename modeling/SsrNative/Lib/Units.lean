import Mathlib.Data.List.Basic
import Mathlib.Data.Nat.Basic

/-!
# Units — loops that cut a buffer into units

A sender cuts its data into units of one size and makes a frame of each; what is left at the end is
not larger than a unit.  The loop ends exactly when a unit is not empty, or there is nothing to cut,
and the length of what it puts out is a sum over the units.
-/

namespace SsrNative
namespace Lib
namespace Units

variable {σ α β γ : Type*}

/-- A loop that is given fuel ends when more fuel changes nothing. -/
def Ends (loop : ℕ → γ) : Prop := ∃ n, ∀ m, n ≤ m → loop m = loop n

section Loop

variable (unit : ℕ) (frame last : ℕ → σ → List α → σ × List β)

/-- The loop: a frame of every unit, and the last frame. -/
def splitUnits : ℕ → ℕ → σ → List α → σ × List β
  | 0, _, s, _ => (s, [])
  | fuel + 1, i, s, data =>
      if unit < data.length then
        let r := frame i s (data.take unit)
        let q := splitUnits fuel (i + 1) r.1 (data.drop unit)
        (q.1, r.2 ++ q.2)
      else last i s data

variable {unit frame last}

theorem splitUnits_long {data : List α} (h : unit < data.length) (fuel i : ℕ) (s : σ) :
    splitUnits unit frame last (fuel + 1) i s data =
      ((splitUnits unit frame last fuel (i + 1) (frame i s (data.take unit)).1 (data.drop unit)).1,
        (frame i s (data.take unit)).2 ++
          (splitUnits unit frame last fuel (i + 1) (frame i s (data.take unit)).1
            (data.drop unit)).2) := by
  rw [splitUnits, if_pos h]

theorem splitUnits_short {data : List α} (h : data.length ≤ unit) (fuel i : ℕ) (s : σ) :
    splitUnits unit frame last (fuel + 1) i s data = last i s data := by
  rw [splitUnits, if_neg (Nat.not_lt.2 h)]

/-! ## Termination -/

/-- Units that are not empty use the data up, so that more fuel is never touched. -/
theorem splitUnits_fuel (hunit : 0 < unit) {m n : ℕ} {data : List α} (hm : data.length < m)
    (hn : data.length < n) (i : ℕ) (s : σ) :
    splitUnits unit frame last m i s data = splitUnits unit frame last n i s data := by
  induction m generalizing n data i s with
  | zero => omega
  | succ m ih =>
      obtain ⟨n, rfl⟩ : ∃ k, n = k + 1 := ⟨n - 1, by omega⟩
      by_cases hlong : unit < data.length
      · have hdrop : (data.drop unit).length = data.length - unit := List.length_drop
        rw [splitUnits_long hlong, splitUnits_long hlong, ih (n := n) (by omega) (by omega)]
      · rw [splitUnits_short (Nat.not_lt.1 hlong), splitUnits_short (Nat.not_lt.1 hlong)]

/-- Empty units leave the data as it is, and every pass puts out a frame. -/
theorem le_splitUnits_zero (hframe : ∀ i s d, 0 < (frame i s d).2.length) {data : List α}
    (hdata : data ≠ []) (fuel i : ℕ) (s : σ) :
    fuel ≤ (splitUnits 0 frame last fuel i s data).2.length := by
  induction fuel generalizing i s with
  | zero => exact Nat.zero_le _
  | succ fuel ih =>
      have hone := hframe i s (data.take 0)
      have hrest := ih (i + 1) (frame i s (data.take 0)).1
      rw [splitUnits_long (List.length_pos_iff.2 hdata), List.length_append, List.drop_zero]
      omega

theorem splitUnits_ends_iff (hframe : ∀ i s d, 0 < (frame i s d).2.length) (i : ℕ) (s : σ)
    (data : List α) :
    Ends (fun fuel => splitUnits unit frame last fuel i s data) ↔ 0 < unit ∨ data = [] := by
  constructor
  · rintro ⟨n, hn⟩
    by_contra h
    obtain ⟨hunit, hdata⟩ := not_or.1 h
    obtain rfl : unit = 0 := by omega
    let most := (splitUnits 0 frame last n i s data).2.length
    have hlong : n + most + 1 ≤ (splitUnits 0 frame last (n + most + 1) i s data).2.length :=
      le_splitUnits_zero hframe hdata (n + most + 1) i s
    have heq := hn (n + most + 1) (by omega)
    dsimp only at heq
    rw [heq] at hlong
    omega
  · rintro (hunit | rfl)
    · exact ⟨data.length + 1, fun m hm => splitUnits_fuel hunit (by omega) (by omega) i s⟩
    · refine ⟨1, fun m hm => ?_⟩
      obtain ⟨m, rfl⟩ : ∃ k, m = k + 1 := ⟨m - 1, by omega⟩
      exact (splitUnits_short (Nat.zero_le _) m i s).trans (splitUnits_short (Nat.zero_le _) 0 i s).symm

/-! ## Lengths -/

/-- What `n` bytes make when `k` bytes of data make `size k`. -/
def unitsTotal (size : ℕ → ℕ) (unit n : ℕ) : ℕ :=
  (n - 1) / unit * size unit + size (n - (n - 1) / unit * unit)

theorem unitsTotal_short (size : ℕ → ℕ) {n : ℕ} (h : n ≤ unit) : unitsTotal size unit n = size n := by
  have hdiv : (n - 1) / unit = 0 := by
    rw [Nat.div_eq_zero_iff]
    omega
  rw [unitsTotal, hdiv, Nat.zero_mul, Nat.zero_mul, Nat.zero_add, Nat.sub_zero]

theorem unitsTotal_long (size : ℕ → ℕ) {n : ℕ} (hunit : 0 < unit) (h : unit < n) :
    unitsTotal size unit n = size unit + unitsTotal size unit (n - unit) := by
  have hdiv : (n - 1) / unit = (n - unit - 1) / unit + 1 := by
    rw [← Nat.add_div_right _ hunit]
    congr 1
    omega
  have hrest : n - ((n - unit - 1) / unit + 1) * unit =
      n - unit - (n - unit - 1) / unit * unit := by
    rw [Nat.succ_mul]
    omega
  rw [unitsTotal, unitsTotal, hdiv, hrest, Nat.succ_mul]
  omega

/-- Frames whose lengths are related to a size add up to a length that is. -/
theorem splitUnits_length {R : ℕ → ℕ → Prop} {size : ℕ → ℕ}
    (hadd : ∀ {a b c d}, R a b → R c d → R (a + c) (b + d))
    (hframe : ∀ i s d, d.length = unit → R (frame i s d).2.length (size d.length))
    (hlast : ∀ i s d, R (last i s d).2.length (size d.length)) (hunit : 0 < unit) {fuel : ℕ}
    {data : List α} (hfuel : data.length < fuel) (i : ℕ) (s : σ) :
    R (splitUnits unit frame last fuel i s data).2.length (unitsTotal size unit data.length) := by
  induction fuel generalizing data i s with
  | zero => omega
  | succ fuel ih =>
      by_cases hlong : unit < data.length
      · have htake : (data.take unit).length = unit := List.length_take_of_le (Nat.le_of_lt hlong)
        have hdrop : (data.drop unit).length = data.length - unit := List.length_drop
        have hone := hframe i s (data.take unit) htake
        have hrest : R (splitUnits unit frame last fuel (i + 1) (frame i s (data.take unit)).1
            (data.drop unit)).2.length (unitsTotal size unit (data.drop unit).length) :=
          ih (by omega) (i + 1) (frame i s (data.take unit)).1
        rw [htake] at hone
        rw [hdrop] at hrest
        rw [splitUnits_long hlong, unitsTotal_long size hunit hlong, List.length_append]
        exact hadd hone hrest
      · rw [splitUnits_short (Nat.not_lt.1 hlong), unitsTotal_short size (Nat.not_lt.1 hlong)]
        exact hlast i s data

end Loop

end Units
end Lib
end SsrNative
