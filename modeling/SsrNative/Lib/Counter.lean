import Mathlib.Data.List.Nodup
import Mathlib.Tactic.Common
import Mathlib.Tactic.Ring

/-!
# Counter — numbers in a fixed number of bytes, little endian

`leBytes n k` has the `n` lowest bytes of `k`.  Adding one with the carry lost at the end is adding
one modulo `256 ^ n`, so no value comes twice in `256 ^ n` steps.
-/

namespace SsrNative
namespace Lib
namespace Counter

/-- The `n` lowest bytes of `k`, the lowest first. -/
def leBytes : ℕ → ℕ → List UInt8
  | 0, _ => []
  | n + 1, k => UInt8.ofNat k :: leBytes n (k / 256)

/-- Little-endian increment, with the carry lost at the end. -/
def increment : List UInt8 → List UInt8
  | [] => []
  | x :: l => if x = 255 then 0 :: increment l else (x + 1) :: l

theorem leBytes_zero (n : ℕ) : leBytes n 0 = List.replicate n 0 := by
  induction n with
  | zero => rfl
  | succ n ih =>
      rw [leBytes, Nat.zero_div, ih, List.replicate_succ]
      rfl

theorem ofNat_eq_iff (j k : ℕ) : UInt8.ofNat j = UInt8.ofNat k ↔ j % 256 = k % 256 := by
  rw [← UInt8.toNat_inj, UInt8.toNat_ofNat', UInt8.toNat_ofNat']

theorem increment_leBytes (n k : ℕ) : increment (leBytes n k) = leBytes n (k + 1) := by
  induction n generalizing k with
  | zero => rfl
  | succ n ih =>
      rw [leBytes, leBytes, increment]
      by_cases hcarry : k % 256 = 255
      · have hfull : UInt8.ofNat k = 255 := (ofNat_eq_iff k 255).2 hcarry
        have hwrap : UInt8.ofNat (k + 1) = 0 := (ofNat_eq_iff (k + 1) 0).2 (by omega)
        have hnext : (k + 1) / 256 = k / 256 + 1 := by omega
        rw [if_pos hfull, ih, hwrap, hnext]
      · have hopen : ¬UInt8.ofNat k = 255 := fun h => hcarry ((ofNat_eq_iff k 255).1 h)
        have hnext : (k + 1) / 256 = k / 256 := by omega
        rw [if_neg hopen, hnext, UInt8.ofNat_add]
        rfl

theorem leBytes_inj (n : ℕ) {j k : ℕ} (hj : j < 256 ^ n) (hk : k < 256 ^ n)
    (h : leBytes n j = leBytes n k) : j = k := by
  induction n generalizing j k with
  | zero => omega
  | succ n ih =>
      rw [leBytes, leBytes, List.cons.injEq, ofNat_eq_iff] at h
      have hpow : 256 ^ (n + 1) = 256 * 256 ^ n := by ring
      have hhigh := ih (by omega) (by omega) h.2
      omega

/-- The first values of the counter are all different. -/
theorem nodup_leBytes (n : ℕ) {m : ℕ} (hm : m ≤ 256 ^ n) :
    ((List.range m).map (leBytes n)).Nodup := by
  refine List.Nodup.map_on ?_ List.nodup_range
  intro j hj k hk h
  rw [List.mem_range] at hj hk
  exact leBytes_inj n (by omega) (by omega) h

end Counter
end Lib
end SsrNative
