import SsrNative.Bytes
import SsrNative.Lib.Comparison
import SsrNative.Lib.Text

/-!
# CString — trimming and comparing texts, and reading numbers in them

A text is the bytes in front of its NUL.  `strtrim` is the one of `strtrim.c`; `isspace` and `strtol`
are those of the C library in its default locale, with a `long` of 64 bits.
-/

namespace SsrNative
namespace CString

open Bytes
open Lib.Text

/-! ## Trimming -/

def isSpace (c : UInt8) : Bool := c == 32 || (9 ≤ c && c ≤ 13)

/-- `enum str_trim_type`. -/
inductive StrTrimType where
  | none
  | trailing
  | leading
  | both
deriving DecidableEq

def trimLeadingSpace (str : Bytes) : Bytes := str.dropWhile isSpace

/-- The loop stops at the first character, which stays even when it is a blank. -/
def trimTrailingSpace : Bytes → Bytes
  | [] => []
  | c :: str => c :: str.rdropWhile isSpace

def strtrim (src : Bytes) (trimType : StrTrimType) : Bytes :=
  let result := if trimType = .leading ∨ trimType = .both then trimLeadingSpace src else src
  if trimType = .trailing ∨ trimType = .both then trimTrailingSpace result else result

/-- Trimming both ends drops all the blanks: in a text that starts with one the leading blanks are gone
before the last loop runs. -/
theorem strtrim_both (src : Bytes) : strtrim src .both = trim isSpace src := by
  have hboth : strtrim src .both = trimTrailingSpace (src.dropWhile isSpace) := by
    simp [strtrim, trimLeadingSpace]
  rw [hboth, trim]
  cases hdrop : src.dropWhile isSpace with
  | nil => rfl
  | cons c str =>
      have hc : ¬ isSpace c = true := by
        have hhead := List.head_dropWhile_not (p := isSpace) (l := src) (by simp [hdrop])
        simpa [hdrop] using hhead
      rw [trimTrailingSpace, List.rdropWhile, List.rdropWhile, List.reverse_cons,
        List.dropWhile_append]
      by_cases hnil : (str.reverse.dropWhile isSpace) = []
      · rw [if_pos (by simp [hnil]), List.dropWhile_cons_of_neg hc, hnil]
        rfl
      · rw [if_neg (by simpa using hnil)]
        simp

/-! ## Numbers -/

def isDigit (c : UInt8) : Bool := 48 ≤ c && c ≤ 57

/-- One more digit of a number in base ten. -/
def pushDigit (n : ℕ) (c : UInt8) : ℕ := 10 * n + (c.toNat - 48)

/-- The number that the digits at the front of a text form, zero when there are none. -/
def leadingNat (s : Bytes) : ℕ := (s.takeWhile isDigit).foldl pushDigit 0

def LONG_MAX : ℕ := 9223372036854775807

/-- `strtol` in base ten. -/
def strtol (str : Bytes) : ℤ :=
  match str.dropWhile isSpace with
  | 45 :: s => -(min (leadingNat s) (LONG_MAX + 1) : ℕ)
  | 43 :: s => (min (leadingNat s) LONG_MAX : ℕ)
  | s => (min (leadingNat s) LONG_MAX : ℕ)

theorem toNat_digit (n : ℕ) : (UInt8.ofNat (48 + n % 10)).toNat = 48 + n % 10 := by
  rw [UInt8.toNat_ofNat']
  omega

/-- What has been written in front of `acc` reads as `n`. -/
theorem foldl_decimalDigits {fuel n : ℕ} (h : n < fuel) (acc : Bytes) :
    (decimalDigits fuel n acc).foldl pushDigit 0 = acc.foldl pushDigit n := by
  induction fuel generalizing n acc with
  | zero => omega
  | succ fuel ih =>
      simp only [decimalDigits]
      split
      case isTrue hlast =>
        have hstep : pushDigit 0 (UInt8.ofNat (48 + n % 10)) = n := by
          rw [pushDigit, toNat_digit]
          omega
        rw [List.foldl_cons, hstep]
      case isFalse hmore =>
        have hstep : pushDigit (n / 10) (UInt8.ofNat (48 + n % 10)) = n := by
          rw [pushDigit, toNat_digit]
          omega
        rw [ih (by omega), List.foldl_cons, hstep]

theorem isDigit_decimal (n : ℕ) : ∀ c ∈ decimal n, isDigit c = true := by
  intro c hc
  obtain ⟨hge, hlt⟩ := decimal_digit n c hc
  have h48 : (48 : UInt8) ≤ c := UInt8.le_iff_toNat_le.2 hge
  have h57 : c ≤ (57 : UInt8) := UInt8.le_iff_toNat_le.2 (Nat.le_of_lt_succ hlt)
  simp [isDigit, h48, h57]

/-- A number has at least one digit. -/
theorem isDigit_byteAt_decimal (n : ℕ) : isDigit (byteAt (decimal n) 0) = true := by
  cases hdigits : decimal n with
  | nil =>
      have hvalue := foldl_decimalDigits (Nat.lt_succ_self n) []
      rw [← decimal, hdigits] at hvalue
      rw [← show 0 = n from hvalue] at hdigits
      exact absurd hdigits (by decide)
  | cons c s => exact isDigit_decimal n c (hdigits ▸ List.mem_cons_self)

/-- What is no digit is not in a number. -/
theorem not_mem_decimal {c : UInt8} (h : isDigit c = false) (n : ℕ) : c ∉ decimal n := by
  intro hmem
  rw [isDigit_decimal n c hmem] at h
  cases h

theorem not_isSpace_decimal (n : ℕ) : ∀ c ∈ decimal n, isSpace c = false := by
  intro c hc
  obtain ⟨hge, -⟩ := decimal_digit n c hc
  have h32 : c ≠ 32 := by
    rintro rfl
    exact absurd hge (by decide)
  have h13 : ¬ c ≤ (13 : UInt8) := fun hle => by
    have := UInt8.le_iff_toNat_le.1 hle
    have h : (13 : UInt8).toNat = 13 := rfl
    omega
  simp [isSpace, h32, h13]

theorem leadingNat_decimal (n : ℕ) : leadingNat (decimal n) = n := by
  have htake : (decimal n).takeWhile isDigit = decimal n :=
    List.takeWhile_eq_self_iff.2 (isDigit_decimal n)
  rw [leadingNat, htake, decimal, foldl_decimalDigits (Nat.lt_succ_self n)]
  rfl

theorem strtrim_decimal (n : ℕ) : strtrim (decimal n) .both = decimal n := by
  rw [strtrim_both]
  exact trim_of_none (not_isSpace_decimal n)

theorem strtol_decimal {n : ℕ} (h : n ≤ LONG_MAX) : strtol (decimal n) = n := by
  have hdrop : (decimal n).dropWhile isSpace = decimal n := by
    cases hd : decimal n with
    | nil => rfl
    | cons c s =>
        have hc := not_isSpace_decimal n c (by simp [hd])
        exact List.dropWhile_cons_of_neg (by simp [hc])
  have hmin : ((min (leadingNat (decimal n)) LONG_MAX : ℕ) : ℤ) = n := by
    rw [leadingNat_decimal, min_eq_left h]
  rw [strtol, hdrop]
  split
  case h_1 s heq =>
    have := (decimal_digit n 45 (by simp [heq])).1
    exact absurd this (by decide)
  case h_2 s heq =>
    have := (decimal_digit n 43 (by simp [heq])).1
    exact absurd this (by decide)
  case h_3 => exact hmin

/-! ## Comparison -/

/-- `strcmp`, of whose answer only the sign counts. -/
def strcmp : Bytes → Bytes → ℤ
  | [], [] => 0
  | [], _ :: _ => -1
  | _ :: _, [] => 1
  | a :: l, b :: r => if a = b then strcmp l r else if a.toNat < b.toNat then -1 else 1

theorem strcmp_eq_zero_iff {l r : Bytes} : strcmp l r = 0 ↔ l = r := by
  induction l generalizing r with
  | nil => cases r <;> simp [strcmp]
  | cons a l ih =>
      cases r with
      | nil => simp [strcmp]
      | cons b r =>
          rw [strcmp, List.cons_eq_cons]
          by_cases hab : a = b
          · rw [if_pos hab, ih, and_iff_right hab]
          · rw [if_neg hab]
            refine iff_of_false ?_ fun h => hab h.1
            split_ifs <;> decide

theorem strcmp_neg_iff_pos (l r : Bytes) : strcmp l r < 0 ↔ 0 < strcmp r l := by
  induction l generalizing r with
  | nil => cases r <;> simp [strcmp]
  | cons a l ih =>
      cases r with
      | nil => simp [strcmp]
      | cons b r =>
          rw [strcmp, strcmp]
          by_cases hab : a = b
          · rw [if_pos hab, if_pos hab.symm, ih]
          · have hne : a.toNat ≠ b.toNat := fun h => hab (UInt8.toNat_inj.1 h)
            rw [if_neg hab, if_neg (Ne.symm hab)]
            split_ifs <;> omega

theorem strcmp_le_trans (l m r : Bytes) (hlm : strcmp l m ≤ 0) (hmr : strcmp m r ≤ 0) : strcmp l r ≤ 0 := by
  induction l generalizing m r with
  | nil => cases r <;> simp [strcmp]
  | cons a l ih =>
      cases m with
      | nil => simp [strcmp] at hlm
      | cons b m =>
          cases r with
          | nil => simp [strcmp] at hmr
          | cons c r =>
              rw [strcmp] at hlm hmr ⊢
              by_cases hab : a = b
              · subst hab
                by_cases hac : a = c
                · rw [if_pos rfl] at hlm
                  rw [if_pos hac] at hmr ⊢
                  exact ih m r hlm hmr
                · rwa [if_neg hac] at hmr ⊢
              · rw [if_neg hab] at hlm
                have hlt : a.toNat < b.toNat := by
                  by_contra hlt
                  rw [if_neg hlt] at hlm
                  omega
                have hle : b.toNat ≤ c.toNat := by
                  by_cases hbc : b = c
                  · rw [hbc]
                  · rw [if_neg hbc] at hmr
                    by_contra hle
                    rw [if_neg (by omega)] at hmr
                    omega
                have hac : a ≠ c := by
                  rintro rfl
                  omega
                rw [if_neg hac, if_pos (by omega)]
                decide

theorem lawful_strcmp : Lib.Comparison.Lawful strcmp := ⟨strcmp_neg_iff_pos, strcmp_le_trans⟩
end CString
end SsrNative
