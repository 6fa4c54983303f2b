import SsrNative.Bytes
import SsrNative.Lib.Hash
import SsrNative.Lib.Segments

/-!
# Base64 — `obfs/base64.c`

The encoder's loop runs while `i < len - 2`, and `len` is a `size_t`: for a text of one byte the bound
is almost `SIZE_MAX`, and the loop writes past the end of its buffer.  Every longer text is encoded
and read back (`stdBase64Decode_encode`).
-/

namespace SsrNative
namespace Base64

open Bytes
open Lib.Hash
open Lib.Segments

/-- `pr2six`: the six bits of a letter, 64 for what is none. -/
def pr2six (c : UInt8) : ℕ :=
  if c = 0x2b then 62
  else if c = 0x2f then 63
  else if 0x30 ≤ c ∧ c ≤ 0x39 then c.toNat + 4
  else if 0x41 ≤ c ∧ c ≤ 0x5a then c.toNat - 65
  else if 0x61 ≤ c ∧ c ≤ 0x7a then c.toNat - 71
  else 64

/-- `std_base64_encode_alloc`. -/
def stdBase64EncodeAlloc (src : Bytes) : Returned UInt8 :=
  if src.length = 0 then .error
  else if src.length = 1 then .crash  -- `i < len - 2` with `len - 2 = SIZE_MAX`
  else .out (base64 src)

/-- `std_base64_encode` into an array that is large enough; with fewer than two bytes the bound of the
loop wraps, and it leaves the array. -/
def stdBase64Encode (src : Bytes) : Option Bytes := if src.length < 2 then none else some (base64 src)

/-- The loop of `std_base64_decode` and the cases behind it. -/
def decodeLoop : Bytes → Bytes
  | a :: b :: c :: d :: rest =>
      [UInt8.ofNat (pr2six a * 4 + pr2six b / 16), UInt8.ofNat (pr2six b * 16 + pr2six c / 4),
        UInt8.ofNat (pr2six c * 64 + pr2six d)] ++ decodeLoop rest
  | [a, b, c] =>
      [UInt8.ofNat (pr2six a * 4 + pr2six b / 16), UInt8.ofNat (pr2six b * 16 + pr2six c / 4)]
  | [a, b] => [UInt8.ofNat (pr2six a * 4 + pr2six b / 16)]
  | [_] => []
  | [] => []

/-- `std_base64_decode`: the letters up to the first byte that is none. -/
def stdBase64Decode (coded : Bytes) : Bytes :=
  decodeLoop (coded.takeWhile fun c => decide (pr2six c ≤ 63))

/-- `str_replace_char`. -/
def strReplaceChar (str : Bytes) (oldChar newChar : UInt8) : Bytes :=
  (cString str).map fun c => if c = oldChar then newChar else c

/-- `url_safe_base64_encode_alloc`. -/
def urlSafeBase64EncodeAlloc (src : Bytes) : Returned UInt8 :=
  match stdBase64EncodeAlloc src with
  | .out coded =>
      .out (cString (strReplaceChar (strReplaceChar (strReplaceChar coded 0x2b 0x2d) 0x2f 0x5f) 0x3d 0))
  | r => r

/-- `str_url_safe_base64_to_std_base64`; a length of one above a multiple of four fails an assertion. -/
def strUrlSafeBase64ToStdBase64 (coded : Bytes) : Option Bytes :=
  let str := strReplaceChar (strReplaceChar coded 0x2d 0x2b) 0x5f 0x2f
  if str.length % 4 = 1 then none
  else if str.length % 4 = 2 then some (str ++ [0x3d, 0x3d])
  else if str.length % 4 = 3 then some (str ++ [0x3d])
  else some str

/-- `url_safe_base64_decode_alloc`. -/
def urlSafeBase64DecodeAlloc (coded : Bytes) : Returned UInt8 :=
  match strUrlSafeBase64ToStdBase64 (cString coded) with
  | some str => .out (stdBase64Decode str)
  | none => .crash

/-! ## The alphabet -/

theorem pr2six_base64Char {n : ℕ} (h : n < 64) : pr2six (base64Char n) = n := by
  have hall : ∀ m : Fin 64, pr2six (base64Char m.1) = m.1 := by decide
  exact hall ⟨n, h⟩

/-- A letter of the alphabet. -/
def IsLetter (c : UInt8) : Prop := pr2six c ≤ 63

instance (c : UInt8) : Decidable (IsLetter c) := inferInstanceAs (Decidable (pr2six c ≤ 63))

theorem isLetter_base64Char (n : ℕ) : IsLetter (base64Char n) := by
  by_cases h : n < 64
  · rw [IsLetter, pr2six_base64Char h]
    omega
  · have hchar : base64Char n = 0x2f := by
      rw [base64Char, if_neg (by omega), if_neg (by omega), if_neg (by omega), if_neg (by omega)]
    rw [hchar]
    decide

/-- The letters of a text without the padding. -/
def letters (src : Bytes) : Bytes := (base64 src).takeWhile fun c => decide (pr2six c ≤ 63)

theorem isLetter_of_mem_letters {src : Bytes} {c : UInt8} (h : c ∈ letters src) : IsLetter c := by
  have hc := List.mem_takeWhile_imp h
  exact of_decide_eq_true hc

/-- Behind the letters there is nothing but padding, which fills the last group. -/
theorem base64_eq_letters (src : Bytes) :
    ∃ k, base64 src = letters src ++ List.replicate k 0x3d ∧
      (letters src).length % 4 = (4 - k) % 4 ∧ k < 3 := by
  have hpad : decide (pr2six 0x3d ≤ 63) = false := by decide
  have hchar : ∀ n, decide (pr2six (base64Char n) ≤ 63) = true := fun n =>
    decide_eq_true (isLetter_base64Char n)
  induction src using base64.induct with
  | case1 => exact ⟨0, rfl, rfl, by omega⟩
  | case2 x =>
      refine ⟨2, ?_, ?_, by omega⟩ <;>
        simp [letters, base64, hchar, hpad]
  | case3 x y =>
      refine ⟨1, ?_, ?_, by omega⟩ <;>
        simp [letters, base64, hchar, hpad]
  | case4 x y z rest ih =>
      obtain ⟨k, heq, hmod, hk⟩ := ih
      have hletters : letters (x :: y :: z :: rest) =
          [base64Char (x.toNat / 4), base64Char (x.toNat % 4 * 16 + y.toNat / 16),
            base64Char (y.toNat % 16 * 4 + z.toNat / 64), base64Char (z.toNat % 64)] ++
            letters rest := by
        simp [letters, base64, hchar]
      refine ⟨k, ?_, ?_, hk⟩
      · rw [hletters, base64, heq, List.append_assoc]
      · rw [hletters, List.length_append]
        simp only [List.length_cons, List.length_nil]
        omega

/-! ## Round trips -/

theorem ofNat_eq_of_mod {n : ℕ} {x : UInt8} (h : n % 256 = x.toNat) : UInt8.ofNat n = x := by
  apply UInt8.toNat_inj.1
  rw [UInt8.toNat_ofNat']
  exact h

/-- The letters of a text give the text. -/
theorem decodeLoop_letters (src : Bytes) : decodeLoop (letters src) = src := by
  have hpad : decide (pr2six 0x3d ≤ 63) = false := by decide
  have hchar : ∀ n, decide (pr2six (base64Char n) ≤ 63) = true := fun n =>
    decide_eq_true (isLetter_base64Char n)
  have hval : ∀ n, n < 64 → pr2six (base64Char n) = n := fun n h => pr2six_base64Char h
  induction src using base64.induct with
  | case1 => rfl
  | case2 x =>
      have hx := x.toNat_lt
      have hletters : letters [x] = [base64Char (x.toNat / 4), base64Char (x.toNat % 4 * 16)] := by
        simp [letters, base64, hchar, hpad]
      rw [hletters, decodeLoop, hval _ (by omega), hval _ (by omega), ofNat_eq_of_mod (x := x) (by omega)]
  | case3 x y =>
      have hx := x.toNat_lt
      have hy := y.toNat_lt
      have hletters : letters [x, y] = [base64Char (x.toNat / 4),
          base64Char (x.toNat % 4 * 16 + y.toNat / 16), base64Char (y.toNat % 16 * 4)] := by
        simp [letters, base64, hchar, hpad]
      rw [hletters, decodeLoop, hval _ (by omega), hval _ (by omega), hval _ (by omega),
        ofNat_eq_of_mod (x := x) (by omega), ofNat_eq_of_mod (x := y) (by omega)]
  | case4 x y z rest ih =>
      have hx := x.toNat_lt
      have hy := y.toNat_lt
      have hz := z.toNat_lt
      have hletters : letters (x :: y :: z :: rest) =
          base64Char (x.toNat / 4) :: base64Char (x.toNat % 4 * 16 + y.toNat / 16) ::
            base64Char (y.toNat % 16 * 4 + z.toNat / 64) :: base64Char (z.toNat % 64) ::
            letters rest := by
        simp [letters, base64, hchar]
      rw [hletters, decodeLoop, ih, hval _ (by omega), hval _ (by omega), hval _ (by omega),
        hval _ (by omega), ofNat_eq_of_mod (x := x) (by omega), ofNat_eq_of_mod (x := y) (by omega),
        ofNat_eq_of_mod (x := z) (by omega)]
      rfl

theorem stdBase64Encode_of_le {src : Bytes} (h : 2 ≤ src.length) :
    stdBase64Encode src = some (base64 src) := if_neg (Nat.not_lt.2 h)

theorem base64_length (src : Bytes) : (base64 src).length = (src.length + 2) / 3 * 4 := by
  induction src using base64.induct with
  | case1 => rfl
  | case2 x => simp [base64]
  | case3 x y => simp [base64]
  | case4 x y z rest ih =>
      rw [base64, List.length_append, ih]
      simp only [List.length_cons, List.length_nil]
      omega

theorem stdBase64Decode_base64 (src : Bytes) : stdBase64Decode (base64 src) = src :=
  decodeLoop_letters src

/-- Whatever the encoder returns is right. -/
theorem eq_base64_of_alloc {src coded : Bytes} (h : stdBase64EncodeAlloc src = .out coded) :
    coded = base64 src := by
  unfold stdBase64EncodeAlloc at h
  split at h
  · cases h
  · split at h
    · cases h
    · cases h
      rfl

theorem stdBase64Decode_encode {src coded : Bytes} (h : stdBase64EncodeAlloc src = .out coded) :
    stdBase64Decode coded = src := by
  rw [eq_base64_of_alloc h]
  exact stdBase64Decode_base64 src

end Base64
end SsrNative
