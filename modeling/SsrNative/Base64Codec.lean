import SsrNative.Base64
import SsrNative.CRegion

/-!
# Base64Codec — which texts survive base64

The functions of `obfs/base64.c` with what they read and write.  Two things go wrong: the encoder's loop has
the bound `len - 2`, which wraps around for fewer than two bytes, and the decoder counts its letters in an
`int`.  `base64_codec_iff` says that every text in between comes back.
-/

namespace SsrNative
namespace Base64

open Bytes
open Lib.Demand
open Lib.Demand.Demanding
open Lib.Hash

/-! ## The functions -/

/-- `basis_64`. -/
def basis64 : Bytes := ascii "ABCDEFGHIJKLMNOPQRSTUVWXYZabcdefghijklmnopqrstuvwxyz0123456789+/"

/-- The four letters of three bytes. -/
def letter₁ (a : UInt8) : UInt8 := byteAt basis64 ((a.toNat >>> 2) &&& 0x3f)
def letter₂ (a b : UInt8) : UInt8 := byteAt basis64 (((a.toNat &&& 0x3) <<< 4) ||| ((b.toNat &&& 0xf0) >>> 4))
def letter₃ (b c : UInt8) : UInt8 := byteAt basis64 (((b.toNat &&& 0xf) <<< 2) ||| ((c.toNat &&& 0xc0) >>> 6))
def letter₄ (c : UInt8) : UInt8 := byteAt basis64 (c.toNat &&& 0x3f)

/-- `std_base64_encode` behind its loop; `p` is what has been written. -/
def encodeTail (r : Region UInt8) (len i : ℕ) (p : Bytes) : Demanding Bytes :=
  if i < len then do
    let a ← r.read i
    if i = len - 1 then return p ++ [letter₁ a, letter₂ a 0, 0x3d, 0x3d] ++ [0]
    else do
      let b ← r.read (i + 1)
      return p ++ [letter₁ a, letter₂ a b, letter₃ b 0, 0x3d] ++ [0]
  else return p ++ [0]

/-- The loop of `std_base64_encode` and what follows it.  There are never more passes than `fuel` unless
the loop has left the text. -/
def encodeFrom (r : Region UInt8) (len : ℕ) : ℕ → ℕ → Bytes → Demanding Bytes
  | 0, i, p => encodeTail r len i p
  | fuel + 1, i, p =>
      if i < subSize len 2 then do
        let a ← r.read i
        let b ← r.read (i + 1)
        let c ← r.read (i + 2)
        encodeFrom r len fuel (i + 3) (p ++ [letter₁ a, letter₂ a b, letter₃ b c, letter₄ c])
      else encodeTail r len i p

def stdBase64EncodeLen (len : ℕ) : ℕ := (len + 2) / 3 * 4 + 1

/-- `std_base64_encode`: what it writes, the terminator included. -/
def stdBase64EncodeIn (behind : ℕ → UInt8) (s : Bytes) : Demanding Bytes :=
  encodeFrom ⟨s, behind⟩ s.length (s.length + 1) 0 []

/-- The number of letters in front of the first byte that is none. -/
def letterCount (t : Bytes) : ℕ := ((cString t).takeWhile fun c => decide (pr2six c ≤ 63)).length

def stdBase64DecodeLen (t : Bytes) : ℕ := (letterCount t + 3) / 4 * 3 + 1

/-- The three bytes of four letters. -/
def plain₁ (a b : UInt8) : UInt8 := UInt8.ofNat ((pr2six a <<< 2) ||| (pr2six b >>> 4))
def plain₂ (b c : UInt8) : UInt8 := UInt8.ofNat ((pr2six b <<< 4) ||| (pr2six c >>> 2))
def plain₃ (c d : UInt8) : UInt8 := UInt8.ofNat ((pr2six c <<< 6) ||| pr2six d)

/-- `if (c) *(bufout++) = x`. -/
def emitIf (c : Prop) [Decidable c] (out : Bytes) (x : Demanding UInt8) : Demanding Bytes :=
  if c then do
    let byte ← x
    return out ++ [byte]
  else return out

/-- A byte made from the letters at `i` and `i + 1`. -/
def combine (f : UInt8 → UInt8 → UInt8) (r : Region UInt8) (i : ℕ) : Demanding UInt8 := do
  let a ← r.read i
  let b ← r.read (i + 1)
  return f a b

/-- `std_base64_decode` behind its loop: `nprbytes`, and what has been written. -/
def decodeTail (r : Region UInt8) (pos : ℕ) (nprbytes : ℤ) (out : Bytes) : Demanding (ℤ × Bytes) := do
  let out ← emitIf (nprbytes > 1) out (combine plain₁ r pos)
  let out ← emitIf (nprbytes > 2) out (combine plain₂ r (pos + 1))
  let out ← emitIf (nprbytes > 3) out (combine plain₃ r (pos + 2))
  return (nprbytes, out ++ [0])

/-- The loop of `std_base64_decode` and what follows it. -/
def decodeFrom (r : Region UInt8) : ℕ → ℕ → ℤ → Bytes → Demanding (ℤ × Bytes)
  | 0, pos, nprbytes, out => decodeTail r pos nprbytes out
  | fuel + 1, pos, nprbytes, out =>
      if nprbytes > 4 then do
        let a ← r.read pos
        let b ← r.read (pos + 1)
        let c ← r.read (pos + 2)
        let d ← r.read (pos + 3)
        decodeFrom r fuel (pos + 4) (nprbytes - 4) (out ++ [plain₁ a b, plain₂ b c, plain₃ c d])
      else decodeTail r pos nprbytes out

/-- A `size_t` as an `int`. -/
def toInt32 (n : ℕ) : ℤ := ((n : ℤ) + 2147483648) % 4294967296 - 2147483648

/-- An `int` as a `size_t`. -/
def ofInt (z : ℤ) : ℕ := (z % 18446744073709551616).toNat

/-- `std_base64_decode`: what it returns, and what it writes, the terminator included. -/
def stdBase64DecodeIn (behind : ℕ → UInt8) (t : Bytes) : Demanding (ℕ × Bytes) := do
  let nprbytes := toInt32 (letterCount t)
  -- an `int` must not overflow
  demand (nprbytes + 3).toNat 2147483647
  let nbytesdecoded := (nprbytes + 3).tdiv 4 * 3
  let r ← decodeFrom (cRegion behind t) (letterCount t) 0 nprbytes []
  return (ofInt (nbytesdecoded - (4 - r.1) % 4), r.2)

/-- `str_replace_char` in the array that holds the text. -/
def replaceCharIn (str : Bytes) (oldChar newChar : UInt8) : Bytes :=
  strReplaceChar str oldChar newChar ++ str.drop (cString str).length

/-- `url_safe_base64_encode`: the array as it is left. -/
def urlSafeBase64EncodeIn (behind : ℕ → UInt8) (s : Bytes) : Demanding Bytes := do
  let coded ← stdBase64EncodeIn behind s
  return replaceCharIn (replaceCharIn (replaceCharIn coded 0x2b 0x2d) 0x2f 0x5f) 0x3d 0

/-- `url_safe_base64_decode`. -/
def urlSafeBase64DecodeIn (behind : ℕ → UInt8) (t : Bytes) : Demanding (ℕ × Bytes) :=
  match strUrlSafeBase64ToStdBase64 (cString t) with
  | some str => stdBase64DecodeIn behind (str ++ [0])
  | none => do
      require False
      return (0, [])

/-! ## Letters -/

theorem basis64_eq {n : ℕ} (h : n < 64) : byteAt basis64 n = base64Char n := by
  have hall : ∀ m : Fin 64, byteAt basis64 m.1 = base64Char m.1 := by decide +kernel
  exact hall ⟨n, h⟩

theorem shift_or {a b i m : ℕ} (hm : 2 ^ i = m) (h : b < m) : a <<< i ||| b = a * m + b := by
  subst hm
  rw [← Nat.shiftLeft_add_eq_or_of_lt h, Nat.shiftLeft_eq]

theorem letter₁_eq (a : UInt8) : letter₁ a = base64Char (a.toNat / 4) := by
  have ha := a.toNat_lt
  have hbits : (a.toNat >>> 2) &&& 0x3f = a.toNat / 4 := by
    rw [Nat.shiftRight_eq_div_pow, Nat.and_two_pow_sub_one_eq_mod _ 6]
    omega
  rw [letter₁, hbits, basis64_eq (by omega)]

theorem high_nibble : ∀ b : UInt8, (b.toNat &&& 0xf0) >>> 4 = b.toNat / 16 := of_byte (by decide +kernel)

theorem high_pair : ∀ c : UInt8, (c.toNat &&& 0xc0) >>> 6 = c.toNat / 64 := of_byte (by decide +kernel)

theorem letter₂_eq (a b : UInt8) : letter₂ a b = base64Char (a.toNat % 4 * 16 + b.toNat / 16) := by
  have hb := b.toNat_lt
  have hlow : a.toNat &&& 0x3 = a.toNat % 4 := Nat.and_two_pow_sub_one_eq_mod _ 2
  rw [letter₂, high_nibble, hlow, shift_or (m := 16) rfl (by omega), basis64_eq (by omega)]

theorem letter₃_eq (b c : UInt8) : letter₃ b c = base64Char (b.toNat % 16 * 4 + c.toNat / 64) := by
  have hc := c.toNat_lt
  have hlow : b.toNat &&& 0xf = b.toNat % 16 := Nat.and_two_pow_sub_one_eq_mod _ 4
  rw [letter₃, high_pair, hlow, shift_or (m := 4) rfl (by omega), basis64_eq (by omega)]

theorem letter₄_eq (c : UInt8) : letter₄ c = base64Char (c.toNat % 64) := by
  have hlow : c.toNat &&& 0x3f = c.toNat % 64 := Nat.and_two_pow_sub_one_eq_mod _ 6
  rw [letter₄, hlow, basis64_eq (by omega)]

theorem plain₁_eq {a b : UInt8} (hb : IsLetter b) : plain₁ a b = UInt8.ofNat (pr2six a * 4 + pr2six b / 16) := by
  rw [IsLetter] at hb
  have hhigh : pr2six b >>> 4 = pr2six b / 16 := Nat.shiftRight_eq_div_pow _ 4
  rw [plain₁, hhigh, shift_or (m := 4) rfl (by omega)]

theorem plain₂_eq {b c : UInt8} (hc : IsLetter c) : plain₂ b c = UInt8.ofNat (pr2six b * 16 + pr2six c / 4) := by
  rw [IsLetter] at hc
  have hhigh : pr2six c >>> 2 = pr2six c / 4 := Nat.shiftRight_eq_div_pow _ 2
  rw [plain₂, hhigh, shift_or (m := 16) rfl (by omega)]

theorem plain₃_eq {c d : UInt8} (hd : IsLetter d) : plain₃ c d = UInt8.ofNat (pr2six c * 64 + pr2six d) := by
  rw [IsLetter] at hd
  rw [plain₃, shift_or (m := 64) rfl (by omega)]

/-! ## Encoding -/

/-- The last group, which has fewer than three bytes. -/
theorem encodeTail_yields {r : Region UInt8} {i : ℕ} {rest : Bytes} (p : Bytes)
    (hrest : r.cells.drop i = rest) (hcount : i + rest.length = r.cells.length) (hshort : rest.length ≤ 2) :
    (encodeTail r r.cells.length i p).Yields (p ++ base64 rest ++ [0]) := by
  rw [encodeTail]
  match rest, hrest, hcount, hshort with
  | [], hrest, hcount, hshort =>
      have hend : ¬ i < r.cells.length := by
        rw [← hcount, List.length_nil]
        exact Nat.lt_irrefl _
      rw [if_neg hend, base64, List.append_nil]
      exact (yields_pure _ _).2 rfl
  | [x], hrest, hcount, hshort =>
      have hlast : i = r.cells.length - 1 := by rw [← hcount, List.length_singleton, Nat.add_sub_cancel]
      have hinside : i < r.cells.length := by
        rw [← hcount]
        exact Nat.lt_succ_self i
      rw [if_pos hinside, (Region.read_of_drop hrest).1.bind, if_pos hlast, letter₁_eq, letter₂_eq]
      exact (yields_pure _ _).2 rfl
  | [x, y], hrest, hcount, hshort =>
      rcases Region.read_of_drop hrest with ⟨hx, hrest₁⟩
      rw [List.length_cons, List.length_singleton] at hcount
      have hinside : i < r.cells.length := by omega
      have hnot : ¬ i = r.cells.length - 1 := by omega
      rw [if_pos hinside, hx.bind, if_neg hnot, (Region.read_of_drop hrest₁).1.bind, letter₁_eq, letter₂_eq,
        letter₃_eq]
      exact (yields_pure _ _).2 rfl

/-- What is left of the text is encoded. -/
theorem encodeFrom_yields {r : Region UInt8} {fuel i : ℕ} {rest : Bytes} (p : Bytes) (hlen : 2 ≤ r.cells.length)
    (hi : i ≤ r.cells.length) (hrest : r.cells.drop i = rest) (hfuel : rest.length ≤ fuel) :
    (encodeFrom r r.cells.length fuel i p).Yields (p ++ base64 rest ++ [0]) := by
  have hcount : i + rest.length = r.cells.length := by
    rw [← hrest, List.length_drop]
    exact Nat.add_sub_cancel' hi
  induction fuel generalizing i rest p with
  | zero => exact encodeTail_yields p hrest hcount (Nat.le_trans hfuel (Nat.zero_le 2))
  | succ fuel ih =>
      rw [encodeFrom, subSize_of_le hlen]
      by_cases hshort : rest.length ≤ 2
      · have hbound : ¬ i < r.cells.length - 2 := by omega
        rw [if_neg hbound]
        exact encodeTail_yields p hrest hcount hshort
      match rest, hrest, hcount, hshort with
      | x :: y :: z :: rest, hrest, hcount, _ =>
          rcases Region.read_of_drop hrest with ⟨hx, hrest₁⟩
          rcases Region.read_of_drop hrest₁ with ⟨hy, hrest₂⟩
          rcases Region.read_of_drop hrest₂ with ⟨hz, hrest₃⟩
          rw [List.length_cons, List.length_cons, List.length_cons] at hcount hfuel
          have hbound : i < r.cells.length - 2 := by omega
          rw [if_pos hbound, hx.bind, hy.bind, hz.bind, letter₁_eq, letter₂_eq, letter₃_eq, letter₄_eq]
          have hnext := ih (p ++ [base64Char (x.toNat / 4), base64Char (x.toNat % 4 * 16 + y.toNat / 16),
            base64Char (y.toNat % 16 * 4 + z.toNat / 64), base64Char (z.toNat % 64)]) (by omega) hrest₃ (by omega)
            (by omega)
          rwa [List.append_assoc p, ← base64] at hnext
      | [], _, _, hshort => simp at hshort
      | [_], _, _, hshort => simp at hshort
      | [_, _], _, _, hshort => simp at hshort

/-- A text of two bytes or more is encoded. -/
theorem stdBase64EncodeIn_yields (behind : ℕ → UInt8) {s : Bytes} (h : 2 ≤ s.length) :
    (stdBase64EncodeIn behind s).Yields (base64 s ++ [0]) :=
  encodeFrom_yields (r := ⟨s, behind⟩) [] h (Nat.zero_le _) List.drop_zero (Nat.le_succ _)

/-- With fewer bytes the bound wraps around, and the loop leaves the text in its first pass. -/
theorem two_le_of_met {behind : ℕ → UInt8} {s : Bytes} (hmet : (stdBase64EncodeIn behind s).Met) :
    2 ≤ s.length := by
  by_contra hshort
  have hbound : 0 < subSize s.length 2 := by
    rw [subSize, if_neg hshort]
    omega
  rw [stdBase64EncodeIn, encodeFrom, if_pos hbound] at hmet
  simp only [met_bind, Region.met_read, Nat.zero_add] at hmet
  exact hshort hmet.2.1

/-! ### How much the encoder writes -/

/-- What `std_base64_encode` writes for the length `len`, however long the text really is. -/
def stdBase64EncodeWrites (len : ℕ) : ℕ :=
  (subSize len 2 + 2) / 3 * 4 + (if (subSize len 2 + 2) / 3 * 3 < len then 4 else 0) + 1

theorem encodeTail_length (r : Region UInt8) (len i : ℕ) (p : Bytes) :
    (encodeTail r len i p).value.length = p.length + (if i < len then 4 else 0) + 1 := by
  rw [encodeTail]
  by_cases hi : i < len
  · by_cases hlast : i = len - 1
    · simp [hi, ← hlast]
    · simp [hi, hlast]
  · simp [hi]

/-- Four letters are written in each pass. -/
theorem encodeFrom_length (r : Region UInt8) (len : ℕ) {fuel i : ℕ} (hfuel : (subSize len 2 - i + 2) / 3 ≤ fuel)
    (p : Bytes) :
    (encodeFrom r len fuel i p).value.length =
      p.length + (subSize len 2 - i + 2) / 3 * 4 +
        (if i + (subSize len 2 - i + 2) / 3 * 3 < len then 4 else 0) + 1 := by
  induction fuel generalizing i p with
  | zero =>
      have hpasses : (subSize len 2 - i + 2) / 3 = 0 := Nat.le_zero.1 hfuel
      rw [encodeFrom, encodeTail_length, hpasses]
      simp only [Nat.zero_mul, Nat.add_zero]
  | succ fuel ih =>
      rw [encodeFrom]
      by_cases hgo : i < subSize len 2
      · have hpasses : (subSize len 2 - i + 2) / 3 = (subSize len 2 - (i + 3) + 2) / 3 + 1 := by omega
        have hnext : i + ((subSize len 2 - (i + 3) + 2) / 3 + 1) * 3 =
            i + 3 + (subSize len 2 - (i + 3) + 2) / 3 * 3 := by omega
        simp only [hgo, if_true, value_bind]
        rw [ih (by omega), hpasses, hnext, List.length_append]
        simp only [List.length_cons, List.length_nil]
        omega
      · have hpasses : (subSize len 2 - i + 2) / 3 = 0 := by omega
        rw [if_neg hgo, encodeTail_length, hpasses]
        simp only [Nat.zero_mul, Nat.add_zero]

/-- The loop ends after as many passes as the bound calls for. -/
theorem stdBase64EncodeWrites_eq (r : Region UInt8) {len fuel : ℕ} (hfuel : (subSize len 2 + 2) / 3 ≤ fuel) :
    (encodeFrom r len fuel 0 []).value.length = stdBase64EncodeWrites len := by
  rw [encodeFrom_length r len hfuel, stdBase64EncodeWrites, Nat.sub_zero, List.length_nil, Nat.zero_add,
    Nat.zero_add]

theorem stdBase64EncodeWrites_of_le {len : ℕ} (h : 2 ≤ len) :
    stdBase64EncodeWrites len = stdBase64EncodeLen len := by
  rw [stdBase64EncodeWrites, stdBase64EncodeLen, subSize_of_le h, Nat.sub_add_cancel h]
  split_ifs
  all_goals omega

/-- `stdBase64Encode` has a result exactly when the loop stays in the text. -/
theorem stdBase64Encode_eq_some_iff (behind : ℕ → UInt8) (s coded : Bytes) :
    stdBase64Encode s = some coded ↔ (stdBase64EncodeIn behind s).Yields (coded ++ [0]) := by
  by_cases h : 2 ≤ s.length
  · rw [stdBase64Encode_of_le h, Option.some.injEq]
    constructor
    · rintro rfl
      exact stdBase64EncodeIn_yields behind h
    · intro hyields
      exact List.append_cancel_right ((stdBase64EncodeIn_yields behind h).unique hyields)
  · rw [stdBase64Encode, if_pos (Nat.not_le.1 h)]
    exact iff_of_false nofun fun hyields => h (two_le_of_met hyields.1)

/-! ## Decoding -/

theorem emitIf_of_not {c : Prop} [Decidable c] (h : ¬ c) (out : Bytes) (x : Demanding UInt8) :
    (emitIf c out x).Yields out := by
  rw [emitIf, if_neg h]
  exact (yields_pure _ _).2 rfl

theorem emitIf_of {c : Prop} [Decidable c] (h : c) (out : Bytes) {x : Demanding UInt8} {byte : UInt8}
    (hx : x.Yields byte) : (emitIf c out x).Yields (out ++ [byte]) := by
  rw [emitIf, if_pos h, hx.bind]
  exact (yields_pure _ _).2 rfl

theorem combine_yields (f : UInt8 → UInt8 → UInt8) {r : Region UInt8} {i : ℕ} {a b : UInt8} {l : Bytes}
    (h : r.cells.drop i = a :: b :: l) : (combine f r i).Yields (f a b) := by
  rcases Region.read_of_drop h with ⟨ha, hrest⟩
  rw [combine, ha.bind, (Region.read_of_drop hrest).1.bind]
  exact (yields_pure _ _).2 rfl

/-- The last group, which has at most four letters. -/
theorem decodeTail_yields {r : Region UInt8} {pos : ℕ} {coded rest : Bytes} (out : Bytes)
    (hcells : r.cells.drop pos = coded ++ rest) (hshort : coded.length ≤ 4) (hletters : ∀ c ∈ coded, IsLetter c) :
    (decodeTail r pos coded.length out).Yields (coded.length, out ++ decodeLoop coded ++ [0]) := by
  rw [decodeTail]
  match coded, hcells, hshort, hletters with
  | [], hcells, _, _ =>
      rw [(emitIf_of_not (by simp) _ _).bind, (emitIf_of_not (by simp) _ _).bind,
        (emitIf_of_not (by simp) _ _).bind, decodeLoop, List.append_nil]
      exact (yields_pure _ _).2 rfl
  | [a], hcells, _, _ =>
      rw [(emitIf_of_not (by simp) _ _).bind, (emitIf_of_not (by simp) _ _).bind,
        (emitIf_of_not (by simp) _ _).bind, decodeLoop, List.append_nil]
      exact (yields_pure _ _).2 rfl
  | [a, b], hcells, _, hletters =>
      have hb : IsLetter b := hletters b (by simp)
      rw [(emitIf_of (by simp) _ (combine_yields _ hcells)).bind, (emitIf_of_not (by simp) _ _).bind,
        (emitIf_of_not (by simp) _ _).bind, decodeLoop, plain₁_eq hb]
      exact (yields_pure _ _).2 rfl
  | [a, b, c], hcells, _, hletters =>
      have hb : IsLetter b := hletters b (by simp)
      have hc : IsLetter c := hletters c (by simp)
      have hcells₁ := (Region.read_of_drop hcells).2
      rw [(emitIf_of (by simp) _ (combine_yields _ hcells)).bind,
        (emitIf_of (by simp) _ (combine_yields _ hcells₁)).bind, (emitIf_of_not (by simp) _ _).bind, decodeLoop,
        plain₁_eq hb, plain₂_eq hc, List.append_assoc out]
      exact (yields_pure _ _).2 rfl
  | [a, b, c, d], hcells, _, hletters =>
      have hb : IsLetter b := hletters b (by simp)
      have hc : IsLetter c := hletters c (by simp)
      have hd : IsLetter d := hletters d (by simp)
      have hcells₁ := (Region.read_of_drop hcells).2
      have hcells₂ := (Region.read_of_drop hcells₁).2
      rw [(emitIf_of (by simp) _ (combine_yields _ hcells)).bind,
        (emitIf_of (by simp) _ (combine_yields _ hcells₁)).bind,
        (emitIf_of (by simp) _ (combine_yields _ hcells₂)).bind, decodeLoop, decodeLoop, List.append_nil,
        plain₁_eq hb, plain₂_eq hc, plain₃_eq hd, List.append_assoc out, List.append_assoc out]
      exact (yields_pure _ _).2 rfl
  | a :: b :: c :: d :: e :: l, _, hshort, _ =>
      simp only [List.length_cons] at hshort
      omega

/-- The letters that are left are decoded. -/
theorem decodeFrom_yields {r : Region UInt8} {fuel pos : ℕ} {coded rest : Bytes} (out : Bytes)
    (hcells : r.cells.drop pos = coded ++ rest) (hfuel : coded.length ≤ fuel)
    (hletters : ∀ c ∈ coded, IsLetter c) :
    ∃ n : ℤ, n % 4 = coded.length % 4 ∧
      (decodeFrom r fuel pos coded.length out).Yields (n, out ++ decodeLoop coded ++ [0]) := by
  induction fuel generalizing pos coded out with
  | zero =>
      refine ⟨coded.length, rfl, decodeTail_yields out hcells (Nat.le_trans hfuel (Nat.zero_le 4)) hletters⟩
  | succ fuel ih =>
      rw [decodeFrom]
      by_cases hshort : coded.length ≤ 4
      · have hstop : ¬ ((coded.length : ℤ) > 4) := by omega
        rw [if_neg hstop]
        exact ⟨coded.length, rfl, decodeTail_yields out hcells hshort hletters⟩
      match coded, hcells, hshort, hletters with
      | a :: b :: c :: d :: coded, hcells, hshort, hletters =>
          rcases Region.read_of_drop hcells with ⟨ha, hcells₁⟩
          rcases Region.read_of_drop hcells₁ with ⟨hb, hcells₂⟩
          rcases Region.read_of_drop hcells₂ with ⟨hc, hcells₃⟩
          rcases Region.read_of_drop hcells₃ with ⟨hd, hcells₄⟩
          simp only [List.mem_cons, forall_eq_or_imp] at hletters
          rcases hletters with ⟨-, hbl, hcl, hdl, hletters⟩
          have hgo : ((a :: b :: c :: d :: coded).length : ℤ) > 4 := by omega
          have hless : ((a :: b :: c :: d :: coded).length : ℤ) - 4 = coded.length := by
            simp only [List.length_cons]
            omega
          rw [if_pos hgo, hless]
          simp only [ha.bind, hb.bind, hc.bind, hd.bind]
          simp only [List.length_cons] at hfuel
          rcases ih (out ++ [plain₁ a b, plain₂ b c, plain₃ c d]) hcells₄ (by omega) hletters with
            ⟨n, hn, hyields⟩
          refine ⟨n, ?_, ?_⟩
          · simp only [List.length_cons]
            omega
          · rw [plain₁_eq hbl, plain₂_eq hcl, plain₃_eq hdl] at hyields ⊢
            rwa [List.append_assoc out, ← decodeLoop] at hyields
      | [], _, hshort, _ => simp at hshort
      | [_], _, hshort, _ => simp at hshort
      | [_, _], _, hshort, _ => simp at hshort
      | [_, _, _], _, hshort, _ => simp at hshort

/-! ### How much is written -/

theorem emitIf_length (c : Prop) [Decidable c] (out : Bytes) (x : Demanding UInt8) :
    (emitIf c out x).value.length = out.length + if c then 1 else 0 := by
  by_cases h : c
  · simp [emitIf, h]
  · simp [emitIf, h]

theorem decodeTail_length (r : Region UInt8) (pos : ℕ) {nprbytes : ℤ} (h : nprbytes ≤ 4) (out : Bytes) :
    (decodeTail r pos nprbytes out).value.2.length = out.length + nprbytes.toNat * 3 / 4 + 1 := by
  simp only [decodeTail, value_bind, value_pure, List.length_append, emitIf_length, List.length_singleton]
  split_ifs
  all_goals omega

/-- The loop writes three bytes for four letters. -/
theorem decodeFrom_length (r : Region UInt8) {fuel : ℕ} (pos : ℕ) {nprbytes : ℤ} (hfuel : nprbytes ≤ fuel + 4)
    (out : Bytes) :
    (decodeFrom r fuel pos nprbytes out).value.2.length = out.length + nprbytes.toNat * 3 / 4 + 1 := by
  induction fuel generalizing pos nprbytes out with
  | zero => exact decodeTail_length r pos (by simpa using hfuel) out
  | succ fuel ih =>
      rw [decodeFrom]
      by_cases hgo : nprbytes > 4
      · simp only [hgo, if_true, value_bind]
        rw [ih _ (by omega), List.length_append]
        simp only [List.length_cons, List.length_nil]
        omega
      · rw [if_neg hgo]
        exact decodeTail_length r pos (Int.not_lt.1 hgo) out

/-- What an `int` holds is not more than it was given. -/
theorem toInt32_le (n : ℕ) : (toInt32 n).toNat ≤ n := by
  rw [toInt32]
  omega

theorem toInt32_of_lt {n : ℕ} (h : n < 2147483648) : toInt32 n = n := by
  rw [toInt32]
  omega

theorem toInt32_le_sub {n : ℕ} (h : 2147483648 ≤ n) : (toInt32 n).toNat ≤ n - 2147483648 := by
  rw [toInt32]
  omega

theorem stdBase64DecodeIn_length (behind : ℕ → UInt8) (t : Bytes) :
    (stdBase64DecodeIn behind t).value.2.length = (toInt32 (letterCount t)).toNat * 3 / 4 + 1 := by
  have hle := toInt32_le (letterCount t)
  have hfuel : toInt32 (letterCount t) ≤ (letterCount t : ℤ) + 4 := by omega
  simpa [stdBase64DecodeIn] using decodeFrom_length (cRegion behind t) 0 hfuel []

theorem stdBase64DecodeIn_fits (behind : ℕ → UInt8) (t : Bytes) :
    (stdBase64DecodeIn behind t).value.2.length ≤ stdBase64DecodeLen t := by
  have hlen := stdBase64DecodeIn_length behind t
  have hle := toInt32_le (letterCount t)
  rw [stdBase64DecodeLen]
  omega

/-! ## Round trips -/

theorem ofInt_of_lt {n : ℕ} (h : n < 18446744073709551616) : ofInt n = n := by
  rw [ofInt, Int.emod_eq_of_lt (Int.natCast_nonneg n) (by omega), Int.toNat_natCast]

/-- The number of bytes that `n` letters stand for. -/
theorem ofInt_decoded {k : ℕ} {n : ℤ} (hk : k < 2147483648) (hn : n % 4 = (k : ℤ) % 4) :
    ofInt (((k : ℤ) + 3).tdiv 4 * 3 - (4 - n) % 4) = k * 3 / 4 := by
  have hvalue : ((k : ℤ) + 3) / 4 * 3 - (4 - n) % 4 = ((k * 3 / 4 : ℕ) : ℤ) := by
    have hlast : k % 4 = 0 ∨ k % 4 = 1 ∨ k % 4 = 2 ∨ k % 4 = 3 := by omega
    rcases hlast with h | h | h | h
    all_goals omega
  rw [Int.tdiv_eq_ediv_of_nonneg (by omega), hvalue]
  exact ofInt_of_lt (by omega)

/-- A text that starts with letters and goes on with something else is decoded, if an `int` can count the
letters. -/
theorem stdBase64DecodeIn_yields (behind : ℕ → UInt8) (t : Bytes) (hcount : letterCount t + 3 < 2147483648) :
    (stdBase64DecodeIn behind t).Yields
      (letterCount t * 3 / 4, decodeLoop ((cString t).takeWhile fun c => decide (pr2six c ≤ 63)) ++ [0]) := by
  have hint : toInt32 (letterCount t) = letterCount t := toInt32_of_lt (by omega)
  have hletters : ∀ c ∈ (cString t).takeWhile fun c => decide (pr2six c ≤ 63), IsLetter c := by
    intro c hc
    have hdec := List.mem_takeWhile_imp hc
    exact of_decide_eq_true hdec
  have hcells : (cRegion behind t).cells.drop 0 = ((cString t).takeWhile fun c => decide (pr2six c ≤ 63)) ++
      (((cString t).dropWhile fun c => decide (pr2six c ≤ 63)) ++ [0]) := by
    rw [List.drop_zero, ← List.append_assoc, List.takeWhile_append_dropWhile]
    rfl
  rcases decodeFrom_yields [] hcells (Nat.le_refl _) hletters with ⟨n, hn, hyields⟩
  have hfits : (demand ((letterCount t : ℤ) + 3).toNat 2147483647).Yields () := demand_yields (by omega)
  have hsize : ofInt (((letterCount t : ℤ) + 3).tdiv 4 * 3 - (4 - n) % 4) = letterCount t * 3 / 4 := by
    exact ofInt_decoded (by omega) hn
  rw [stdBase64DecodeIn, hint]
  dsimp only
  rw [hfits.bind]
  have hyields' : (decodeFrom (cRegion behind t) (letterCount t) 0 (letterCount t) []).Yields _ := hyields
  rw [hyields'.bind, yields_pure, List.nil_append, hsize]

theorem decodeLoop_length (coded : Bytes) : (decodeLoop coded).length = coded.length * 3 / 4 := by
  induction coded using decodeLoop.induct with
  | case1 a b c d rest ih =>
      rw [decodeLoop, List.length_append, ih]
      simp only [List.length_cons, List.length_nil]
      omega
  | case2 a b c => simp [decodeLoop]
  | case3 a b => simp [decodeLoop]
  | case4 a => simp [decodeLoop]
  | case5 => simp [decodeLoop]

/-- A text has as many letters as it takes to hold its bits. -/
theorem letters_length (s : Bytes) : (letters s).length = (4 * s.length + 2) / 3 := by
  rcases base64_eq_letters s with ⟨k, heq, hmod, hk⟩
  have hlen := congrArg List.length heq
  rw [base64_length, List.length_append, List.length_replicate] at hlen
  have hback := decodeLoop_length (letters s)
  rw [decodeLoop_letters] at hback
  have hpad : k = 0 ∨ k = 1 ∨ k = 2 := by omega
  rcases hpad with rfl | rfl | rfl
  all_goals omega

theorem IsLetter.ne_zero {c : UInt8} (h : IsLetter c) : c ≠ 0 := by
  rintro rfl
  exact absurd h (by decide)

theorem zero_not_mem_base64 (s : Bytes) : (0 : UInt8) ∉ base64 s := by
  rcases base64_eq_letters s with ⟨k, heq, -, -⟩
  rw [heq, List.mem_append, not_or]
  refine ⟨fun hmem => (isLetter_of_mem_letters hmem).ne_zero rfl, fun hmem => ?_⟩
  exact absurd (List.eq_of_mem_replicate hmem) (by decide)

/-- The letters of a text that is followed by padding. -/
theorem takeWhile_letters_append (s : Bytes) (k : ℕ) :
    (letters s ++ List.replicate k 0x3d).takeWhile (fun c => decide (pr2six c ≤ 63)) = letters s := by
  have hall : ∀ c ∈ letters s, decide (pr2six c ≤ 63) = true := fun c hc =>
    decide_eq_true (isLetter_of_mem_letters hc)
  rw [List.takeWhile_append_of_pos hall]
  cases k with
  | zero => exact List.append_nil _
  | succ k =>
      rw [List.replicate_succ, List.takeWhile_cons_of_neg (by decide)]
      exact List.append_nil _

theorem zero_not_mem_padded (s : Bytes) (k : ℕ) : (0 : UInt8) ∉ letters s ++ List.replicate k 0x3d := by
  rw [List.mem_append, not_or]
  refine ⟨fun hmem => (isLetter_of_mem_letters hmem).ne_zero rfl, fun hmem => ?_⟩
  exact absurd (List.eq_of_mem_replicate hmem) (by decide)

/-- What the decoder counts, with padding or without. -/
theorem letterCount_padded (s l : Bytes) (k : ℕ) :
    letterCount (letters s ++ List.replicate k 0x3d ++ 0 :: l) = (4 * s.length + 2) / 3 := by
  have htext : cString (letters s ++ List.replicate k 0x3d ++ 0 :: l) = letters s ++ List.replicate k 0x3d := by
    rw [cString_append (zero_not_mem_padded s k)]
    exact List.append_nil _
  rw [letterCount, htext, takeWhile_letters_append, letters_length]

/-- Encoding writes as much as it should, and what is decoded is the text. -/
structure RoundTrips (encode : Bytes → Demanding Bytes) (decode : Bytes → Demanding (ℕ × Bytes)) (s : Bytes) :
    Prop where
  encodes : (encode s).Met
  length : (encode s).value.length = stdBase64EncodeLen s.length
  decodes : (decode (encode s).value).Met
  returned : (decode (encode s).value).value.1 = s.length
  bytes : (decode (encode s).value).value.2.take s.length = s

/-- At least two bytes, and not more than an `int` can count the letters of. -/
def Countable (s : Bytes) : Prop := 2 ≤ s.length ∧ (4 * s.length + 2) / 3 + 3 < 2147483648

section Parts

variable {behind : ℕ → UInt8} {encode : Bytes → Demanding Bytes} {decode : Bytes → Demanding (ℕ × Bytes)}
  {s t l coded : Bytes} {k : ℕ}

/-- A text comes back when the letters of what is decoded are its own. -/
theorem roundTrips_of_padded (hencode : (encode s).Yields coded)
    (hlen : coded.length = stdBase64EncodeLen s.length)
    (hdecode : decode coded = stdBase64DecodeIn behind (letters s ++ List.replicate k 0x3d ++ 0 :: l))
    (h : Countable s) : RoundTrips encode decode s := by
  have hcount := letterCount_padded s l k
  have hyields := stdBase64DecodeIn_yields behind (letters s ++ List.replicate k 0x3d ++ 0 :: l)
    (by rw [hcount]; exact h.2)
  have htext : cString (letters s ++ List.replicate k 0x3d ++ 0 :: l) = letters s ++ List.replicate k 0x3d := by
    rw [cString_append (zero_not_mem_padded s k)]
    exact List.append_nil _
  rw [hcount, htext, takeWhile_letters_append, decodeLoop_letters] at hyields
  rw [← hencode.2] at hlen hdecode
  refine ⟨hencode.1, hlen, ?_, ?_, ?_⟩
  · rw [hdecode]
    exact hyields.1
  · rw [hdecode, hyields.2]
    dsimp only
    omega
  · rw [hdecode, hyields.2]
    exact List.take_left

variable (behind) in
/-- A text that comes back is one whose letters can be counted. -/
theorem RoundTrips.countable (hround : RoundTrips encode decode s) (hmet : (encode s).Met → 2 ≤ s.length)
    (hdecode : 2 ≤ s.length →
      decode (encode s).value = stdBase64DecodeIn behind (letters s ++ List.replicate k 0x3d ++ 0 :: l)) :
    Countable s := by
  have htwo := hmet hround.encodes
  refine ⟨htwo, ?_⟩
  have hcount := letterCount_padded s l k
  have hfits := hround.decodes
  have hbytes := congrArg List.length hround.bytes
  rw [hdecode htwo] at hfits hbytes
  have hwritten := stdBase64DecodeIn_length behind (letters s ++ List.replicate k 0x3d ++ 0 :: l)
  have hle : s.length ≤ (stdBase64DecodeIn behind
      (letters s ++ List.replicate k 0x3d ++ 0 :: l)).value.2.length := by
    rw [← hbytes, List.length_take]
    exact Nat.min_le_right _ _
  have hint := (met_demand _ _).1 ((met_bind _ _).1 hfits).1
  rw [hcount] at hwritten hint
  by_contra hlarge
  by_cases hwrap : (4 * s.length + 2) / 3 < 2147483648
  · -- the `int` overflows
    rw [toInt32_of_lt hwrap] at hint
    omega
  · -- the `int` is too small, and not all of the text is written
    have hless := toInt32_le_sub (Nat.not_lt.1 hwrap)
    omega

end Parts

/-! ### The standard form -/

section Standard

variable (behind behind' : ℕ → UInt8) (s : Bytes)

/-- What the standard encoder writes. -/
theorem base64_padded : ∃ k, base64 s ++ [0] = letters s ++ List.replicate k 0x3d ++ 0 :: [] := by
  rcases base64_eq_letters s with ⟨k, heq, -, -⟩
  exact ⟨k, congrArg (· ++ [0]) heq⟩

theorem base64_zero_length : (base64 s ++ [0]).length = stdBase64EncodeLen s.length := by
  rw [List.length_append, base64_length, stdBase64EncodeLen, List.length_singleton]

theorem std_roundTrips_iff :
    RoundTrips (stdBase64EncodeIn behind) (stdBase64DecodeIn behind') s ↔ Countable s := by
  rcases base64_padded s with ⟨k, hpadded⟩
  constructor
  · intro hround
    refine hround.countable behind' (k := k) (l := []) two_le_of_met fun htwo => ?_
    rw [(stdBase64EncodeIn_yields behind htwo).2, hpadded]
  · intro h
    exact roundTrips_of_padded (k := k) (l := []) (stdBase64EncodeIn_yields behind h.1) (base64_zero_length s)
      (congrArg (stdBase64DecodeIn behind') hpadded) h

end Standard

/-! ### The form for URLs -/

/-- The character that takes the place of another one. -/
def replaced (oldChar newChar c : UInt8) : UInt8 := if c = oldChar then newChar else c

theorem cString_zero {a : Bytes} (h : (0 : UInt8) ∉ a) (l : Bytes) : cString (a ++ 0 :: l) = a := by
  rw [cString_append h]
  exact List.append_nil _

theorem replaceCharIn_text {a : Bytes} (h : (0 : UInt8) ∉ a) (l : Bytes) (oldChar newChar : UInt8) :
    replaceCharIn (a ++ 0 :: l) oldChar newChar = a.map (replaced oldChar newChar) ++ 0 :: l := by
  rw [replaceCharIn, strReplaceChar, cString_zero h, List.drop_left]
  rfl

theorem strReplaceChar_text {a : Bytes} (h : (0 : UInt8) ∉ a) (oldChar newChar : UInt8) :
    strReplaceChar a oldChar newChar = a.map (replaced oldChar newChar) := by
  rw [strReplaceChar, cString_of_not_mem h]
  rfl

theorem zero_not_mem_map {a : Bytes} (h : (0 : UInt8) ∉ a) {oldChar newChar : UInt8} (hnew : newChar ≠ 0) :
    (0 : UInt8) ∉ a.map (replaced oldChar newChar) := by
  intro hmem
  rcases List.mem_map.1 hmem with ⟨c, hc, hzero⟩
  rw [replaced] at hzero
  split_ifs at hzero
  · exact hnew hzero
  · exact h (hzero ▸ hc)

/-- A letter as it stands in a URL. -/
def urlLetter (c : UInt8) : UInt8 := replaced 0x2f 0x5f (replaced 0x2b 0x2d c)

/-- And back. -/
def stdLetter (c : UInt8) : UInt8 := replaced 0x5f 0x2f (replaced 0x2d 0x2b c)

theorem urlLetter_spec {c : UInt8} (h : IsLetter c) :
    stdLetter (urlLetter c) = c ∧ urlLetter c ≠ 0 ∧ urlLetter c ≠ 0x3d := by
  have hall : ∀ c : UInt8, IsLetter c → stdLetter (urlLetter c) = c ∧ urlLetter c ≠ 0 ∧ urlLetter c ≠ 0x3d :=
    of_byte (by decide +kernel)
  exact hall c h

/-- The letters of a text as they stand in a URL. -/
def urlLetters (s : Bytes) : Bytes := (letters s).map urlLetter

theorem zero_not_mem_urlLetters (s : Bytes) : (0 : UInt8) ∉ urlLetters s := by
  intro hmem
  rcases List.mem_map.1 hmem with ⟨c, hc, hzero⟩
  exact (urlLetter_spec (isLetter_of_mem_letters hc)).2.1 hzero

/-- Nothing is lost. -/
theorem urlLetters_std (s : Bytes) : (urlLetters s).map stdLetter = letters s := by
  rw [urlLetters, List.map_map]
  conv_rhs => rw [← List.map_id (letters s)]
  rw [List.map_inj_left]
  intro c hc
  exact (urlLetter_spec (isLetter_of_mem_letters hc)).1

section Url

variable (behind behind' : ℕ → UInt8) (s : Bytes)

/-- What the encoder for URLs leaves in its array. -/
theorem urlSafeBase64EncodeIn_value (htwo : 2 ≤ s.length) :
    ∃ k, (urlSafeBase64EncodeIn behind s).Yields (urlLetters s ++ 0 :: List.replicate k 0) ∧
      (letters s).length + k = (base64 s).length := by
  rcases base64_eq_letters s with ⟨k, heq, -, -⟩
  refine ⟨k, ?_, ?_⟩
  · have hzero := zero_not_mem_base64 s
    rw [urlSafeBase64EncodeIn, (stdBase64EncodeIn_yields behind htwo).bind, yields_pure,
      replaceCharIn_text hzero, replaceCharIn_text (zero_not_mem_map hzero (by decide)),
      replaceCharIn_text (zero_not_mem_map (zero_not_mem_map hzero (by decide)) (by decide))]
    have hletters : ((letters s).map urlLetter).map (replaced 0x3d 0) = urlLetters s := by
      rw [List.map_map, urlLetters, List.map_inj_left]
      intro c hc
      exact if_neg (urlLetter_spec (isLetter_of_mem_letters hc)).2.2
    have htwice : ((base64 s).map (replaced 0x2b 0x2d)).map (replaced 0x2f 0x5f) =
        (letters s).map urlLetter ++ List.replicate k 0x3d := by
      rw [List.map_map, heq, List.map_append, List.map_replicate]
      rfl
    rw [htwice, List.map_append, hletters, List.map_replicate, List.append_assoc]
    congr 1
    exact (List.replicate_succ' ..).symm
  · have hlen := congrArg List.length heq
    rw [List.length_append, List.length_replicate] at hlen
    exact hlen.symm

/-- The decoder for URLs puts the padding back. -/
theorem urlSafeBase64DecodeIn_eq (l : Bytes) :
    ∃ k, urlSafeBase64DecodeIn behind (urlLetters s ++ 0 :: l) =
      stdBase64DecodeIn behind (letters s ++ List.replicate k 0x3d ++ 0 :: []) := by
  have hback : strReplaceChar (strReplaceChar (urlLetters s) 0x2d 0x2b) 0x5f 0x2f = letters s := by
    have hzero := zero_not_mem_urlLetters s
    rw [strReplaceChar_text hzero, strReplaceChar_text (zero_not_mem_map hzero (by decide)), List.map_map]
    exact urlLetters_std s
  have hlen := letters_length s
  have hnot : ¬ (letters s).length % 4 = 1 := by omega
  rw [urlSafeBase64DecodeIn, cString_zero (zero_not_mem_urlLetters s), strUrlSafeBase64ToStdBase64]
  simp only [hback, hnot, if_false]
  by_cases h2 : (letters s).length % 4 = 2
  · rw [if_pos h2]
    exact ⟨2, rfl⟩
  by_cases h3 : (letters s).length % 4 = 3
  · rw [if_neg h2, if_pos h3]
    exact ⟨1, rfl⟩
  · rw [if_neg h2, if_neg h3]
    exact ⟨0, by rw [List.replicate_zero, List.append_nil]⟩

theorem url_roundTrips_iff :
    RoundTrips (urlSafeBase64EncodeIn behind) (urlSafeBase64DecodeIn behind') s ↔ Countable s := by
  constructor
  · intro hround
    have htwo := two_le_of_met ((met_bind _ _).1 hround.encodes).1
    rcases urlSafeBase64EncodeIn_value behind s htwo with ⟨k, hencode, -⟩
    rcases urlSafeBase64DecodeIn_eq behind' s (List.replicate k 0) with ⟨k', hdecode⟩
    refine hround.countable behind' (k := k') (l := []) (fun _ => htwo) fun _ => ?_
    rw [hencode.2, hdecode]
  · intro h
    rcases urlSafeBase64EncodeIn_value behind s h.1 with ⟨k, hencode, hcount⟩
    rcases urlSafeBase64DecodeIn_eq behind' s (List.replicate k 0) with ⟨k', hdecode⟩
    refine roundTrips_of_padded hencode ?_ hdecode h
    rw [List.length_append, List.length_cons, List.length_replicate, urlLetters, List.length_map,
      ← base64_zero_length, List.length_append, List.length_singleton, ← hcount]
    omega

end Url

/-- Every text whose letters can be counted comes back, no other text does, and what is decoded never takes more
room than it is given. -/
theorem base64_codec_iff (behind behind' : ℕ → UInt8) :
    (∀ s, RoundTrips (stdBase64EncodeIn behind) (stdBase64DecodeIn behind') s ↔ Countable s) ∧
      (∀ s, RoundTrips (urlSafeBase64EncodeIn behind) (urlSafeBase64DecodeIn behind') s ↔ Countable s) ∧
        ∀ t, (stdBase64DecodeIn behind t).value.2.length ≤ stdBase64DecodeLen t :=
  ⟨std_roundTrips_iff behind behind', url_roundTrips_iff behind behind', stdBase64DecodeIn_fits behind⟩

/-- A password of one byte is not encoded. -/
theorem base64_of_one_byte :
    ¬ RoundTrips (stdBase64EncodeIn fun _ => 0) (stdBase64DecodeIn fun _ => 0) [0x61] := by
  intro hround
  exact absurd (two_le_of_met hround.encodes) (by decide)

end Base64
end SsrNative
