import Mathlib.Data.List.Basic
import Mathlib.Data.List.TakeWhile
import Mathlib.Tactic.Common
import Mathlib.Tactic.Ring

/-!
# Bytes — byte buffers, fixed-width fields and `size_t` arithmetic

The C program works on `struct buffer_t` values.  The model keeps the first `len` bytes as a list.
Buffers are allocated with `calloc`, and `buffer_shortened_to` erases what it cuts off, so a read
past `len` but inside the capacity yields zero bytes, which is what `byteAt` and `window` return.
-/

namespace SsrNative

abbrev Bytes := List UInt8

namespace Bytes

/-! ## Reading from zero-filled storage -/

/-- The byte at offset `i` of the storage. -/
def byteAt (b : Bytes) (i : ℕ) : UInt8 := b.getD i 0

/-- The `n` bytes of the storage from offset `off`, as `memcmp` and `memcpy` read them. -/
def window (b : Bytes) (off n : ℕ) : Bytes := (List.range n).map fun i => byteAt b (off + i)

@[simp] theorem window_length (b : Bytes) (off n : ℕ) : (window b off n).length = n := by
  simp [window]

theorem byteAt_append_left {a l : Bytes} {i : ℕ} (h : i < a.length) :
    byteAt (a ++ l) i = byteAt a i := by
  simp [byteAt, List.getD_eq_getElem?_getD, List.getElem?_append_left h]

theorem byteAt_append_right {a l : Bytes} {i : ℕ} (h : a.length ≤ i) :
    byteAt (a ++ l) i = byteAt l (i - a.length) := by
  simp [byteAt, List.getD_eq_getElem?_getD, List.getElem?_append_right h]

theorem window_eq_take {b : Bytes} {off n : ℕ} (h : off + n ≤ b.length) :
    window b off n = (b.drop off).take n := by
  apply List.ext_getElem
  · simp; omega
  · intro i hi hi'
    simp only [window_length] at hi
    simp [window, byteAt, List.getD_eq_getElem?_getD,
      List.getElem?_eq_getElem (show off + i < b.length by omega)]

theorem window_congr {a b : Bytes} {off n : ℕ} (h : ∀ i < off + n, byteAt a i = byteAt b i) :
    window a off n = window b off n := by
  simp only [window, List.map_inj_left, List.mem_range]
  intro i hi
  exact h (off + i) (by omega)

/-- Zeros behind the bytes are what is read there anyway. -/
theorem byteAt_zeros (data : Bytes) (n i : ℕ) :
    byteAt (data ++ List.replicate n 0) i = byteAt data i := by
  by_cases h : i < data.length
  · exact byteAt_append_left h
  · rw [byteAt_append_right (by omega), byteAt, byteAt, List.getD_eq_getElem?_getD,
      List.getD_eq_getElem?_getD, List.getElem?_eq_none (Nat.not_lt.1 h), List.getElem?_replicate]
    split <;> rfl

theorem window_append_left {a l : Bytes} {off n : ℕ} (h : off + n ≤ a.length) :
    window (a ++ l) off n = window a off n := by
  rw [window_eq_take h, window_eq_take (by simp; omega), List.drop_append_of_le_length (by omega),
    List.take_append_of_le_length (by simp; omega)]

theorem window_append_right {a l : Bytes} {off n : ℕ} (h : a.length ≤ off) :
    window (a ++ l) off n = window l (off - a.length) n := by
  simp only [window, List.map_inj_left, List.mem_range]
  intro i _
  rw [byteAt_append_right (by omega)]
  congr 1
  omega

/-- A window that starts at the front of `l` and spans all of it. -/
theorem window_zero_append {a l : Bytes} {n : ℕ} (h : a.length = n) : window (a ++ l) 0 n = a := by
  subst h
  rw [window_eq_take (by simp)]
  simp

/-- A window over a field in the middle of a buffer. -/
theorem window_field {a w l : Bytes} {off n : ℕ} (ha : a.length = off) (hw : w.length = n) :
    window (a ++ (w ++ l)) off n = w := by
  rw [window_append_right (by omega), ha, Nat.sub_self, window_zero_append hw]

/-- A field of a stream that a part of the stream already covers. -/
theorem window_of_cat {b r a w l : Bytes} (h : b ++ r = a ++ (w ++ l)) {off n : ℕ}
    (ha : a.length = off) (hw : w.length = n) (hlen : off + n ≤ b.length) : window b off n = w := by
  rw [← window_append_left hlen, h, window_field ha hw]

/-! ## Fixed-width fields -/

/-- `htons((uint16_t)n)` laid out in memory. -/
def be16 (n : ℕ) : Bytes := [UInt8.ofNat (n / 256), UInt8.ofNat n]

/-- A little-endian 16-bit field. -/
def le16 (n : ℕ) : Bytes := [UInt8.ofNat n, UInt8.ofNat (n / 256)]

/-- `htonl((uint32_t)n)` laid out in memory. -/
def be32 (n : ℕ) : Bytes :=
  [UInt8.ofNat (n / 16777216), UInt8.ofNat (n / 65536), UInt8.ofNat (n / 256), UInt8.ofNat n]

/-- `memintcopy_lt`: a little-endian 32-bit field. -/
def le32 (n : ℕ) : Bytes :=
  [UInt8.ofNat n, UInt8.ofNat (n / 256), UInt8.ofNat (n / 65536), UInt8.ofNat (n / 16777216)]

/-- `ntohs` of the two bytes at `i`. -/
def rdBe16 (b : Bytes) (i : ℕ) : ℕ := (byteAt b i).toNat * 256 + (byteAt b (i + 1)).toNat

/-- The little-endian 16-bit field at `i`. -/
def rdLe16 (b : Bytes) (i : ℕ) : ℕ := (byteAt b (i + 1)).toNat * 256 + (byteAt b i).toNat

/-- The little-endian 32-bit field at `i`. -/
def rdLe32 (b : Bytes) (i : ℕ) : ℕ := rdLe16 b (i + 2) * 65536 + rdLe16 b i

@[simp] theorem be16_length (n : ℕ) : (be16 n).length = 2 := rfl
@[simp] theorem le16_length (n : ℕ) : (le16 n).length = 2 := rfl
@[simp] theorem be32_length (n : ℕ) : (be32 n).length = 4 := rfl
@[simp] theorem le32_length (n : ℕ) : (le32 n).length = 4 := rfl

theorem rdBe16_lt (b : Bytes) (i : ℕ) : rdBe16 b i < 65536 := by
  have h1 := (byteAt b i).toNat_lt
  have h2 := (byteAt b (i + 1)).toNat_lt
  simp only [rdBe16]
  omega

theorem rdBe16_append_left {a l : Bytes} {i : ℕ} (h : i + 2 ≤ a.length) :
    rdBe16 (a ++ l) i = rdBe16 a i := by
  simp only [rdBe16]
  rw [byteAt_append_left (by omega), byteAt_append_left (by omega)]

theorem rdLe16_append_left {a l : Bytes} {i : ℕ} (h : i + 2 ≤ a.length) :
    rdLe16 (a ++ l) i = rdLe16 a i := by
  simp only [rdLe16]
  rw [byteAt_append_left (by omega), byteAt_append_left (by omega)]

theorem rdBe16_append_right {a l : Bytes} {i : ℕ} (h : a.length ≤ i) :
    rdBe16 (a ++ l) i = rdBe16 l (i - a.length) := by
  simp only [rdBe16]
  rw [byteAt_append_right h, byteAt_append_right (by omega), Nat.sub_add_comm h]

theorem rdLe16_append_right {a l : Bytes} {i : ℕ} (h : a.length ≤ i) :
    rdLe16 (a ++ l) i = rdLe16 l (i - a.length) := by
  simp only [rdLe16]
  rw [byteAt_append_right h, byteAt_append_right (by omega), Nat.sub_add_comm h]

theorem rdLe32_append_right {a l : Bytes} {i : ℕ} (h : a.length ≤ i) :
    rdLe32 (a ++ l) i = rdLe32 l (i - a.length) := by
  rw [rdLe32, rdLe32, rdLe16_append_right (by omega), rdLe16_append_right h, Nat.sub_add_comm h]

@[simp] theorem rdBe16_be16_append (n : ℕ) (l : Bytes) : rdBe16 (be16 n ++ l) 0 = n % 65536 := by
  simp [rdBe16, be16, byteAt]
  omega

@[simp] theorem rdLe16_le16_append (n : ℕ) (l : Bytes) : rdLe16 (le16 n ++ l) 0 = n % 65536 := by
  simp [rdLe16, le16, byteAt]
  omega

@[simp] theorem rdLe32_le32_append (n : ℕ) (l : Bytes) :
    rdLe32 (le32 n ++ l) 0 = n % 4294967296 := by
  simp [rdLe32, rdLe16, le32, byteAt]
  omega

theorem rdBe16_field {a l : Bytes} {i n : ℕ} (h : a.length = i) :
    rdBe16 (a ++ (be16 n ++ l)) i = n % 65536 := by
  rw [rdBe16_append_right (by omega), h, Nat.sub_self, rdBe16_be16_append]

theorem rdLe16_field {a l : Bytes} {i n : ℕ} (h : a.length = i) :
    rdLe16 (a ++ (le16 n ++ l)) i = n % 65536 := by
  rw [rdLe16_append_right (by omega), h, Nat.sub_self, rdLe16_le16_append]

theorem rdLe32_field {a l : Bytes} {i n : ℕ} (h : a.length = i) :
    rdLe32 (a ++ (le32 n ++ l)) i = n % 4294967296 := by
  rw [rdLe32_append_right (by omega), h, Nat.sub_self, rdLe32_le32_append]

/-! ## `size_t` subtraction -/

/-- Subtraction of two `size_t` values: it wraps around below zero. -/
def subSize (a b : ℕ) : ℕ := if b ≤ a then a - b else 2 ^ 64 - (b - a)

theorem subSize_of_le {a b : ℕ} (h : b ≤ a) : subSize a b = a - b := by simp [subSize, h]

/-! ## Times -/

/-- A difference of two times as an `int`. -/
def timeDiff (now utc : ℕ) : ℕ :=
  (((now : ℤ) - utc + 2147483648) % 4294967296 - 2147483648).natAbs

theorem timeDiff_le {now utc n : ℕ} (hn : n < 2147483648) (h : ((now : ℤ) - utc).natAbs ≤ n) :
    timeDiff now (utc % 4294967296) ≤ n := by
  unfold timeDiff
  omega

/-! ## Buffer operations -/

/-- `buffer_shortened_to(ptr, begin, len, true)`: out-of-range requests are ignored. -/
def shortenedTo (b : Bytes) (begin len : ℕ) : Bytes :=
  if begin ≤ b.length ∧ len ≤ b.length - begin then (b.drop begin).take len else b

theorem shortenedTo_drop {b : Bytes} {n : ℕ} (h : n ≤ b.length) :
    shortenedTo b n (subSize b.length n) = b.drop n := by
  rw [subSize_of_le h, shortenedTo, if_pos ⟨h, Nat.le_refl _⟩, List.take_of_length_le (by simp)]

/-- Dropping a leading field. -/
theorem shortenedTo_append {a l : Bytes} {n : ℕ} (h : a.length = n) :
    shortenedTo (a ++ l) n (subSize (a ++ l).length n) = l := by
  rw [shortenedTo_drop (by simp; omega), ← h, List.drop_left]

theorem shortenedTo_of_length_lt {b : Bytes} {begin len : ℕ} (h : b.length < begin) :
    shortenedTo b begin len = b := by
  simp [shortenedTo, Nat.not_le.2 h]

theorem shortenedTo_inside {b : Bytes} {begin len : ℕ} (h : begin + len ≤ b.length) :
    shortenedTo b begin len = (b.drop begin).take len := by
  rw [shortenedTo, if_pos ⟨by omega, by omega⟩]

/-! ## Texts -/

/-- The bytes of an ASCII text. -/
def ascii (s : String) : Bytes := s.toList.map fun c => UInt8.ofNat c.toNat

/-- The bytes of a C string: everything before the first NUL. -/
def cString (s : Bytes) : Bytes := s.takeWhile (· != 0)

theorem not_mem_cString (s : Bytes) : (0 : UInt8) ∉ cString s := by
  intro h
  have := List.mem_takeWhile_imp h
  simp at this

theorem cString_append {a : Bytes} (h : (0 : UInt8) ∉ a) (b : Bytes) :
    cString (a ++ b) = a ++ cString b := by
  rw [cString, cString, List.takeWhile_append_of_pos]
  intro x hx
  simp only [bne_iff_ne, ne_eq]
  rintro rfl
  exact h hx

theorem cString_of_not_mem {s : Bytes} (h : (0 : UInt8) ∉ s) : cString s = s := by
  have happ := cString_append h []
  simpa [cString] using happ

/-- A NUL written into a text ends it there. -/
theorem cString_set_zero {s : Bytes} {n : ℕ} (h : (0 : UInt8) ∉ s.take n) (hn : n < s.length) :
    cString (s.set n 0) = s.take n := by
  rw [List.set_eq_take_append_cons_drop, if_pos hn, cString_append h]
  simp [cString]

theorem cString_initial (s : Bytes) : cString s <+: s := List.takeWhile_prefix _

/-- `%d`, digit by digit from the right. -/
def decimalDigits : ℕ → ℕ → Bytes → Bytes
  | 0, _, acc => acc
  | fuel + 1, n, acc =>
      let acc := UInt8.ofNat (48 + n % 10) :: acc
      if n / 10 = 0 then acc else decimalDigits fuel (n / 10) acc

def decimal (n : ℕ) : Bytes := decimalDigits (n + 1) n []

theorem decimalDigits_digit (fuel n : ℕ) (acc : Bytes) (hacc : ∀ x ∈ acc, 48 ≤ x.toNat ∧ x.toNat < 58) :
    ∀ x ∈ decimalDigits fuel n acc, 48 ≤ x.toNat ∧ x.toNat < 58 := by
  induction fuel generalizing n acc with
  | zero => exact hacc
  | succ fuel ih =>
      have hdigit : ∀ x ∈ UInt8.ofNat (48 + n % 10) :: acc, 48 ≤ x.toNat ∧ x.toNat < 58 := by
        intro x hx
        rcases List.mem_cons.1 hx with rfl | hx
        · have hval : (UInt8.ofNat (48 + n % 10)).toNat = 48 + n % 10 := by
            rw [UInt8.toNat_ofNat']
            omega
          omega
        · exact hacc x hx
      simp only [decimalDigits]
      split
      · exact hdigit
      · exact ih _ _ hdigit

theorem decimal_digit (n : ℕ) : ∀ x ∈ decimal n, 48 ≤ x.toNat ∧ x.toNat < 58 :=
  decimalDigits_digit _ _ _ (by simp)

/-- `rand_bytes`: the first `n` bytes of a random tape. -/
def randBytes (tape : ℕ → UInt8) (n : ℕ) : Bytes := (List.range n).map tape

@[simp] theorem randBytes_length (tape : ℕ → UInt8) (n : ℕ) : (randBytes tape n).length = n := by
  simp [randBytes]

end Bytes

end SsrNative
