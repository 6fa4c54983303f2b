import Mathlib.Data.List.Basic
import Mathlib.Tactic.Common
import SsrNative.Lib.Hash

/-!
# Aes — AES-128 on single blocks

An executable definition of the standard cipher on lists of sixteen bytes.  Each layer of a round
has an inverse, so decryption undoes encryption (`decrypt_encrypt`).
-/

namespace SsrNative
namespace Lib
namespace Aes

open Hash

/-! ## Substitution -/

def sboxTable : List UInt8 :=
  [0x63, 0x7c, 0x77, 0x7b, 0xf2, 0x6b, 0x6f, 0xc5, 0x30, 0x01, 0x67, 0x2b, 0xfe, 0xd7, 0xab, 0x76,
    0xca, 0x82, 0xc9, 0x7d, 0xfa, 0x59, 0x47, 0xf0, 0xad, 0xd4, 0xa2, 0xaf, 0x9c, 0xa4, 0x72, 0xc0,
    0xb7, 0xfd, 0x93, 0x26, 0x36, 0x3f, 0xf7, 0xcc, 0x34, 0xa5, 0xe5, 0xf1, 0x71, 0xd8, 0x31, 0x15,
    0x04, 0xc7, 0x23, 0xc3, 0x18, 0x96, 0x05, 0x9a, 0x07, 0x12, 0x80, 0xe2, 0xeb, 0x27, 0xb2, 0x75,
    0x09, 0x83, 0x2c, 0x1a, 0x1b, 0x6e, 0x5a, 0xa0, 0x52, 0x3b, 0xd6, 0xb3, 0x29, 0xe3, 0x2f, 0x84,
    0x53, 0xd1, 0x00, 0xed, 0x20, 0xfc, 0xb1, 0x5b, 0x6a, 0xcb, 0xbe, 0x39, 0x4a, 0x4c, 0x58, 0xcf,
    0xd0, 0xef, 0xaa, 0xfb, 0x43, 0x4d, 0x33, 0x85, 0x45, 0xf9, 0x02, 0x7f, 0x50, 0x3c, 0x9f, 0xa8,
    0x51, 0xa3, 0x40, 0x8f, 0x92, 0x9d, 0x38, 0xf5, 0xbc, 0xb6, 0xda, 0x21, 0x10, 0xff, 0xf3, 0xd2,
    0xcd, 0x0c, 0x13, 0xec, 0x5f, 0x97, 0x44, 0x17, 0xc4, 0xa7, 0x7e, 0x3d, 0x64, 0x5d, 0x19, 0x73,
    0x60, 0x81, 0x4f, 0xdc, 0x22, 0x2a, 0x90, 0x88, 0x46, 0xee, 0xb8, 0x14, 0xde, 0x5e, 0x0b, 0xdb,
    0xe0, 0x32, 0x3a, 0x0a, 0x49, 0x06, 0x24, 0x5c, 0xc2, 0xd3, 0xac, 0x62, 0x91, 0x95, 0xe4, 0x79,
    0xe7, 0xc8, 0x37, 0x6d, 0x8d, 0xd5, 0x4e, 0xa9, 0x6c, 0x56, 0xf4, 0xea, 0x65, 0x7a, 0xae, 0x08,
    0xba, 0x78, 0x25, 0x2e, 0x1c, 0xa6, 0xb4, 0xc6, 0xe8, 0xdd, 0x74, 0x1f, 0x4b, 0xbd, 0x8b, 0x8a,
    0x70, 0x3e, 0xb5, 0x66, 0x48, 0x03, 0xf6, 0x0e, 0x61, 0x35, 0x57, 0xb9, 0x86, 0xc1, 0x1d, 0x9e,
    0xe1, 0xf8, 0x98, 0x11, 0x69, 0xd9, 0x8e, 0x94, 0x9b, 0x1e, 0x87, 0xe9, 0xce, 0x55, 0x28, 0xdf,
    0x8c, 0xa1, 0x89, 0x0d, 0xbf, 0xe6, 0x42, 0x68, 0x41, 0x99, 0x2d, 0x0f, 0xb0, 0x54, 0xbb, 0x16]

def invSboxTable : List UInt8 :=
  [0x52, 0x09, 0x6a, 0xd5, 0x30, 0x36, 0xa5, 0x38, 0xbf, 0x40, 0xa3, 0x9e, 0x81, 0xf3, 0xd7, 0xfb,
    0x7c, 0xe3, 0x39, 0x82, 0x9b, 0x2f, 0xff, 0x87, 0x34, 0x8e, 0x43, 0x44, 0xc4, 0xde, 0xe9, 0xcb,
    0x54, 0x7b, 0x94, 0x32, 0xa6, 0xc2, 0x23, 0x3d, 0xee, 0x4c, 0x95, 0x0b, 0x42, 0xfa, 0xc3, 0x4e,
    0x08, 0x2e, 0xa1, 0x66, 0x28, 0xd9, 0x24, 0xb2, 0x76, 0x5b, 0xa2, 0x49, 0x6d, 0x8b, 0xd1, 0x25,
    0x72, 0xf8, 0xf6, 0x64, 0x86, 0x68, 0x98, 0x16, 0xd4, 0xa4, 0x5c, 0xcc, 0x5d, 0x65, 0xb6, 0x92,
    0x6c, 0x70, 0x48, 0x50, 0xfd, 0xed, 0xb9, 0xda, 0x5e, 0x15, 0x46, 0x57, 0xa7, 0x8d, 0x9d, 0x84,
    0x90, 0xd8, 0xab, 0x00, 0x8c, 0xbc, 0xd3, 0x0a, 0xf7, 0xe4, 0x58, 0x05, 0xb8, 0xb3, 0x45, 0x06,
    0xd0, 0x2c, 0x1e, 0x8f, 0xca, 0x3f, 0x0f, 0x02, 0xc1, 0xaf, 0xbd, 0x03, 0x01, 0x13, 0x8a, 0x6b,
    0x3a, 0x91, 0x11, 0x41, 0x4f, 0x67, 0xdc, 0xea, 0x97, 0xf2, 0xcf, 0xce, 0xf0, 0xb4, 0xe6, 0x73,
    0x96, 0xac, 0x74, 0x22, 0xe7, 0xad, 0x35, 0x85, 0xe2, 0xf9, 0x37, 0xe8, 0x1c, 0x75, 0xdf, 0x6e,
    0x47, 0xf1, 0x1a, 0x71, 0x1d, 0x29, 0xc5, 0x89, 0x6f, 0xb7, 0x62, 0x0e, 0xaa, 0x18, 0xbe, 0x1b,
    0xfc, 0x56, 0x3e, 0x4b, 0xc6, 0xd2, 0x79, 0x20, 0x9a, 0xdb, 0xc0, 0xfe, 0x78, 0xcd, 0x5a, 0xf4,
    0x1f, 0xdd, 0xa8, 0x33, 0x88, 0x07, 0xc7, 0x31, 0xb1, 0x12, 0x10, 0x59, 0x27, 0x80, 0xec, 0x5f,
    0x60, 0x51, 0x7f, 0xa9, 0x19, 0xb5, 0x4a, 0x0d, 0x2d, 0xe5, 0x7a, 0x9f, 0x93, 0xc9, 0x9c, 0xef,
    0xa0, 0xe0, 0x3b, 0x4d, 0xae, 0x2a, 0xf5, 0xb0, 0xc8, 0xeb, 0xbb, 0x3c, 0x83, 0x53, 0x99, 0x61,
    0x17, 0x2b, 0x04, 0x7e, 0xba, 0x77, 0xd6, 0x26, 0xe1, 0x69, 0x14, 0x63, 0x55, 0x21, 0x0c, 0x7d]

def sbox (x : UInt8) : UInt8 := sboxTable.getD x.toNat 0

def invSbox (x : UInt8) : UInt8 := invSboxTable.getD x.toNat 0

theorem invSbox_sbox : ∀ x : UInt8, invSbox (sbox x) = x := of_byte (by decide +kernel)

/-! ## Columns -/

/-- Multiplication by `x` in the field of the cipher. -/
def xtime (x : UInt8) : UInt8 := (x <<< 1) ^^^ ((x >>> 7) * 0x1b)

def mul3 (x : UInt8) : UInt8 := xtime x ^^^ x

def mul9 (x : UInt8) : UInt8 := xtime (xtime (xtime x)) ^^^ x

def mul11 (x : UInt8) : UInt8 := xtime (xtime (xtime x) ^^^ x) ^^^ x

def mul13 (x : UInt8) : UInt8 := xtime (xtime (xtime x ^^^ x)) ^^^ x

def mul14 (x : UInt8) : UInt8 := xtime (xtime (xtime x ^^^ x) ^^^ x)

def mixColumns : List UInt8 → List UInt8
  | a :: b :: c :: d :: rest =>
      (xtime a ^^^ mul3 b ^^^ c ^^^ d) :: (a ^^^ xtime b ^^^ mul3 c ^^^ d) ::
        (a ^^^ b ^^^ xtime c ^^^ mul3 d) :: (mul3 a ^^^ b ^^^ c ^^^ xtime d) :: mixColumns rest
  | _ => []

def invMixColumns : List UInt8 → List UInt8
  | a :: b :: c :: d :: rest =>
      (mul14 a ^^^ mul11 b ^^^ mul13 c ^^^ mul9 d) :: (mul9 a ^^^ mul14 b ^^^ mul11 c ^^^ mul13 d) ::
        (mul13 a ^^^ mul9 b ^^^ mul14 c ^^^ mul11 d) ::
        (mul11 a ^^^ mul13 b ^^^ mul9 c ^^^ mul14 d) :: invMixColumns rest
  | _ => []

theorem xtime_xor (x y : UInt8) : xtime (x ^^^ y) = xtime x ^^^ xtime y := by
  have hbit : ∀ x : UInt8, x >>> 7 = 0 ∨ x >>> 7 = 1 := of_byte (by decide +kernel)
  have hmul : ((x >>> 7) ^^^ (y >>> 7)) * (0x1b : UInt8) =
      ((x >>> 7) * (0x1b : UInt8)) ^^^ ((y >>> 7) * (0x1b : UInt8)) := by
    rcases hbit x with hx | hx <;> rcases hbit y with hy | hy <;> rw [hx, hy] <;> decide
  rw [xtime, UInt8.shiftLeft_xor, UInt8.shiftRight_xor, hmul, xtime, xtime]
  ac_rfl

theorem mul9_xor (x y : UInt8) : mul9 (x ^^^ y) = mul9 x ^^^ mul9 y := by
  simp only [mul9, xtime_xor]
  ac_rfl

theorem mul11_xor (x y : UInt8) : mul11 (x ^^^ y) = mul11 x ^^^ mul11 y := by
  simp only [mul11, xtime_xor]
  ac_rfl

theorem mul13_xor (x y : UInt8) : mul13 (x ^^^ y) = mul13 x ^^^ mul13 y := by
  simp only [mul13, xtime_xor]
  ac_rfl

theorem mul14_xor (x y : UInt8) : mul14 (x ^^^ y) = mul14 x ^^^ mul14 y := by
  simp only [mul14, xtime_xor]
  ac_rfl

/-- The first row of the inverse matrix undoes a column.  Both matrices are circulant, so the other
rows are this one on a rotated column. -/
theorem invMixRow (a b c d : UInt8) :
    mul14 (xtime a ^^^ mul3 b ^^^ c ^^^ d) ^^^ mul11 (a ^^^ xtime b ^^^ mul3 c ^^^ d) ^^^
      mul13 (a ^^^ b ^^^ xtime c ^^^ mul3 d) ^^^ mul9 (mul3 a ^^^ b ^^^ c ^^^ xtime d) = a := by
  have ha : ∀ a, mul14 (xtime a) ^^^ mul11 a ^^^ mul13 a ^^^ mul9 (mul3 a) = a :=
    of_byte (by decide +kernel)
  have hb : ∀ b, mul14 (mul3 b) ^^^ mul11 (xtime b) ^^^ mul13 b ^^^ mul9 b = 0 :=
    of_byte (by decide +kernel)
  have hc : ∀ c, mul14 c ^^^ mul11 (mul3 c) ^^^ mul13 (xtime c) ^^^ mul9 c = 0 :=
    of_byte (by decide +kernel)
  have hd : ∀ d, mul14 d ^^^ mul11 d ^^^ mul13 (mul3 d) ^^^ mul9 (xtime d) = 0 :=
    of_byte (by decide +kernel)
  simp only [mul9_xor, mul11_xor, mul13_xor, mul14_xor]
  calc
    _ = (mul14 (xtime a) ^^^ mul11 a ^^^ mul13 a ^^^ mul9 (mul3 a)) ^^^
        (mul14 (mul3 b) ^^^ mul11 (xtime b) ^^^ mul13 b ^^^ mul9 b) ^^^
        (mul14 c ^^^ mul11 (mul3 c) ^^^ mul13 (xtime c) ^^^ mul9 c) ^^^
        (mul14 d ^^^ mul11 d ^^^ mul13 (mul3 d) ^^^ mul9 (xtime d)) := by ac_rfl
    _ = a := by
        rw [ha, hb, hc, hd]
        simp

theorem invMixColumns_mixColumns : ∀ s : List UInt8, s.length % 4 = 0 →
    invMixColumns (mixColumns s) = s
  | [], _ => rfl
  | [_], h => by simp at h
  | [_, _], h => by simp at h
  | [_, _, _], h => by simp at h
  | a :: b :: c :: d :: rest, h => by
      have hrest : invMixColumns (mixColumns rest) = rest :=
        invMixColumns_mixColumns rest (by simp only [List.length_cons] at h; omega)
      rw [mixColumns, invMixColumns, hrest, List.cons.injEq, List.cons.injEq, List.cons.injEq,
        List.cons.injEq]
      refine ⟨invMixRow a b c d, ?_, ?_, ?_, rfl⟩
      · refine Eq.trans ?_ (invMixRow b c d a)
        ac_rfl
      · refine Eq.trans ?_ (invMixRow c d a b)
        ac_rfl
      · refine Eq.trans ?_ (invMixRow d a b c)
        ac_rfl

theorem mixColumns_length : ∀ s : List UInt8, s.length % 4 = 0 →
    (mixColumns s).length = s.length
  | [], _ => rfl
  | [_], h => by simp at h
  | [_, _], h => by simp at h
  | [_, _, _], h => by simp at h
  | a :: b :: c :: d :: rest, h => by
      have hrest : (mixColumns rest).length = rest.length :=
        mixColumns_length rest (by simp only [List.length_cons] at h; omega)
      simp only [mixColumns, List.length_cons, hrest]

/-! ## Rows -/

def permute (idx : List ℕ) (s : List UInt8) : List UInt8 := idx.map fun i => s.getD i 0

def shiftRows : List UInt8 → List UInt8 :=
  permute [0, 5, 10, 15, 4, 9, 14, 3, 8, 13, 2, 7, 12, 1, 6, 11]

def invShiftRows : List UInt8 → List UInt8 :=
  permute [0, 13, 10, 7, 4, 1, 14, 11, 8, 5, 2, 15, 12, 9, 6, 3]

theorem invShiftRows_shiftRows : ∀ s : List UInt8, s.length = 16 → invShiftRows (shiftRows s) = s
  | [_, _, _, _, _, _, _, _, _, _, _, _, _, _, _, _], _ => rfl

@[simp] theorem shiftRows_length (s : List UInt8) : (shiftRows s).length = 16 := rfl

/-! ## Key schedule -/

/-- The next round key; `rcon` is the constant of the round. -/
def nextRoundKey (rcon : UInt8) (k : List UInt8) : List UInt8 :=
  let at_ := fun i => k.getD i 0
  let t := [sbox (at_ 13) ^^^ rcon, sbox (at_ 14), sbox (at_ 15), sbox (at_ 12)]
  let w0 := xorWith t (k.take 4)
  let w1 := xorWith w0 ((k.drop 4).take 4)
  let w2 := xorWith w1 ((k.drop 8).take 4)
  w0 ++ w1 ++ w2 ++ xorWith w2 (k.drop 12)

/-- The round keys behind `k`, one for each constant. -/
def roundKeys : List UInt8 → List UInt8 → List (List UInt8)
  | _, [] => []
  | k, rcon :: rcons => nextRoundKey rcon k :: roundKeys (nextRoundKey rcon k) rcons

/-! ## Rounds -/

def encRound (k s : List UInt8) : List UInt8 :=
  xorWith k (mixColumns (shiftRows (s.map sbox)))

def decRound (k s : List UInt8) : List UInt8 :=
  (invShiftRows (invMixColumns (xorWith k s))).map invSbox

theorem map_invSbox_sbox (s : List UInt8) : (s.map sbox).map invSbox = s := by
  simp [Function.comp_def, invSbox_sbox]

theorem encRound_length (k s : List UInt8) : (encRound k s).length = 16 := by
  rw [encRound, xorWith_length, mixColumns_length _ (by simp), shiftRows_length]

theorem decRound_encRound (k : List UInt8) {s : List UInt8} (h : s.length = 16) :
    decRound k (encRound k s) = s := by
  rw [decRound, encRound, xorWith_xorWith, invMixColumns_mixColumns _ (by simp),
    invShiftRows_shiftRows _ (by simpa using h), map_invSbox_sbox]

def encRounds : List (List UInt8) → List UInt8 → List UInt8
  | [], s => s
  | k :: ks, s => encRounds ks (encRound k s)

def decRounds : List (List UInt8) → List UInt8 → List UInt8
  | [], s => s
  | k :: ks, s => decRound k (decRounds ks s)

theorem encRounds_length (ks : List (List UInt8)) {s : List UInt8} (h : s.length = 16) :
    (encRounds ks s).length = 16 := by
  induction ks generalizing s with
  | nil => exact h
  | cons k ks ih => exact ih (encRound_length k s)

theorem decRounds_encRounds (ks : List (List UInt8)) {s : List UInt8} (h : s.length = 16) :
    decRounds ks (encRounds ks s) = s := by
  induction ks generalizing s with
  | nil => rfl
  | cons k ks ih =>
      rw [encRounds, decRounds, ih (encRound_length k s), decRound_encRound k h]

def lastRound (k s : List UInt8) : List UInt8 := xorWith k (shiftRows (s.map sbox))

def invLastRound (k s : List UInt8) : List UInt8 := (invShiftRows (xorWith k s)).map invSbox

theorem invLastRound_lastRound (k : List UInt8) {s : List UInt8} (h : s.length = 16) :
    invLastRound k (lastRound k s) = s := by
  rw [invLastRound, lastRound, xorWith_xorWith, invShiftRows_shiftRows _ (by simpa using h),
    map_invSbox_sbox]

/-! ## The cipher -/

def middleKeys (key : List UInt8) : List (List UInt8) :=
  roundKeys key [0x01, 0x02, 0x04, 0x08, 0x10, 0x20, 0x40, 0x80, 0x1b]

def lastKey (key : List UInt8) : List UInt8 := nextRoundKey 0x36 ((middleKeys key).getLastD [])

def encrypt (key block : List UInt8) : List UInt8 :=
  lastRound (lastKey key) (encRounds (middleKeys key) (xorWith key block))

def decrypt (key block : List UInt8) : List UInt8 :=
  xorWith key (decRounds (middleKeys key) (invLastRound (lastKey key) block))

theorem encrypt_length (key block : List UInt8) : (encrypt key block).length = 16 := by
  rw [encrypt, lastRound, xorWith_length, shiftRows_length]

theorem decrypt_encrypt (key : List UInt8) {block : List UInt8} (h : block.length = 16) :
    decrypt key (encrypt key block) = block := by
  have hlen : (xorWith key block).length = 16 := by rw [xorWith_length, h]
  rw [decrypt, encrypt, invLastRound_lastRound _ (encRounds_length _ hlen),
    decRounds_encRounds _ hlen, xorWith_xorWith]

end Aes
end Lib
end SsrNative
