import Mathlib.Data.List.Basic
import Mathlib.Tactic.Common
import Mathlib.Tactic.Ring

/-!
# Hash — SHA-1, MD5, HMAC and Base64 on byte lists

Executable definitions of the standard functions.  Words are natural numbers below `2 ^ 32`.  The
only facts needed about them are the lengths of their results.
-/

namespace SsrNative
namespace Lib
namespace Hash

/-! ## Bytes -/

/-- A fact about bytes is checked on the 256 of them. -/
theorem of_byte {P : UInt8 → Prop} (h : ∀ n : Fin 256, P (UInt8.ofNat n)) (x : UInt8) : P x := by
  have hx := h ⟨x.toNat, x.toNat_lt⟩
  simpa only [UInt8.ofNat_toNat] using hx

/-! ## 32-bit words -/

def add32 (a b : ℕ) : ℕ := (a + b) % 4294967296

def not32 (a : ℕ) : ℕ := Nat.xor a 4294967295

def rotl32 (a n : ℕ) : ℕ := Nat.lor (a * 2 ^ n % 4294967296) (a / 2 ^ (32 - n))

def wordBE (b : List UInt8) : ℕ := b.foldl (fun acc x => acc * 256 + x.toNat) 0

def wordLE (b : List UInt8) : ℕ := b.foldr (fun x acc => acc * 256 + x.toNat) 0

def bytesBE (w : ℕ) : List UInt8 :=
  [UInt8.ofNat (w / 16777216), UInt8.ofNat (w / 65536), UInt8.ofNat (w / 256), UInt8.ofNat w]

def bytesLE (w : ℕ) : List UInt8 := (bytesBE w).reverse

@[simp] theorem bytesBE_length (w : ℕ) : (bytesBE w).length = 4 := rfl

@[simp] theorem bytesLE_length (w : ℕ) : (bytesLE w).length = 4 := by simp [bytesLE]

/-- Add a keystream to a text; missing keystream counts as zero. -/
def xorWith : List UInt8 → List UInt8 → List UInt8
  | _, [] => []
  | ks, x :: text => (x ^^^ ks.headD 0) :: xorWith ks.tail text

@[simp] theorem xorWith_length (ks text : List UInt8) : (xorWith ks text).length = text.length := by
  induction text generalizing ks with
  | nil => rfl
  | cons x text ih => simp [xorWith, ih]

theorem xorWith_xorWith (ks text : List UInt8) : xorWith ks (xorWith ks text) = text := by
  induction text generalizing ks with
  | nil => rfl
  | cons x text ih => simp [xorWith, ih, UInt8.xor_assoc]

/-- Cut a list into pieces of `n`; a shorter piece at the end is kept. -/
def chunks {α : Type} (n : ℕ) : ℕ → List α → List (List α)
  | 0, _ => []
  | _, [] => []
  | fuel + 1, l => l.take n :: chunks n fuel (l.drop n)

/-- The padding common to SHA-1 and MD5, with `len8` laying out the bit length. -/
def padded (len8 : ℕ → List UInt8) (msg : List UInt8) : List UInt8 :=
  msg ++ [0x80] ++ List.replicate ((119 - msg.length % 64) % 64) 0 ++ len8 (8 * msg.length)

/-- The five (SHA-1) or four (MD5) chaining words. -/
structure Words where
  a : ℕ
  b : ℕ
  c : ℕ
  d : ℕ
  e : ℕ

def Words.add (x y : Words) : Words :=
  ⟨add32 x.a y.a, add32 x.b y.b, add32 x.c y.c, add32 x.d y.d, add32 x.e y.e⟩

/-! ## SHA-1 -/

/-- The message schedule; `w` holds the last sixteen words. -/
def sha1Rounds : ℕ → ℕ → List ℕ → Words → Words
  | 0, _, _, s => s
  | n + 1, t, w, s =>
      let fk : ℕ × ℕ :=
        if t < 20 then
          (Nat.lor (Nat.land s.b s.c) (Nat.land (not32 s.b) s.d), 0x5a827999)
        else if t < 40 then (Nat.xor (Nat.xor s.b s.c) s.d, 0x6ed9eba1)
        else if t < 60 then
          (Nat.lor (Nat.lor (Nat.land s.b s.c) (Nat.land s.b s.d)) (Nat.land s.c s.d), 0x8f1bbcdc)
        else (Nat.xor (Nat.xor s.b s.c) s.d, 0xca62c1d6)
      let wt := w.headD 0
      let next := rotl32 (Nat.xor (Nat.xor (w.getD 13 0) (w.getD 8 0)) (Nat.xor (w.getD 2 0) wt)) 1
      let temp := (rotl32 s.a 5 + fk.1 + s.e + fk.2 + wt) % 4294967296
      sha1Rounds n (t + 1) (w.drop 1 ++ [next]) ⟨temp, s.a, rotl32 s.b 30, s.c, s.d⟩

def sha1Block (s : Words) (block : List UInt8) : Words :=
  s.add (sha1Rounds 80 0 ((chunks 4 16 block).map wordBE) s)

def sha1 (msg : List UInt8) : List UInt8 :=
  let p := padded (fun n => bytesBE (n / 4294967296) ++ bytesBE n) msg
  let s := (chunks 64 p.length p).foldl sha1Block
    ⟨0x67452301, 0xefcdab89, 0x98badcfe, 0x10325476, 0xc3d2e1f0⟩
  bytesBE s.a ++ bytesBE s.b ++ bytesBE s.c ++ bytesBE s.d ++ bytesBE s.e

@[simp] theorem sha1_length (msg : List UInt8) : (sha1 msg).length = 20 := by
  simp [sha1]

/-! ## MD5 -/

def md5Shifts : List ℕ := [7, 12, 17, 22, 5, 9, 14, 20, 4, 11, 16, 23, 6, 10, 15, 21]

def md5Consts : List ℕ :=
  [0xd76aa478, 0xe8c7b756, 0x242070db, 0xc1bdceee, 0xf57c0faf, 0x4787c62a, 0xa8304613, 0xfd469501,
    0x698098d8, 0x8b44f7af, 0xffff5bb1, 0x895cd7be, 0x6b901122, 0xfd987193, 0xa679438e, 0x49b40821,
    0xf61e2562, 0xc040b340, 0x265e5a51, 0xe9b6c7aa, 0xd62f105d, 0x02441453, 0xd8a1e681, 0xe7d3fbc8,
    0x21e1cde6, 0xc33707d6, 0xf4d50d87, 0x455a14ed, 0xa9e3e905, 0xfcefa3f8, 0x676f02d9, 0x8d2a4c8a,
    0xfffa3942, 0x8771f681, 0x6d9d6122, 0xfde5380c, 0xa4beea44, 0x4bdecfa9, 0xf6bb4b60, 0xbebfbc70,
    0x289b7ec6, 0xeaa127fa, 0xd4ef3085, 0x04881d05, 0xd9d4d039, 0xe6db99e5, 0x1fa27cf8, 0xc4ac5665,
    0xf4292244, 0x432aff97, 0xab9423a7, 0xfc93a039, 0x655b59c3, 0x8f0ccc92, 0xffeff47d, 0x85845dd1,
    0x6fa87e4f, 0xfe2ce6e0, 0xa3014314, 0x4e0811a1, 0xf7537e82, 0xbd3af235, 0x2ad7d2bb, 0xeb86d391]

def md5Rounds (w : List ℕ) : List ℕ → ℕ → Words → Words
  | [], _, s => s
  | k :: ks, i, s =>
      let fg : ℕ × ℕ :=
        if i < 16 then (Nat.lor (Nat.land s.b s.c) (Nat.land (not32 s.b) s.d), i)
        else if i < 32 then
          (Nat.lor (Nat.land s.d s.b) (Nat.land (not32 s.d) s.c), (5 * i + 1) % 16)
        else if i < 48 then (Nat.xor (Nat.xor s.b s.c) s.d, (3 * i + 5) % 16)
        else (Nat.xor s.c (Nat.lor s.b (not32 s.d)), 7 * i % 16)
      let sum := (s.a + fg.1 + k + w.getD fg.2 0) % 4294967296
      let b := add32 s.b (rotl32 sum (md5Shifts.getD (i / 16 * 4 + i % 4) 0))
      md5Rounds w ks (i + 1) ⟨s.d, b, s.b, s.c, 0⟩

def md5Block (s : Words) (block : List UInt8) : Words :=
  s.add (md5Rounds ((chunks 4 16 block).map wordLE) md5Consts 0 s)

def md5 (msg : List UInt8) : List UInt8 :=
  let p := padded (fun n => bytesLE n ++ bytesLE (n / 4294967296)) msg
  let s := (chunks 64 p.length p).foldl md5Block ⟨0x67452301, 0xefcdab89, 0x98badcfe, 0x10325476, 0⟩
  bytesLE s.a ++ bytesLE s.b ++ bytesLE s.c ++ bytesLE s.d

@[simp] theorem md5_length (msg : List UInt8) : (md5 msg).length = 16 := by
  simp [md5]

/-! ## HMAC -/

def xorAll (b : UInt8) (l : List UInt8) : List UInt8 := l.map (· ^^^ b)

/-- HMAC over a hash with 64-byte blocks. -/
def hmac (hash : List UInt8 → List UInt8) (msg key : List UInt8) : List UInt8 :=
  let k := if 64 < key.length then hash key else key
  let k := k ++ List.replicate (64 - k.length) 0
  hash (xorAll 0x5c k ++ hash (xorAll 0x36 k ++ msg))

theorem hmac_length {hash : List UInt8 → List UInt8} {n : ℕ} (h : ∀ m, (hash m).length = n)
    (msg key : List UInt8) : (hmac hash msg key).length = n := by
  simp [hmac, h]

/-! ## Base64 -/

/-- The Base64 letter of a six-bit value. -/
def base64Char (n : ℕ) : UInt8 :=
  if n < 26 then UInt8.ofNat (65 + n)
  else if n < 52 then UInt8.ofNat (71 + n)
  else if n < 62 then UInt8.ofNat (n - 4)
  else if n = 62 then 0x2b else 0x2f

/-- Base64 with padding. -/
def base64 : List UInt8 → List UInt8
  | [] => []
  | [x] =>
      [base64Char (x.toNat / 4), base64Char (x.toNat % 4 * 16), 0x3d, 0x3d]
  | [x, y] =>
      [base64Char (x.toNat / 4), base64Char (x.toNat % 4 * 16 + y.toNat / 16),
        base64Char (y.toNat % 16 * 4), 0x3d]
  | x :: y :: z :: rest =>
      [base64Char (x.toNat / 4), base64Char (x.toNat % 4 * 16 + y.toNat / 16),
        base64Char (y.toNat % 16 * 4 + z.toNat / 64), base64Char (z.toNat % 64)] ++ base64 rest

end Hash
end Lib
end SsrNative
