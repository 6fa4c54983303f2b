import Mathlib.Data.List.Basic
import Mathlib.Tactic.Common
import SsrNative.Lib.Hash

/-!
# ChaCha20Poly1305 — the IETF construction on byte lists, without associated data

An executable definition of the standard authenticated cipher.  Opening recomputes the tag and
applies the keystream a second time, so it undoes sealing (`openBox_sealBox`).
-/

namespace SsrNative
namespace Lib
namespace ChaCha20Poly1305

open Hash

/-! ## Keystream -/

def xor32 (a b : ℕ) : ℕ := Nat.xor a b

/-- Sixteen words as a list. -/
abbrev Block := List ℕ

def quarterRound (s : Block) (a b c d : ℕ) : Block :=
  let at_ := fun (s : Block) i => s.getD i 0
  let s := s.set a (add32 (at_ s a) (at_ s b))
  let s := s.set d (rotl32 (xor32 (at_ s d) (at_ s a)) 16)
  let s := s.set c (add32 (at_ s c) (at_ s d))
  let s := s.set b (rotl32 (xor32 (at_ s b) (at_ s c)) 12)
  let s := s.set a (add32 (at_ s a) (at_ s b))
  let s := s.set d (rotl32 (xor32 (at_ s d) (at_ s a)) 8)
  let s := s.set c (add32 (at_ s c) (at_ s d))
  s.set b (rotl32 (xor32 (at_ s b) (at_ s c)) 7)

/-- Four column rounds and four diagonal rounds. -/
def doubleRound (s : Block) : Block :=
  let s := quarterRound s 0 4 8 12
  let s := quarterRound s 1 5 9 13
  let s := quarterRound s 2 6 10 14
  let s := quarterRound s 3 7 11 15
  let s := quarterRound s 0 5 10 15
  let s := quarterRound s 1 6 11 12
  let s := quarterRound s 2 7 8 13
  quarterRound s 3 4 9 14

def initBlock (key nonce : List UInt8) (counter : ℕ) : Block :=
  [0x61707865, 0x3320646e, 0x79622d32, 0x6b206574] ++ (chunks 4 8 key).map wordLE ++
    [counter % 4294967296] ++ (chunks 4 3 nonce).map wordLE

def block (key nonce : List UInt8) (counter : ℕ) : List UInt8 :=
  let s := initBlock key nonce counter
  (s.zipWith add32 (Nat.repeat doubleRound 10 s)).flatMap bytesLE

/-- The blocks that cover `n` bytes; block zero is kept for the tag. -/
def keystream (key nonce : List UInt8) (n : ℕ) : List UInt8 :=
  (List.range ((n + 63) / 64)).flatMap fun i => block key nonce (1 + i)

def crypt (key nonce text : List UInt8) : List UInt8 :=
  xorWith (keystream key nonce text.length) text

@[simp] theorem crypt_length (key nonce text : List UInt8) :
    (crypt key nonce text).length = text.length := by
  simp [crypt]

theorem crypt_crypt (key nonce text : List UInt8) :
    crypt key nonce (crypt key nonce text) = text := by
  rw [crypt, crypt_length]
  exact xorWith_xorWith _ _

/-! ## Tag -/

def prime1305 : ℕ := 2 ^ 130 - 5

def clampMask : ℕ := 0x0ffffffc0ffffffc0ffffffc0fffffff

def poly1305 (key msg : List UInt8) : List UInt8 :=
  let r := Nat.land (wordLE (key.take 16)) clampMask
  let acc := (chunks 16 msg.length msg).foldl
    (fun acc b => (acc + wordLE b + 256 ^ b.length) * r % prime1305) 0
  let t := acc + wordLE ((key.drop 16).take 16)
  (List.range 16).map fun i => UInt8.ofNat (t / 256 ^ i)

@[simp] theorem poly1305_length (key msg : List UInt8) : (poly1305 key msg).length = 16 := by
  simp [poly1305]

def tag (key nonce text : List UInt8) : List UInt8 :=
  let len8 := fun n : ℕ => bytesLE n ++ bytesLE (n / 4294967296)
  poly1305 ((block key nonce 0).take 32)
    (text ++ List.replicate ((16 - text.length % 16) % 16) 0 ++ len8 0 ++ len8 text.length)

@[simp] theorem tag_length (key nonce text : List UInt8) : (tag key nonce text).length = 16 := by
  simp [tag]

/-! ## Sealing and opening -/

def sealBox (key nonce text : List UInt8) : List UInt8 :=
  crypt key nonce text ++ tag key nonce (crypt key nonce text)

def openBox (key nonce box : List UInt8) : Option (List UInt8) :=
  let text := box.take (box.length - 16)
  if box.drop (box.length - 16) = tag key nonce text then some (crypt key nonce text) else none

@[simp] theorem sealBox_length (key nonce text : List UInt8) :
    (sealBox key nonce text).length = text.length + 16 := by
  simp [sealBox]

theorem openBox_sealBox (key nonce text : List UInt8) :
    openBox key nonce (sealBox key nonce text) = some text := by
  have hlen : (sealBox key nonce text).length - 16 = (crypt key nonce text).length := by simp
  rw [openBox, hlen, sealBox, List.take_left, List.drop_left]
  simp [crypt_crypt]

/-- Only what was sealed can be opened. -/
theorem sealBox_of_openBox {key nonce box text : List UInt8} (h : openBox key nonce box = some text) :
    box = sealBox key nonce text := by
  simp only [openBox] at h
  split_ifs at h with htag
  cases h
  calc box = box.take (box.length - 16) ++ box.drop (box.length - 16) :=
        (List.take_append_drop _ _).symm
    _ = sealBox key nonce (crypt key nonce (box.take (box.length - 16))) := by
        rw [htag, sealBox, crypt_crypt]

end ChaCha20Poly1305
end Lib
end SsrNative
