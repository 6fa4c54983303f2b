import Mathlib.Data.List.Basic
import Mathlib.Tactic.Common

/-!
# Rc4 — the RC4 keystream

The state is the permutation of the 256 byte values with the two indices.  Encryption and
decryption are the same exclusive or with the keystream.
-/

namespace SsrNative
namespace Lib
namespace Rc4

structure State where
  perm : List ℕ
  i : ℕ
  j : ℕ

/-- Exchange two entries. -/
def swap (s : List ℕ) (i j : ℕ) : List ℕ := (s.set i (s.getD j 0)).set j (s.getD i 0)

/-- The key schedule, for the indices still to be done. -/
def schedule (key : List UInt8) : List ℕ → List ℕ → ℕ → List ℕ
  | [], s, _ => s
  | i :: is, s, j =>
      let j := (j + s.getD i 0 + (key.getD (i % key.length) 0).toNat) % 256
      schedule key is (swap s i j) j

def setKey (key : List UInt8) : State := ⟨schedule key (List.range 256) (List.range 256) 0, 0, 0⟩

/-- The next keystream byte. -/
def next (s : State) : State × UInt8 :=
  let i := (s.i + 1) % 256
  let j := (s.j + s.perm.getD i 0) % 256
  let perm := swap s.perm i j
  (⟨perm, i, j⟩, UInt8.ofNat (perm.getD ((perm.getD i 0 + perm.getD j 0) % 256) 0))

def crypt (s : State) (x : UInt8) : State × UInt8 := ((next s).1, x ^^^ (next s).2)

theorem crypt_crypt (s : State) (x : UInt8) : crypt s (crypt s x).2 = ((crypt s x).1, x) := by
  simp [crypt, UInt8.xor_assoc]

end Rc4
end Lib
end SsrNative
