import Mathlib.Data.List.Basic
import Mathlib.Tactic.Common

/-!
# KeyStream — xor with a keystream that is addressed by position

A stream cipher xors the byte at position `p` of its input with `ks p`.  `xorAt` does so for a chunk
that starts anywhere, and `xorCalls` for chunks that are handled one after the other by a cipher
whose position counter wraps around at `limit`.
-/

namespace SsrNative
namespace Lib
namespace KeyStream

/-- Xor a chunk that starts at position `p`. -/
def xorAt (ks : ℕ → UInt8) : ℕ → List UInt8 → List UInt8
  | _, [] => []
  | p, b :: bs => (b ^^^ ks p) :: xorAt ks (p + 1) bs

variable {ks : ℕ → UInt8} {limit : ℕ}

@[simp] theorem xorAt_nil (ks : ℕ → UInt8) (p : ℕ) : xorAt ks p [] = [] := rfl

@[simp] theorem length_xorAt (ks : ℕ → UInt8) (p : ℕ) (bs : List UInt8) :
    (xorAt ks p bs).length = bs.length := by
  induction bs generalizing p with
  | nil => rfl
  | cons b bs ih => simp [xorAt, ih]

theorem xorAt_append (ks : ℕ → UInt8) (p : ℕ) (as bs : List UInt8) :
    xorAt ks p (as ++ bs) = xorAt ks p as ++ xorAt ks (p + as.length) bs := by
  induction as generalizing p with
  | nil => rfl
  | cons a as ih => simp [xorAt, ih, Nat.add_assoc, Nat.add_comm 1]

/-- Xoring twice at the same position gives the chunk back. -/
theorem xorAt_xorAt (ks : ℕ → UInt8) (p : ℕ) (bs : List UInt8) :
    xorAt ks p (xorAt ks p bs) = bs := by
  induction bs generalizing p with
  | nil => rfl
  | cons b bs ih => simp [xorAt, ih, UInt8.xor_assoc]

/-- Bytes in front of a chunk only move it to its position. -/
theorem drop_xorAt_append (ks : ℕ → UInt8) (p : ℕ) (as bs : List UInt8) :
    (xorAt ks p (as ++ bs)).drop as.length = xorAt ks (p + as.length) bs := by
  rw [xorAt_append, List.drop_left' (length_xorAt ks p as)]

/-! ## Chunks handled one after the other -/

/-- Every call that carries bytes starts below `limit`; `p` bytes come before the first one. -/
def StartsBelow (limit : ℕ) : ℕ → List ℕ → Prop
  | _, [] => True
  | p, n :: ns => (0 < n → p < limit) ∧ StartsBelow limit (p + n) ns

instance decidableStartsBelow (limit : ℕ) :
    ∀ (p : ℕ) (ns : List ℕ), Decidable (StartsBelow limit p ns)
  | _, [] => .isTrue trivial
  | p, n :: ns =>
      haveI := decidableStartsBelow limit (p + n) ns
      inferInstanceAs (Decidable ((0 < n → p < limit) ∧ StartsBelow limit (p + n) ns))

/-- Chunks xored one after the other, each from its position modulo `limit`. -/
def xorCalls (ks : ℕ → UInt8) (limit : ℕ) : ℕ → List (List UInt8) → List UInt8
  | _, [] => []
  | p, c :: cs => xorAt ks (p % limit) c ++ xorCalls ks limit (p + c.length) cs

/-- Calls that start below the limit use one continuous keystream. -/
theorem xorCalls_eq {p : ℕ} {cs : List (List UInt8)}
    (h : StartsBelow limit p (cs.map List.length)) : xorCalls ks limit p cs = xorAt ks p cs.flatten := by
  induction cs generalizing p with
  | nil => rfl
  | cons c cs ih =>
      obtain ⟨hc, hcs⟩ := h
      have hhead : xorAt ks (p % limit) c = xorAt ks p c := by
        cases c with
        | nil => rfl
        | cons b bs => rw [Nat.mod_eq_of_lt (hc (Nat.zero_lt_succ _))]
      rw [xorCalls, ih hcs, hhead, List.flatten_cons, xorAt_append]

/-- A keystream that tells positions from `limit` on from those below. -/
def jump (limit p : ℕ) : UInt8 := if p < limit then 0 else 1

/-- With that keystream a call beyond the limit shows. -/
theorem startsBelow_of_xorCalls_eq (hlimit : 0 < limit) {p : ℕ} {cs : List (List UInt8)}
    (h : xorCalls (jump limit) limit p cs = xorAt (jump limit) p cs.flatten) :
    StartsBelow limit p (cs.map List.length) := by
  induction cs generalizing p with
  | nil => trivial
  | cons c cs ih =>
      rw [xorCalls, List.flatten_cons, xorAt_append] at h
      obtain ⟨hc, hcs⟩ := List.append_inj h (by simp)
      refine ⟨?_, ih hcs⟩
      intro hpos
      cases c with
      | nil => simp at hpos
      | cons b bs =>
          by_contra hge
          simp only [xorAt, List.cons.injEq, jump, Nat.mod_lt p hlimit, if_true, hge, if_false] at hc
          have hone : (0 : UInt8) = 1 := (UInt8.xor_right_inj b).1 hc.1
          exact absurd hone (by decide)

end KeyStream
end Lib
end SsrNative
