import SsrNative.Lib.Counter

/-!
# ByteOrder — numbers in the memory of a host

An unsigned number of a fixed width is laid out with its lowest byte first or last.  What a host lays out
it reads back, and the layout of the other order is the layout backwards.
-/

namespace SsrNative
namespace Lib
namespace ByteOrder

open Counter

/-- The value of bytes, the lowest first. -/
def leValue (bytes : List UInt8) : ℕ := bytes.foldr (fun x n => x.toNat + 256 * n) 0

theorem leValue_cons (x : UInt8) (bytes : List UInt8) : leValue (x :: bytes) = x.toNat + 256 * leValue bytes := rfl

@[simp] theorem leBytes_length (w n : ℕ) : (leBytes w n).length = w := by
  induction w generalizing n with
  | zero => rfl
  | succ w ih => exact congrArg (· + 1) (ih (n / 256))

theorem leValue_leBytes (w n : ℕ) : leValue (leBytes w n) = n % 256 ^ w := by
  induction w generalizing n with
  | zero => exact (Nat.mod_one n).symm
  | succ w ih =>
      calc leValue (leBytes (w + 1) n)
          = (UInt8.ofNat n).toNat + 256 * leValue (leBytes w (n / 256)) := rfl
        _ = n % 256 + 256 * (n / 256 % 256 ^ w) := by rw [ih, UInt8.toNat_ofNat']
        _ = n % 256 ^ (w + 1) := by rw [Nat.pow_succ', Nat.mod_mul]

theorem leBytes_leValue (bytes : List UInt8) : leBytes bytes.length (leValue bytes) = bytes := by
  induction bytes with
  | nil => rfl
  | cons x bytes ih =>
      have hx := x.toNat_lt
      have hlow : UInt8.ofNat (leValue (x :: bytes)) = x := by
        apply UInt8.toNat_inj.1
        rw [UInt8.toNat_ofNat', leValue_cons]
        omega
      have hhigh : leValue (x :: bytes) / 256 = leValue bytes := by
        rw [leValue_cons]
        omega
      rw [List.length_cons, leBytes, hlow, hhigh, ih]

/-- Which byte of a number comes first. -/
inductive Order where
  | little
  | big
  deriving DecidableEq

namespace Order

/-- The `w` lowest bytes of `n` in memory. -/
def lay (o : Order) (w n : ℕ) : List UInt8 :=
  match o with
  | little => leBytes w n
  | big => (leBytes w n).reverse

/-- The number in memory. -/
def value (o : Order) (bytes : List UInt8) : ℕ :=
  match o with
  | little => leValue bytes
  | big => leValue bytes.reverse

@[simp] theorem lay_length (o : Order) (w n : ℕ) : (o.lay w n).length = w := by
  cases o with
  | little => exact leBytes_length w n
  | big => simp [lay]

theorem value_lay (o : Order) (w n : ℕ) : o.value (o.lay w n) = n % 256 ^ w := by
  cases o with
  | little => exact leValue_leBytes w n
  | big => rw [value, lay, List.reverse_reverse, leValue_leBytes]

theorem lay_value (o : Order) (bytes : List UInt8) : o.lay bytes.length (o.value bytes) = bytes := by
  cases o with
  | little => exact leBytes_leValue bytes
  | big =>
      have hback := leBytes_leValue bytes.reverse
      rw [List.length_reverse] at hback
      rw [value, lay, hback, List.reverse_reverse]

theorem lay_value_of_length (o : Order) {bytes : List UInt8} {w : ℕ} (h : bytes.length = w) :
    o.lay w (o.value bytes) = bytes := by
  rw [← h, lay_value]

/-- Only zeros have the value zero. -/
theorem value_eq_zero_iff (o : Order) (bytes : List UInt8) :
    o.value bytes = 0 ↔ bytes = List.replicate bytes.length 0 := by
  have hzero : o.value (List.replicate bytes.length 0) = 0 := by
    have hlay : o.lay bytes.length 0 = List.replicate bytes.length 0 := by
      cases o with
      | little => exact leBytes_zero _
      | big => rw [lay, leBytes_zero, List.reverse_replicate]
    rw [← hlay, value_lay, Nat.zero_mod]
  constructor
  · intro h
    rw [← lay_value o bytes, h, ← hzero, lay_length, lay_value_of_length o List.length_replicate]
  · exact fun h => (congrArg o.value h).trans hzero

end Order

end ByteOrder
end Lib
end SsrNative
