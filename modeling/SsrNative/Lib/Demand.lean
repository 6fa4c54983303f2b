import Mathlib.Data.List.Basic
import Mathlib.Tactic.Common

/-!
# Demand — computations with the bounds that they rely on

A program that works on fixed arrays relies on numbers being small enough: an offset lies in front of
the end of what was received, a subtrahend is at most its minuend, what is written fits into an array.
A `Demanding` computation has a value, as the program computes it whether or not the bounds hold, and
the list of the bounds.  It is safe when they are all met (`Met`).

A `Region` is what a program has been given to read, with what stands in memory behind it.
-/

namespace SsrNative
namespace Lib
namespace Demand

variable {α β : Type}

/-! ## Computations -/

/-- A number that has to be at most another one. -/
structure Bound where
  need : ℕ
  given : ℕ
  deriving DecidableEq

/-- A value, and the bounds in the order in which they are relied on. -/
structure Demanding (α : Type) where
  value : α
  demands : List Bound

namespace Demanding

instance : Monad Demanding where
  pure a := ⟨a, []⟩
  bind x f := ⟨(f x.value).value, x.demands ++ (f x.value).demands⟩

/-- All bounds hold. -/
def Met (x : Demanding α) : Prop := ∀ b ∈ x.demands, b.need ≤ b.given

instance (x : Demanding α) : Decidable x.Met := by
  unfold Met
  infer_instance

/-- One bound. -/
def demand (need given : ℕ) : Demanding Unit := ⟨(), [⟨need, given⟩]⟩

/-- An assertion. -/
def require (p : Prop) [Decidable p] : Demanding Unit := demand (if p then 0 else 1) 0

@[simp] theorem value_pure (a : α) : (pure a : Demanding α).value = a := rfl

@[simp] theorem met_pure (a : α) : (pure a : Demanding α).Met := by
  intro b hb
  cases hb

@[simp] theorem value_bind (x : Demanding α) (f : α → Demanding β) :
    (x >>= f).value = (f x.value).value := rfl

/-- A sequence is safe when its parts are. -/
@[simp] theorem met_bind (x : Demanding α) (f : α → Demanding β) :
    (x >>= f).Met ↔ x.Met ∧ (f x.value).Met :=
  List.forall_mem_append

@[simp] theorem value_demand (need given : ℕ) : (demand need given).value = () := rfl

@[simp] theorem met_demand (need given : ℕ) : (demand need given).Met ↔ need ≤ given := by
  simp [Met, demand]

@[simp] theorem met_require (p : Prop) [Decidable p] : (require p).Met ↔ p := by
  by_cases h : p
  · simp [require, h]
  · simp [require, h]

@[simp] theorem value_ite (c : Prop) [Decidable c] (x y : Demanding α) :
    (if c then x else y).value = if c then x.value else y.value :=
  apply_ite value c x y

theorem met_ite (c : Prop) [Decidable c] (x y : Demanding α) :
    (if c then x else y).Met ↔ if c then x.Met else y.Met := by
  by_cases h : c
  · simp only [h, if_true]
  · simp only [h, if_false]

/-- The bounds hold, and the value is `a`. -/
def Yields (x : Demanding α) (a : α) : Prop := x.Met ∧ x.value = a

theorem yields_pure (a b : α) : (pure a : Demanding α).Yields b ↔ a = b :=
  and_iff_right (met_pure a)

theorem Yields.unique {x : Demanding α} {a b : α} (ha : x.Yields a) (hb : x.Yields b) : a = b :=
  ha.2.symm.trans hb.2

theorem demand_yields {need given : ℕ} (h : need ≤ given) : (demand need given).Yields () :=
  ⟨(met_demand need given).2 h, rfl⟩

/-- What a part yields is handed on. -/
theorem Yields.bind {x : Demanding α} {a : α} (h : x.Yields a) (f : α → Demanding β) (b : β) :
    (x >>= f).Yields b ↔ (f a).Yields b := by
  rcases h with ⟨hmet, rfl⟩
  rw [Yields, Yields, met_bind, value_bind]
  exact and_congr_left fun _ => and_iff_right hmet

theorem Yields.value_bind {x : Demanding α} {a : α} (h : x.Yields a) (f : α → Demanding β) :
    (x >>= f).value = (f a).value := congrArg (fun a => (f a).value) h.2

theorem Yields.met_bind {x : Demanding α} {a : α} (h : x.Yields a) (f : α → Demanding β) :
    (x >>= f).Met ↔ (f a).Met := by
  rcases h with ⟨hmet, rfl⟩
  rw [Demanding.met_bind]
  exact and_iff_right hmet

/-! ### Steps along a list -/

theorem lawfulMonad : LawfulMonad Demanding :=
  LawfulMonad.mk' Demanding (fun x => congrArg (Demanding.mk x.value) (List.append_nil x.demands))
    (fun _ _ => rfl) fun x _ _ => congrArg (Demanding.mk _) (List.append_assoc x.demands _ _)

theorem foldlM_append (step : β → α → Demanding β) (b : β) (l l' : List α) :
    (l ++ l').foldlM step b = l.foldlM step b >>= l'.foldlM step := by
  have hlawful := lawfulMonad
  exact List.foldlM_append

theorem foldlM_singleton (step : β → α → Demanding β) (b : β) (a : α) : [a].foldlM step b = step b a := by
  have hlawful := lawfulMonad
  rw [List.foldlM_cons]
  exact bind_pure (step b a)

end Demanding

/-! ## Regions -/

/-- Bytes, or other cells, and what stands behind them. -/
structure Region (α : Type) where
  cells : List α
  beyond : ℕ → α

namespace Region

open Demanding

variable (r : Region α)

/-- The cell at `i`, behind the end if need be. -/
def get (i : ℕ) : α := r.cells.getD i (r.beyond (i - r.cells.length))

/-- The `n` cells from `off` on. -/
def slice (off n : ℕ) : List α := (List.range n).map fun i => r.get (off + i)

/-- Read the cell at `i`. -/
def read (i : ℕ) : Demanding α := do
  demand (i + 1) r.cells.length
  return r.get i

/-- Read `n` cells from `off` on. -/
def readSlice (off n : ℕ) : Demanding (List α) := do
  demand (off + n) r.cells.length
  return r.slice off n

@[simp] theorem value_read (i : ℕ) : (r.read i).value = r.get i := rfl

@[simp] theorem met_read (i : ℕ) : (r.read i).Met ↔ i < r.cells.length := by
  simp [read, Nat.succ_le_iff]

@[simp] theorem value_readSlice (off n : ℕ) : (r.readSlice off n).value = r.slice off n := rfl

@[simp] theorem met_readSlice (off n : ℕ) : (r.readSlice off n).Met ↔ off + n ≤ r.cells.length := by
  simp [readSlice]

@[simp] theorem slice_length (off n : ℕ) : (r.slice off n).length = n := by
  simp [slice]

variable {r}

theorem get_of_lt {i : ℕ} (h : i < r.cells.length) : r.get i = r.cells[i] := by
  rw [get, List.getD_eq_getElem?_getD, List.getElem?_eq_getElem h, Option.getD_some]

theorem read_yields {i : ℕ} (h : i < r.cells.length) : (r.read i).Yields r.cells[i] :=
  ⟨(r.met_read i).2 h, get_of_lt h⟩

/-- The next cell, and what stands behind it. -/
theorem read_of_drop {i : ℕ} {x : α} {l : List α} (h : r.cells.drop i = x :: l) :
    (r.read i).Yields x ∧ r.cells.drop (i + 1) = l := by
  have hlt : i < r.cells.length := by
    by_contra hge
    rw [List.drop_of_length_le (Nat.not_lt.1 hge)] at h
    cases h
  have hcons := List.drop_eq_getElem_cons hlt
  rw [h, List.cons.injEq] at hcons
  refine ⟨?_, hcons.2.symm⟩
  rw [hcons.1]
  exact read_yields hlt

theorem slice_of_le {off n : ℕ} (h : off + n ≤ r.cells.length) :
    r.slice off n = (r.cells.drop off).take n := by
  apply List.ext_getElem
  · rw [slice_length, List.length_take, List.length_drop]
    exact (Nat.min_eq_left (Nat.le_sub_of_add_le' h)).symm
  · intro i hi hi'
    rw [slice_length] at hi
    have hlt : off + i < r.cells.length := Nat.lt_of_lt_of_le (Nat.add_lt_add_left hi off) h
    simp [slice, get_of_lt hlt]

end Region

end Demand
end Lib
end SsrNative
