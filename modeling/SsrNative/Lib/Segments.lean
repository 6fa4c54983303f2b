import Mathlib.Data.List.Basic
import Mathlib.Tactic.Common

/-!
# Segments — runs of a stateful call over the pieces of a stream

A stream of items is delivered in pieces, and one call consumes each piece.  This module has the
run itself (`run`), conditions on where the pieces start and end (`Spans`) and conditions on the
number of items still to come after each piece (`CutsOk`).  The second form counts from the end of
the stream, because that number does not change when a reader drops items from the front of what
it has carried over.
-/

namespace SsrNative
namespace Lib
namespace Segments

universe u v w

variable {σ : Type u} {ι : Type v} {ο : Type w}

/-! ## Runs -/

/-- Call `f` on each input in turn, threading the state and collecting the results. -/
def run (f : σ → ι → σ × ο) : σ → List ι → σ × List ο
  | s, [] => (s, [])
  | s, i :: is =>
      let r := f s i
      let q := run f r.1 is
      (q.1, r.2 :: q.2)

@[simp] theorem run_nil (f : σ → ι → σ × ο) (s : σ) : run f s [] = (s, []) := rfl

theorem run_cons (f : σ → ι → σ × ο) (s : σ) (i : ι) (is : List ι) :
    run f s (i :: is) = ((run f (f s i).1 is).1, (f s i).2 :: (run f (f s i).1 is).2) := rfl

theorem run_append (f : σ → ι → σ × ο) (s : σ) (is js : List ι) :
    run f s (is ++ js) =
      ((run f (run f s is).1 js).1, (run f s is).2 ++ (run f (run f s is).1 js).2) := by
  induction is generalizing s with
  | nil => simp
  | cons i is ih => simp [run_cons, ih]

theorem run_snd_length (f : σ → ι → σ × ο) (s : σ) (is : List ι) :
    (run f s is).2.length = is.length := by
  induction is generalizing s with
  | nil => rfl
  | cons i is ih => simp [run_cons, ih]

/-- An invariant of every call is an invariant of the run. -/
theorem run_invariant {f : σ → ι → σ × ο} {P : σ → Prop}
    (hstep : ∀ s i, P s → P (f s i).1) {s : σ} (hs : P s) (is : List ι) :
    P (run f s is).1 := by
  induction is generalizing s with
  | nil => exact hs
  | cons i is ih => exact ih (hstep s i hs)

/-- Two calls whose states stay related and whose results correspond do so over every run. -/
theorem run_sim {τ : Type*} {ο' : Type*} {f : σ → ι → σ × ο} {g : τ → ι → τ × ο'}
    (R : σ → τ → Prop) (out : ο' → ο) {is : List ι}
    (hstep : ∀ s t, ∀ i ∈ is, R s t → R (f s i).1 (g t i).1 ∧ (f s i).2 = out (g t i).2)
    {s : σ} {t : τ} (h : R s t) :
    R (run f s is).1 (run g t is).1 ∧ (run f s is).2 = (run g t is).2.map out := by
  induction is generalizing s t with
  | nil => exact ⟨h, rfl⟩
  | cons i is ih =>
      have hi := hstep s t i (by simp) h
      have hrec := ih (fun s t j hj => hstep s t j (List.mem_cons_of_mem _ hj)) hi.1
      simp only [run_cons, List.map_cons, hi.2]
      exact ⟨hrec.1, by rw [hrec.2]⟩

/-- The same call, reporting the state it leaves beside its result. -/
def observe (f : σ → ι → σ × ο) (s : σ) (i : ι) : σ × σ × ο := ((f s i).1, f s i)

@[simp] theorem observe_fst (f : σ → ι → σ × ο) (s : σ) (i : ι) :
    (observe f s i).1 = (f s i).1 := rfl

@[simp] theorem observe_snd (f : σ → ι → σ × ο) (s : σ) (i : ι) :
    (observe f s i).2 = f s i := rfl

/-! ## What the calls returned -/

variable {α : Type u}

/-- The items returned by a sequence of calls, some of which may have failed. -/
def delivered (outs : List (Option (List α))) : List α := outs.flatMap fun o => o.getD []

@[simp] theorem delivered_nil : delivered ([] : List (Option (List α))) = [] := rfl

@[simp] theorem delivered_cons (o : Option (List α)) (outs : List (Option (List α))) :
    delivered (o :: outs) = o.getD [] ++ delivered outs := rfl

theorem delivered_append (outs outs' : List (Option (List α))) :
    delivered (outs ++ outs') = delivered outs ++ delivered outs' := List.flatMap_append

@[simp] theorem delivered_map_some {β : Type*} (f : β → List α) (outs : List β) :
    delivered (outs.map fun o => some (f o)) = (outs.map f).flatten := by
  induction outs with
  | nil => rfl
  | cons o outs ih => simp [ih]

/-- What a call returns: items, an error, or nothing at all because it does not come back. -/
inductive Returned (α : Type u) where
  | out (items : List α)
  | error
  | crash

/-- The items of a call that reports no error. -/
def Returned.items? : Returned α → Option (List α)
  | .out items => some items
  | .error => none
  | .crash => none

/-- `P` holds of the state and the input at every call of a run. -/
def Along (P : σ → ι → Prop) (f : σ → ι → σ × ο) : σ → List ι → Prop
  | _, [] => True
  | s, i :: is => P s i ∧ Along P f (f s i).1 is

/-- Two functions that agree on the calls of a run give the same run. -/
theorem run_congr {P : σ → ι → Prop} {f g : σ → ι → σ × ο} (heq : ∀ s i, P s i → f s i = g s i)
    {s : σ} {is : List ι} (h : Along P f s is) : run f s is = run g s is := by
  induction is generalizing s with
  | nil => rfl
  | cons i is ih =>
      rw [run_cons, run_cons, ← heq s i h.1, ih h.2]

theorem along_congr {P : σ → ι → Prop} {f g : σ → ι → σ × ο} (heq : ∀ s i, P s i → f s i = g s i)
    {s : σ} {is : List ι} (h : Along P f s is) : Along P g s is := by
  induction is generalizing s with
  | nil => trivial
  | cons i is ih => exact ⟨h.1, heq s i h.1 ▸ ih h.2⟩

theorem Along.imp {P Q : σ → ι → Prop} {f : σ → ι → σ × ο} {s : σ} {is : List ι}
    (h : Along P f s is) (himp : ∀ s, ∀ i ∈ is, P s i → Q s i) : Along Q f s is := by
  induction is generalizing s with
  | nil => trivial
  | cons i is ih =>
      refine ⟨himp s i (by simp) h.1, ih h.2 ?_⟩
      exact fun t j hj => himp t j (List.mem_cons_of_mem _ hj)

/-- What an invariant says of every call holds along the run. -/
theorem along_of_invariant {P : σ → Prop} {Q : σ → ι → Prop} {f : σ → ι → σ × ο}
    (hstep : ∀ s i, P s → P (f s i).1) (hQ : ∀ s i, P s → Q s i) {s : σ} (hs : P s) (is : List ι) :
    Along Q f s is := by
  induction is generalizing s with
  | nil => trivial
  | cons i is ih => exact ⟨hQ s i hs, ih (hstep s i hs)⟩

/-- Conditions that hold of the same calls hold along the same runs. -/
theorem along_iff {P Q : σ → ι → Prop} {f : σ → ι → σ × ο} (h : ∀ s i, P s i ↔ Q s i) (s : σ)
    (is : List ι) : Along P f s is ↔ Along Q f s is :=
  ⟨fun hP => hP.imp fun t i _ => (h t i).1, fun hQ => hQ.imp fun t i _ => (h t i).2⟩

/-! ## Calls that may fail -/

/-- A run of calls that may fail: it has no result as soon as one of them has none. -/
def runChecked (f : σ → ι → Option (σ × ο)) : σ → List ι → Option (σ × List ο)
  | s, [] => some (s, [])
  | s, i :: is => do
      let r ← f s i
      let q ← runChecked f r.1 is
      return (q.1, r.2 :: q.2)

section Checked

variable {f : σ → ι → Option (σ × ο)} {g : σ → ι → σ × ο}

theorem runChecked_cons (f : σ → ι → Option (σ × ο)) (s : σ) (i : ι) (is : List ι) :
    runChecked f s (i :: is) =
      (f s i).bind fun r => (runChecked f r.1 is).bind fun q => some (q.1, r.2 :: q.2) := rfl

theorem runChecked_cons_none {s : σ} {i : ι} (h : f s i = none) (is : List ι) :
    runChecked f s (i :: is) = none := by
  rw [runChecked_cons, h]
  rfl

theorem isSome_runChecked_cons {s : σ} {i : ι} {r : σ × ο} (h : f s i = some r) (is : List ι) :
    (runChecked f s (i :: is)).isSome = true ↔ (runChecked f r.1 is).isSome = true := by
  rw [runChecked_cons, h, Option.bind_some]
  cases runChecked f r.1 is <;> rfl

/-- Calls that have the results of `g`, one after the other. -/
theorem runChecked_of_along {P : σ → ι → Prop} (h : ∀ s i, P s i → f s i = some (g s i)) {s : σ} {is : List ι}
    (hall : Along P g s is) : runChecked f s is = some (run g s is) := by
  induction is generalizing s with
  | nil => rfl
  | cons i is ih =>
      rw [runChecked_cons, h s i hall.1, Option.bind_some, ih hall.2]
      rfl

/-- What a call with a result meets is met along a run with a result. -/
theorem along_of_runChecked {P Q : σ → ι → Prop} (h : ∀ s i r, Q s i → f s i = some r → P s i ∧ r = g s i)
    {s : σ} {is : List ι} (hQ : Along Q g s is) (hsome : (runChecked f s is).isSome = true) : Along P g s is := by
  induction is generalizing s with
  | nil => trivial
  | cons i is ih =>
      rcases hcall : f s i with _ | r
      · rw [runChecked_cons_none hcall] at hsome
        cases hsome
      · obtain ⟨hP, rfl⟩ := h s i r hQ.1 hcall
        rw [isSome_runChecked_cons hcall] at hsome
        exact ⟨hP, ih hQ.2 hsome⟩

/-- A run of guarded calls has a result exactly when every call passes its guard. -/
theorem runChecked_eq_some_iff {P : σ → ι → Prop} [∀ s i, Decidable (P s i)]
    (h : ∀ s i, f s i = if P s i then some (g s i) else none) {s : σ} {is : List ι} {r : σ × List ο} :
    runChecked f s is = some r ↔ Along P g s is ∧ run g s is = r := by
  have hpass : ∀ s i, P s i → f s i = some (g s i) := fun s i hP => by rw [h, if_pos hP]
  have hback : ∀ s i r, True → f s i = some r → P s i ∧ r = g s i := by
    intro s i r _ hr
    rw [h] at hr
    split_ifs at hr with hP
    exact ⟨hP, (Option.some.inj hr).symm⟩
  constructor
  · intro hrun
    have hsome : (runChecked f s is).isSome = true := Option.isSome_iff_exists.2 ⟨r, hrun⟩
    have halong := along_of_runChecked hback (along_of_invariant (P := fun _ => True)
      (fun _ _ _ => trivial) (fun _ _ _ => trivial) trivial is) hsome
    rw [runChecked_of_along hpass halong, Option.some.injEq] at hrun
    exact ⟨halong, hrun⟩
  · rintro ⟨halong, rfl⟩
    exact runChecked_of_along hpass halong

/-- From a state that every call keeps, each call answers for itself. -/
theorem runChecked_of_kept {s : σ} {answer : ι → ο} (h : ∀ i, f s i = some (s, answer i)) (is : List ι) :
    runChecked f s is = some (s, is.map answer) := by
  induction is with
  | nil => rfl
  | cons i is ih =>
      rw [runChecked_cons, h, Option.bind_some, ih]
      rfl

end Checked

/-! ## Cuts of a stream -/

/-- Non-empty pieces of nothing: there are none. -/
theorem eq_nil_of_flatten_eq_nil {segs : List (List α)} (hne : ∀ s ∈ segs, s ≠ [])
    (h : segs.flatten = []) : segs = [] := by
  cases segs with
  | nil => rfl
  | cons s ss =>
      have hs : s = [] := by
        simp only [List.flatten_cons, List.append_eq_nil_iff] at h
        exact h.1
      exact absurd hs (hne s (by simp))

/-- Every piece, from the position where it starts to the position where it ends, satisfies `P`;
the first piece starts at position `b`. -/
def Spans (P : ℕ → ℕ → Prop) : ℕ → List (List α) → Prop
  | _, [] => True
  | b, s :: ss => P b (b + s.length) ∧ Spans P (b + s.length) ss

@[simp] theorem spans_nil (P : ℕ → ℕ → Prop) (b : ℕ) : Spans P b ([] : List (List α)) := trivial

@[simp] theorem spans_cons (P : ℕ → ℕ → Prop) (b : ℕ) (s : List α) (ss : List (List α)) :
    Spans P b (s :: ss) ↔ P b (b + s.length) ∧ Spans P (b + s.length) ss := Iff.rfl

instance decidableSpans (P : ℕ → ℕ → Prop) [∀ b e, Decidable (P b e)] :
    ∀ (b : ℕ) (segs : List (List α)), Decidable (Spans P b segs)
  | _, [] => .isTrue trivial
  | b, s :: ss =>
      haveI := decidableSpans P (b + s.length) ss
      inferInstanceAs (Decidable (P b (b + s.length) ∧ Spans P (b + s.length) ss))

/-- From position `n` on, a condition that later ends always meet. -/
theorem spans_of_le {P : ℕ → ℕ → Prop} {n b : ℕ} (h : ∀ b e, n ≤ e → P b e) (hb : n ≤ b)
    (segs : List (List α)) : Spans P b segs := by
  induction segs generalizing b with
  | nil => trivial
  | cons s ss ih => exact ⟨h _ _ (by omega), ih (by omega)⟩

theorem Spans.mono {P Q : ℕ → ℕ → Prop} (h : ∀ b e, P b e → Q b e) {b : ℕ}
    {segs : List (List α)} (hs : Spans P b segs) : Spans Q b segs := by
  induction segs generalizing b with
  | nil => trivial
  | cons s ss ih => exact ⟨h _ _ hs.1, ih hs.2⟩

/-- `ok` holds of the number of items still to come after each piece. -/
def CutsOk (ok : ℕ → Prop) : List (List α) → Prop
  | [] => True
  | _ :: ss => ok ss.flatten.length ∧ CutsOk ok ss

theorem cutsOk_of_forall {ok : ℕ → Prop} (h : ∀ n, ok n) (segs : List (List α)) :
    CutsOk ok segs := by
  induction segs with
  | nil => trivial
  | cons s ss ih => exact ⟨h _, ih⟩

theorem CutsOk.mono {P Q : ℕ → Prop} (h : ∀ n, P n → Q n) {segs : List (List α)}
    (hs : CutsOk P segs) : CutsOk Q segs := by
  induction segs with
  | nil => trivial
  | cons s ss ih => exact ⟨h _ hs.1, ih hs.2⟩

/-- After the last piece nothing is to come. -/
theorem CutsOk.last {ok : ℕ → Prop} {segs : List (List α)} (h : CutsOk ok segs) (hne : segs ≠ []) :
    ok 0 := by
  induction segs with
  | nil => exact absurd rfl hne
  | cons s ss ih =>
      by_cases hss : ss = []
      · subst hss
        exact h.1
      · exact ih h.2 hss

end Segments
end Lib
end SsrNative
