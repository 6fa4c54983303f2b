import Mathlib.Data.List.Basic
import Mathlib.Tactic.Common

/-!
# Transition — runs of a system that is driven by events

`step` says what an event does in a state, and `ok` which events may happen there.  A run is a list
of events that are all allowed where they happen (`Legal`).
-/

namespace SsrNative
namespace Lib
namespace Transition

variable {σ ε : Type*}

/-- Every event of the run is allowed in the state in which it happens. -/
def Legal (ok : σ → ε → Prop) (step : σ → ε → σ) : σ → List ε → Prop
  | _, [] => True
  | s, e :: es => ok s e ∧ Legal ok step (step s e) es

variable {ok ok' : σ → ε → Prop} {step : σ → ε → σ}

theorem Legal.mono (h : ∀ s e, ok s e → ok' s e) {s : σ} {es : List ε} (hrun : Legal ok step s es) :
    Legal ok' step s es := by
  induction es generalizing s with
  | nil => trivial
  | cons e es ih => exact ⟨h s e hrun.1, ih hrun.2⟩

theorem Legal.and {s : σ} {es : List ε} (h : Legal ok step s es) (h' : Legal ok' step s es) :
    Legal (fun s e => ok s e ∧ ok' s e) step s es := by
  induction es generalizing s with
  | nil => trivial
  | cons e es ih => exact ⟨⟨h.1, h'.1⟩, ih h.2 h'.2⟩

/-- The beginning of a run. -/
theorem Legal.append_left {s : σ} {es es' : List ε} (h : Legal ok step s (es ++ es')) :
    Legal ok step s es := by
  induction es generalizing s with
  | nil => trivial
  | cons e es ih => exact ⟨h.1, ih h.2⟩

/-- What every allowed event preserves holds at the end of a run. -/
theorem Legal.invariant {P : σ → Prop} (hstep : ∀ s e, P s → ok s e → P (step s e)) {s : σ}
    (hs : P s) {es : List ε} (hrun : Legal ok step s es) : P (es.foldl step s) := by
  induction es generalizing s with
  | nil => exact hs
  | cons e es ih => exact ih (hstep s e hs hrun.1) hrun.2

/-- Two demands that agree in the states that can be reached. -/
theorem legal_congr {I : σ → Prop} (hinv : ∀ s e, I s → ok s e → I (step s e))
    (hiff : ∀ s e, I s → (ok s e ↔ ok' s e)) {s : σ} (hs : I s) {es : List ε} :
    Legal ok step s es ↔ Legal ok' step s es := by
  induction es generalizing s with
  | nil => exact Iff.rfl
  | cons e es ih =>
      have hrest : ok s e → (Legal ok step (step s e) es ↔ Legal ok' step (step s e) es) :=
        fun hok => ih (hinv s e hs hok)
      exact (and_congr_right hrest).trans (and_congr_left fun _ => hiff s e hs)

/-- What is asked of the events alone. -/
theorem legal_forall_iff {Q : ε → Prop} {s : σ} {es : List ε} :
    Legal (fun _ e => Q e) step s es ↔ ∀ e ∈ es, Q e := by
  induction es generalizing s with
  | nil => exact iff_of_true trivial nofun
  | cons e es ih => exact (and_congr_right fun _ => ih).trans List.forall_mem_cons.symm

/-- If what holds behind an event that may happen decides whether it was allowed, the property holds in
every state of a run exactly when the run is legal. -/
theorem forall_prefix_iff {I P : σ → Prop} (hinv : ∀ s e, I s → ok' s e → I (step s e))
    (hstep : ∀ s e, I s → ok' s e → P s → (P (step s e) ↔ ok s e)) {s : σ} (hI : I s) (hP : P s)
    {es : List ε} (hocc : Legal ok' step s es) :
    (∀ es', es' <+: es → P (es'.foldl step s)) ↔ Legal ok step s es := by
  induction es generalizing s with
  | nil =>
      refine iff_of_true (fun es' h => ?_) trivial
      obtain rfl := List.prefix_nil.1 h
      exact hP
  | cons e es ih =>
      constructor
      · intro hall
        have hnext : P (step s e) := hall [e] (by simp)
        refine ⟨(hstep s e hI hocc.1 hP).1 hnext, (ih (hinv s e hI hocc.1) hnext hocc.2).1 fun es' h => ?_⟩
        exact hall (e :: es') (List.cons_prefix_cons.2 ⟨rfl, h⟩)
      · rintro ⟨hok, hrun⟩ es' h
        cases es' with
        | nil => exact hP
        | cons e' es' =>
            obtain ⟨rfl, hrest⟩ := List.cons_prefix_cons.1 h
            have hnext := (hstep s e' hI hocc.1 hP).2 hok
            exact (ih (hinv s e' hI hocc.1) hnext hocc.2).2 hrun es' hrest

instance decidableLegal [∀ s e, Decidable (ok s e)] :
    ∀ (s : σ) (es : List ε), Decidable (Legal ok step s es)
  | _, [] => .isTrue trivial
  | s, e :: es =>
      haveI := decidableLegal (step s e) es
      inferInstanceAs (Decidable (ok s e ∧ Legal ok step (step s e) es))

/-! ## Steps that may fail -/

section Partial

variable {next : σ → ε → Option σ}

/-- Every event of the run is allowed in the state in which it happens, as far as the run gets. -/
def LegalUntil (ok : σ → ε → Prop) (next : σ → ε → Option σ) : σ → List ε → Prop
  | _, [] => True
  | s, e :: es => ok s e ∧ ∀ s', next s e = some s' → LegalUntil ok next s' es

/-- An invariant that allowed events keep, and under which they do not fail.  `I` may depend on the number of events
before. -/
theorem LegalUntil.run {I : ℕ → σ → Prop} {bound : ℕ}
    (hstep : ∀ n s e, n < bound → I n s → ok s e → ∃ s', next s e = some s' ∧ I (n + 1) s') {n : ℕ} {s : σ}
    (hs : I n s) {es : List ε} (hbound : n + es.length ≤ bound) (hrun : LegalUntil ok next s es) :
    ∃ s', es.foldlM next s = some s' ∧ I (n + es.length) s' := by
  induction es generalizing n s with
  | nil => exact ⟨s, rfl, hs⟩
  | cons e es ih =>
      rw [List.length_cons] at hbound
      rcases hstep n s e (by omega) hs hrun.1 with ⟨s₁, hnext, hs₁⟩
      rcases ih hs₁ (by omega) (hrun.2 s₁ hnext) with ⟨s', hfold, hs'⟩
      refine ⟨s', ?_, ?_⟩
      · rw [List.foldlM_cons, hnext]
        exact hfold
      · rw [List.length_cons, Nat.add_comm es.length 1, ← Nat.add_assoc]
        exact hs'

end Partial

end Transition
end Lib
end SsrNative
