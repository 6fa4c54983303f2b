import Mathlib.Logic.Function.Basic
import SsrNative.Lib.Transition

/-!
# Drain — how a relay between two peers ends

A relay hands what it reads at one end to the peer of that end, where the writes complete later.  When
a stream has ended the relay closes, and the writes that are outstanding then are cut off, except at the
ends that close gracefully.  At one of its ends the relay may linger: it answers the end of the stream
there with a last write to the peer and closes when the next write of the peer completes, whichever that
is.  It may also notice the end of a stream and go on.

Every state in which a relay is closed is complete exactly when every move before was sound
(`complete_iff_sound`), and soundness looks only at the state in which the move is made.  In a relay that
closes at the end of every stream, or lingers, soundness comes to less (`Waiting.sound_iff`).
-/

namespace SsrNative
namespace Lib
namespace Drain

open Transition

/-- The ends of a relay, and what it does at the end of a stream. -/
structure Policy (ι : Type*) where
  peer : ι → ι
  /-- The end whose end of stream is answered with a last write. -/
  lingers : Option ι
  /-- Closing lets the writes of this end complete. -/
  graceful : ι → Bool

/-- The writes that an end has not completed, the writes that the relay has made there, and the ends
whose stream has ended. -/
@[ext]
structure State (ι : Type*) where
  pending : ι → ℕ
  relayed : ι → ℕ
  ended : ι → Bool
  closing : Bool
  closed : Bool

/-- Something was read at an end and was handed on or gave nothing to hand on; the end of a stream came
with something to hand on, and the relay goes on; what was read made the relay give up; a write has
completed; a stream has ended. -/
inductive Move (ι : Type*) where
  | pass (i : ι) (forwarded : Bool)
  | notice (i : ι)
  | refuse (i : ι)
  | written (i : ι)
  | finish (i : ι)

section Relay

variable {ι : Type*}

def State.handOver [DecidableEq ι] (d : State ι) (i : ι) : State ι :=
  { d with
    pending := Function.update d.pending i (d.pending i + 1)
    relayed := Function.update d.relayed i (d.relayed i + 1) }

def State.wrote [DecidableEq ι] (d : State ι) (i : ι) : State ι :=
  { d with pending := Function.update d.pending i (d.pending i - 1) }

def State.finished [DecidableEq ι] (d : State ι) (i : ι) : State ι :=
  { d with ended := Function.update d.ended i true }

def step [DecidableEq ι] (p : Policy ι) (d : State ι) : Move ι → State ι
  | .pass i forwarded => if forwarded then d.handOver (p.peer i) else d
  | .notice i => (d.finished i).handOver (p.peer i)
  | .refuse _ => { d with closed := true }
  | .written i =>
      { d.wrote i with closed := d.closed || (d.closing && decide (p.lingers.map p.peer = some i)) }
  | .finish i =>
      if p.lingers = some i then { (d.finished i).handOver (p.peer i) with closing := true }
      else { d.finished i with closed := true }

/-- A relay that is closed does nothing more than complete the writes of its graceful ends. -/
def Possible (p : Policy ι) (d : State ι) : Move ι → Prop
  | .pass _ forwarded => forwarded = true → d.closed = false
  | .written i => (d.closed = true → p.graceful i = true) ∧ 0 < d.pending i
  | .notice _ | .refuse _ | .finish _ => d.closed = false

/-- Nothing that was read at `i` is cut off when the relay closes. -/
def Drained (p : Policy ι) (d : State ι) (i : ι) : Prop :=
  p.graceful (p.peer i) = true ∨ d.pending (p.peer i) = 0 ∨ d.relayed (p.peer i) = 0

/-- When the relay has closed, the streams that had ended are drained. -/
def Complete (p : Policy ι) (d : State ι) : Prop :=
  d.closed = true → ∀ i, d.ended i = true → Drained p d i

/-- The moves that cut nothing off: when they close the relay, every stream that has ended is drained. -/
def Sound [DecidableEq ι] (p : Policy ι) (d : State ι) : Move ι → Prop
  | .pass _ _ | .notice _ => True
  | .refuse _ => ∀ j, d.ended j = true → Drained p d j
  | .written i => d.closing = true → p.lingers.map p.peer = some i →
      ∀ j, d.ended j = true → Drained p (d.wrote i) j
  | .finish i => p.lingers = some i ∨ Drained p d i ∧ ∀ j, d.ended j = true → Drained p d j

variable {p : Policy ι} {d : State ι} {i : ι}

/-- A relay that is not closed has cut nothing off. -/
theorem complete_of_open (h : d.closed = false) : Complete p d := by
  intro hclosed
  rw [h] at hclosed
  cases hclosed

/-! ## Relays that close at the end of every stream -/

/-- A relay that is open: it closes at the end of every stream, except where it lingers, and while it
lingers its last write is outstanding. -/
structure Waiting (p : Policy ι) (d : State ι) : Prop where
  ended_iff : ∀ i, d.ended i = true ↔ d.closing = true ∧ p.lingers = some i
  lingers_of_closing : d.closing = true → p.lingers ≠ none
  outstanding : d.closing = true → ∀ i, p.lingers = some i →
    0 < d.pending (p.peer i) ∧ 0 < d.relayed (p.peer i)

/-- What soundness comes to in a relay that waits. -/
def SoundWaiting (p : Policy ι) (d : State ι) : Move ι → Prop
  | .pass _ _ | .notice _ => True
  | .refuse _ => d.closing = false
  | .written i => d.closing = true → p.lingers.map p.peer = some i → d.pending i = 1
  | .finish i => p.lingers = some i ∨ d.closing = false ∧ Drained p d i

/-- The last write can be cut off. -/
def Cuts (p : Policy ι) : Prop := ∀ i, p.lingers = some i → p.graceful (p.peer i) = false

/-- While the relay lingers, its last write keeps the stream from being drained. -/
theorem Waiting.not_drained (h : Waiting p d) (hcut : Cuts p) (hc : d.closing = true)
    (hi : p.lingers = some i) : ¬ Drained p d i := by
  obtain ⟨hpend, hrel⟩ := h.outstanding hc i hi
  rintro (hg | hp | hr)
  · rw [hcut i hi] at hg
    cases hg
  · omega
  · omega

/-- A stream has ended exactly while the relay lingers, and is not drained then. -/
theorem Waiting.all_drained_iff (h : Waiting p d) (hcut : Cuts p) :
    (∀ j, d.ended j = true → Drained p d j) ↔ d.closing = false := by
  constructor
  · intro hall
    refine Bool.eq_false_iff.2 fun hc => ?_
    obtain ⟨l, hl⟩ := Option.ne_none_iff_exists'.1 (h.lingers_of_closing hc)
    exact h.not_drained hcut hc hl (hall l ((h.ended_iff l).2 ⟨hc, hl⟩))
  · intro hc j hj
    have hclosing := ((h.ended_iff j).1 hj).1
    rw [hc] at hclosing
    cases hclosing

/-! ## Moves -/

variable [DecidableEq ι]

/-- Completing a write does not cut anything off. -/
theorem Drained.wrote {j : ι} (h : Drained p d j) (i : ι) : Drained p (d.wrote i) j := by
  rcases h with hg | hp | hr
  · exact .inl hg
  · refine .inr (.inl ?_)
    by_cases hj : p.peer j = i
    · simp [State.wrote, ← hj, hp]
    · simp [State.wrote, hj, hp]
  · exact .inr (.inr hr)

/-- The state after a move is complete when the move was sound, and only then. -/
theorem complete_step_iff {m : Move ι} (hm : Possible p d m) (hc : Complete p d) :
    Complete p (step p d m) ↔ Sound p d m := by
  cases m with
  | pass i forwarded =>
      refine iff_of_true ?_ trivial
      cases forwarded with
      | true => exact complete_of_open (hm rfl)
      | false => exact hc
  | notice i => exact iff_of_true (complete_of_open hm) trivial
  | refuse i => exact ⟨fun h => h rfl, fun h _ => h⟩
  | written i =>
      by_cases hlast : d.closing = true ∧ p.lingers.map p.peer = some i
      · have hclosed : (step p d (.written i)).closed = true := by simp [step, hlast]
        exact ⟨fun h _ _ => h hclosed, fun h _ => h hlast.1 hlast.2⟩
      · refine iff_of_true ?_ fun hclosing hl => absurd ⟨hclosing, hl⟩ hlast
        -- the relay is closed only if it was, and then it stays drained
        have hclosed : (step p d (.written i)).closed = d.closed := by
          simp only [step, Bool.or_eq_left_iff_imp, Bool.and_eq_true, decide_eq_true_eq]
          exact fun h => absurd h hlast
        intro hclosed' j hj
        exact (hc (hclosed.symm.trans hclosed') j hj).wrote i
  | finish i =>
      by_cases hi : p.lingers = some i
      · refine iff_of_true (complete_of_open ?_) (.inl hi)
        simp only [step, hi, if_true]
        exact hm
      · have hstep : step p d (.finish i) = { d.finished i with closed := true } := if_neg hi
        rw [hstep]
        constructor
        · intro h
          refine .inr ⟨h rfl i (Function.update_self i _ _), fun j hj => h rfl j ?_⟩
          change Function.update d.ended i true j = true
          by_cases hji : j = i
          · rw [hji, Function.update_self]
          · rw [Function.update_of_ne hji, hj]
        · rintro (heq | ⟨hdrained, hall⟩)
          · exact absurd heq hi
          · intro _ j hj
            by_cases hji : j = i
            · exact hji ▸ hdrained
            · exact hall j ((Function.update_of_ne hji _ _).symm.trans hj)

theorem Waiting.sound_iff (h : Waiting p d) (hcut : Cuts p) (m : Move ι) :
    Sound p d m ↔ SoundWaiting p d m := by
  cases m with
  | pass i forwarded => exact Iff.rfl
  | notice i => exact Iff.rfl
  | refuse i => exact h.all_drained_iff hcut
  | written i =>
      refine forall_congr' fun hc => forall_congr' fun hl => ?_
      obtain ⟨l, hlast, rfl⟩ := Option.map_eq_some_iff.1 hl
      have hdrained : Drained p (d.wrote (p.peer l)) l ↔ d.pending (p.peer l) = 1 := by
        have hpend := h.outstanding hc l hlast
        have hg := hcut l hlast
        simp only [Drained, State.wrote, Function.update_self, hg, Bool.false_eq_true, false_or]
        omega
      rw [← hdrained]
      constructor
      · exact fun hall => hall l ((h.ended_iff l).2 ⟨hc, hlast⟩)
      · intro hl' j hj
        obtain ⟨-, hj⟩ := (h.ended_iff j).1 hj
        obtain rfl : l = j := Option.some.inj (hlast.symm.trans hj)
        exact hl'
  | finish i =>
      refine or_congr Iff.rfl ?_
      rw [h.all_drained_iff hcut]
      exact and_comm

theorem handOver_pending (d : State ι) (i : ι) : (d.handOver i).pending i = d.pending i + 1 :=
  Function.update_self i _ _

theorem pending_le_handOver (d : State ι) (i j : ι) : d.pending j ≤ (d.handOver i).pending j := by
  by_cases h : j = i
  · subst h
    rw [handOver_pending]
    exact Nat.le_succ _
  · exact Nat.le_of_eq (Function.update_of_ne h _ _).symm

theorem handOver_relayed (d : State ι) (i : ι) : (d.handOver i).relayed i = d.relayed i + 1 :=
  Function.update_self i _ _

theorem relayed_le_handOver (d : State ι) (i j : ι) : d.relayed j ≤ (d.handOver i).relayed j := by
  by_cases h : j = i
  · subst h
    rw [handOver_relayed]
    exact Nat.le_succ _
  · exact Nat.le_of_eq (Function.update_of_ne h _ _).symm

theorem Waiting.handOver (h : Waiting p d) (i : ι) : Waiting p (d.handOver i) where
  ended_iff := h.ended_iff
  lingers_of_closing := h.lingers_of_closing
  outstanding hc j hj :=
    ⟨Nat.lt_of_lt_of_le (h.outstanding hc j hj).1 (pending_le_handOver d i _),
      Nat.lt_of_lt_of_le (h.outstanding hc j hj).2 (relayed_le_handOver d i _)⟩

/-- A move that leaves the relay open and does not notice more than it acts on. -/
theorem waiting_step (h : Waiting p d) {m : Move ι} (hm : ∀ i, m ≠ .notice i)
    (hopen : (step p d m).closed = false) : Waiting p (step p d m) := by
  cases m with
  | pass i forwarded =>
      cases forwarded with
      | true => exact h.handOver (p.peer i)
      | false => exact h
  | notice i => exact absurd rfl (hm i)
  | refuse i => cases hopen
  | written i =>
      refine ⟨h.ended_iff, h.lingers_of_closing, fun hc j hj => ?_⟩
      have hne : ¬ p.lingers.map p.peer = some i := by
        intro heq
        have hc' : d.closing = true := hc
        simp [step, hc', heq] at hopen
      have hj' : p.peer j ≠ i := fun heq => hne (by rw [hj, Option.map_some, heq])
      refine ⟨?_, (h.outstanding hc j hj).2⟩
      change 0 < Function.update d.pending i _ (p.peer j)
      rw [Function.update_of_ne hj']
      exact (h.outstanding hc j hj).1
  | finish i =>
      by_cases hi : p.lingers = some i
      · have hstep : step p d (.finish i) =
            { (d.finished i).handOver (p.peer i) with closing := true } := if_pos hi
        rw [hstep]
        refine ⟨fun j => ?_, fun _ => by simp [hi], fun _ j hj => ?_⟩
        · change Function.update d.ended i true j = true ↔ true = true ∧ p.lingers = some j
          by_cases hj : j = i
          · subst hj
            simp [hi]
          · rw [Function.update_of_ne hj, h.ended_iff j]
            have hne : p.lingers ≠ some j := fun heq => hj (Option.some.inj (heq.symm.trans hi))
            simp [hne]
        · obtain rfl : i = j := Option.some.inj (hi.symm.trans hj)
          have hpend := handOver_pending (d.finished i) (p.peer i)
          have hrel := handOver_relayed (d.finished i) (p.peer i)
          exact ⟨by dsimp only; omega, by dsimp only; omega⟩
      · have hstep : (step p d (.finish i)).closed = true := by simp [step, hi]
        rw [hstep] at hopen
        cases hopen

end Relay

/-! ## Runs -/

section Runs

variable {ι σ ε : Type*} [DecidableEq ι] {p : Policy ι} {view : σ → State ι} {move : σ → ε → Move ι}
  {next : σ → ε → σ} {ok safe : σ → ε → Prop} {Inv : σ → Prop}

/-- A system that moves as a relay does: in every state that a run reaches nothing has been cut off
exactly when every event of the run was sound, which `safe` says in the system's own terms. -/
theorem complete_iff_sound (hinv : ∀ s e, Inv s → ok s e → Inv (next s e))
    (hstep : ∀ s e, Inv s → ok s e → view (next s e) = step p (view s) (move s e) ∧
      Possible p (view s) (move s e) ∧ (Sound p (view s) (move s e) ↔ safe s e))
    {s : σ} (hs : Inv s) (hopen : (view s).closed = false) {es : List ε} (hrun : Legal ok next s es) :
    (∀ pre, pre <+: es → Complete p (view (pre.foldl next s))) ↔ Legal safe next s es := by
  refine forall_prefix_iff (P := fun s => Complete p (view s)) hinv (fun s e hs he hc => ?_) hs (complete_of_open hopen) hrun
  obtain ⟨hview, hposs, hsafe⟩ := hstep s e hs he
  rw [hview, complete_step_iff hposs hc, hsafe]

end Runs

end Drain
end Lib
end SsrNative
