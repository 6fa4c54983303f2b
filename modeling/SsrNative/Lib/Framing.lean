import SsrNative.Lib.Segments

/-!
# Framing — receive loops over a carry buffer

A receiver keeps the items it could not use yet.  Each call appends what has just arrived and then
runs a loop: the loop body either takes one frame from the front, waits for more input, or stops
with an error.  This module defines the loop (`drain`), the call (`feed`), and the statement that a
stream is a sequence of frames for a loop body (`Parses`), and proves which ways of cutting such a
stream into pieces deliver its output (`feed_run_of_parses`).

The loop body may change scratch parts of the state even when it only waits (a reseeded generator,
a recomputed key).  `Parses` is therefore relative to a relation `E` that says when two states
agree in everything the following frames depend on.
-/

namespace SsrNative
namespace Lib
namespace Framing

open Segments

universe u v w x

/-- What one pass of a receive loop decides about the carried input. -/
inductive Peel (σ : Type u) (β : Type v) (ε : Type w) where
  | more (s : σ)
  | took (s : σ) (out : List β) (n : ℕ)
  | halt (s : σ) (e : ε)

/-- The state, the input left over, the output, and the error that stopped the loop, if any. -/
structure Drained (σ : Type u) (α : Type x) (β : Type v) (ε : Type w) where
  state : σ
  rest : List α
  out : List β
  stop : Option ε

section Loop

variable {σ : Type u} {α : Type x} {β : Type v} {ε : Type w}

/-- The receive loop.  `fuel` bounds the number of passes; a loop body that takes at least one item
per pass never exhausts `buf.length + 1` (see `drain_of_parses`). -/
def drain (step : σ → List α → Peel σ β ε) :
    ℕ → σ → List α → List β → Drained σ α β ε
  | 0, s, buf, acc => ⟨s, buf, acc, none⟩
  | fuel + 1, s, buf, acc =>
      match step s buf with
      | .more s' => ⟨s', buf, acc, none⟩
      | .halt s' e => ⟨s', buf, acc, some e⟩
      | .took s' out n => drain step fuel s' (buf.drop n) (acc ++ out)

variable {step : σ → List α → Peel σ β ε}

theorem drain_more {fuel : ℕ} {s s' : σ} {buf : List α} {acc : List β}
    (h : step s buf = .more s') :
    drain step (fuel + 1) s buf acc = ⟨s', buf, acc, none⟩ := by
  simp [drain, h]

theorem drain_took {fuel n : ℕ} {s s' : σ} {buf : List α} {acc out : List β}
    (h : step s buf = .took s' out n) :
    drain step (fuel + 1) s buf acc = drain step fuel s' (buf.drop n) (acc ++ out) := by
  simp [drain, h]

theorem drain_halt {fuel : ℕ} {s s' : σ} {buf : List α} {acc : List β} {e : ε}
    (h : step s buf = .halt s' e) :
    drain step (fuel + 1) s buf acc = ⟨s', buf, acc, some e⟩ := by
  simp [drain, h]

/-- Output already collected is only carried along. -/
theorem drain_acc (fuel : ℕ) (s : σ) (buf : List α) (acc : List β) :
    drain step fuel s buf acc =
      { drain step fuel s buf [] with out := acc ++ (drain step fuel s buf []).out } := by
  induction fuel generalizing s buf acc with
  | zero => simp [drain]
  | succ fuel ih =>
      cases h : step s buf with
      | more s' => simp [drain_more h]
      | halt s' e => simp [drain_halt h]
      | took s' out n =>
          rw [drain_took h, drain_took h, ih s' (buf.drop n) (acc ++ out),
            ih s' (buf.drop n) ([] ++ out)]
          simp

/-- What the loop leaves is something that the loop body waits on. -/
theorem drain_rest_lt {N : ℕ} (hmore : ∀ {s b s'}, step s b = .more s' → b.length < N)
    (htook : ∀ {s b s' out n}, step s b = .took s' out n → 0 < n ∧ n ≤ b.length)
    {fuel : ℕ} {s : σ} {buf : List α} {acc : List β} (hfuel : buf.length < fuel)
    (hstop : (drain step fuel s buf acc).stop = none) :
    (drain step fuel s buf acc).rest.length < N := by
  induction fuel generalizing s buf acc with
  | zero => omega
  | succ fuel ih =>
      cases h : step s buf with
      | more s' =>
          rw [drain_more h]
          exact hmore h
      | halt s' e =>
          rw [drain_halt h] at hstop
          cases hstop
      | took s' out n =>
          have hn := htook h
          rw [drain_took h] at hstop ⊢
          exact ih (by rw [List.length_drop]; omega) hstop

/-- Two results of a loop body that differ at most in related states. -/
inductive PeelRel (E : σ → σ → Prop) : Peel σ β ε → Peel σ β ε → Prop where
  | more {s t : σ} : E s t → PeelRel E (.more s) (.more t)
  | took {s t : σ} (out : List β) (n : ℕ) : E s t → PeelRel E (.took s out n) (.took t out n)
  | halt {s t : σ} (e : ε) : E s t → PeelRel E (.halt s e) (.halt t e)

/-- A loop body that respects a relation of states gives the same output from related states. -/
theorem drain_rel {E : σ → σ → Prop}
    (hstep : ∀ {s t} (buf : List α), E s t → PeelRel E (step s buf) (step t buf))
    (fuel : ℕ) {s t : σ} (h : E s t) (buf : List α) (acc : List β) :
    E (drain step fuel s buf acc).state (drain step fuel t buf acc).state ∧
      (drain step fuel s buf acc).rest = (drain step fuel t buf acc).rest ∧
      (drain step fuel s buf acc).out = (drain step fuel t buf acc).out ∧
      (drain step fuel s buf acc).stop = (drain step fuel t buf acc).stop := by
  induction fuel generalizing s t buf acc with
  | zero => exact ⟨h, rfl, rfl, rfl⟩
  | succ fuel ih =>
      have hrel := hstep buf h
      generalize hs : step s buf = ps at hrel
      generalize ht : step t buf = pt at hrel
      cases hrel with
      | more hE =>
          rw [drain_more hs, drain_more ht]
          exact ⟨hE, rfl, rfl, rfl⟩
      | took out n hE =>
          rw [drain_took hs, drain_took ht]
          exact ih hE _ _
      | halt e hE =>
          rw [drain_halt hs, drain_halt ht]
          exact ⟨hE, rfl, rfl, rfl⟩

/-! ## Streams of frames -/

/-- In every state that agrees with `s`, the frame `f` in front of `t` is taken whole or not yet,
and at the latest when nothing more is to come.  The loop fails on a part of it, with an error that
`bad` describes, exactly when the number of items to come is not allowed. -/
def Takes (step : σ → List α → Peel σ β ε) (E : σ → σ → Prop) (ok : ℕ → Prop) (bad : ε → Prop)
    (s : σ) (f t : List α) (out : List β) (s₁ : σ) : Prop :=
  ∀ s₀, E s₀ s → ∀ buf rest, buf ++ rest = f ++ t →
    (∃ s₂, step s₀ buf = .took s₂ out f.length ∧ E s₂ s₁ ∧ f.length ≤ buf.length) ∨
    (∃ s₂, step s₀ buf = .more s₂ ∧ E s₂ s ∧ rest ≠ [] ∧ ok rest.length) ∨
    (∃ s₂ e, step s₀ buf = .halt s₂ e ∧ bad e ∧ ¬ ok rest.length)

/-- Nothing is ever taken from `z`, and the loop does not fail on it. -/
def Waits (step : σ → List α → Peel σ β ε) (E : σ → σ → Prop) (ok : ℕ → Prop) (s : σ)
    (z : List α) : Prop :=
  ∀ s₀, E s₀ s → ∀ buf rest, buf ++ rest = z →
    ok rest.length ∧ ∃ s₂, step s₀ buf = .more s₂ ∧ E s₂ s

/-- Nothing is ever taken from `z`, and at the latest on all of it the loop fails. -/
def Refuses (step : σ → List α → Peel σ β ε) (E : σ → σ → Prop) (ok : ℕ → Prop)
    (bad : ε → Prop) (s : σ) (z : List α) : Prop :=
  ∀ s₀, E s₀ s → ∀ buf rest, buf ++ rest = z →
    (∃ s₂, step s₀ buf = .more s₂ ∧ E s₂ s ∧ rest ≠ [] ∧ ok rest.length) ∨
    (∃ s₂ e, step s₀ buf = .halt s₂ e ∧ bad e ∧ ¬ ok rest.length)

/-- The stream is a sequence of frames that lead from `s` to `s'` and carry `out`, and `z` behind
them is no frame. -/
inductive Parses (step : σ → List α → Peel σ β ε) (E : σ → σ → Prop) (ok : ℕ → Prop)
    (bad : ε → Prop) : σ → List α → List β → σ → List α → Prop where
  | rest {s : σ} {z : List α} : Waits step E ok s z → Parses step E ok bad s z [] s z
  | refuse {s : σ} {z : List α} : Refuses step E ok bad s z → Parses step E ok bad s z [] s z
  | frame {s s₁ s' : σ} {f t z : List α} {out outs : List β} :
      f ≠ [] → Takes step E ok bad s f t out s₁ → Parses step E ok bad s₁ t outs s' z →
      Parses step E ok bad s (f ++ t) (out ++ outs) s' z

/-- A loop that does nothing without input. -/
theorem waits_nil {E : σ → σ → Prop} {ok : ℕ → Prop} {s : σ} (hok : ok 0)
    (h : ∀ s₀, E s₀ s → ∃ s₂, step s₀ [] = .more s₂ ∧ E s₂ s) : Waits step E ok s [] := by
  intro s₀ hs₀ buf rest heq
  obtain ⟨rfl, rfl⟩ := List.append_eq_nil_iff.1 heq
  exact ⟨hok, h s₀ hs₀⟩

/-- A frame that is taken once it is complete, from what the loop does on its proper prefixes. -/
theorem takes_of_prefixes {E : σ → σ → Prop} {ok : ℕ → Prop} {bad : ε → Prop} {s s₁ : σ} {f t : List α}
    {out : List β}
    (hfull : ∀ s₀, E s₀ s → ∀ l, ∃ s₂, step s₀ (f ++ l) = .took s₂ out f.length ∧ E s₂ s₁)
    (hpart : ∀ s₀, E s₀ s → ∀ p l, p ++ l = f → l ≠ [] →
      (∃ s₂, step s₀ p = .more s₂ ∧ E s₂ s ∧ ok (l ++ t).length) ∨
      (∃ s₂ e, step s₀ p = .halt s₂ e ∧ bad e ∧ ¬ ok (l ++ t).length)) :
    Takes step E ok bad s f t out s₁ := by
  intro s₀ hs₀ buf rest heq
  by_cases hlen : f.length ≤ buf.length
  · obtain ⟨l, rfl⟩ : f <+: buf :=
      List.prefix_of_prefix_length_le ⟨t, rfl⟩ ⟨rest, heq⟩ hlen
    rcases hfull s₀ hs₀ l with ⟨s₂, hstep, hE⟩
    exact Or.inl ⟨s₂, hstep, hE, hlen⟩
  · have hpre : buf <+: f :=
      List.prefix_of_prefix_length_le ⟨rest, heq⟩ ⟨t, rfl⟩ (by omega)
    rcases hpre with ⟨l, hl⟩
    have hrest : rest = l ++ t := by
      rw [← hl, List.append_assoc] at heq
      exact List.append_cancel_left heq
    have hl0 : l ≠ [] := by
      rintro rfl
      simp only [List.append_nil] at hl
      exact hlen (Nat.le_of_eq (by rw [hl]))
    subst hrest
    rcases hpart s₀ hs₀ buf l hl hl0 with ⟨s₂, hstep, hE, hok⟩ | hhalt
    · exact Or.inr (Or.inl ⟨s₂, hstep, hE, by simp [hl0], hok⟩)
    · exact Or.inr (Or.inr hhalt)

/-- A frame whose proper prefixes only make the loop wait. -/
theorem takes_of_waits {E : σ → σ → Prop} {bad : ε → Prop} {s s₁ : σ} {f t : List α} {out : List β}
    (hfull : ∀ s₀, E s₀ s → ∀ l, ∃ s₂, step s₀ (f ++ l) = .took s₂ out f.length ∧ E s₂ s₁)
    (hwait : ∀ s₀, E s₀ s → ∀ p l, p ++ l = f → l ≠ [] → ∃ s₂, step s₀ p = .more s₂ ∧ E s₂ s) :
    Takes step E (fun _ => True) bad s f t out s₁ := by
  refine takes_of_prefixes hfull fun s₀ hs₀ p l hp hl => Or.inl ?_
  obtain ⟨s₂, hstep, hE⟩ := hwait s₀ hs₀ p l hp hl
  exact ⟨s₂, hstep, hE, trivial⟩

/-! ## One call and a run of calls -/

/-- One receive call: append the piece to what was carried over and run the loop. -/
def feed (step : σ → List α → Peel σ β ε) (s : σ × List α) (seg : List α) :
    (σ × List α) × (List β × Option ε) :=
  let d := drain step ((s.2 ++ seg).length + 1) s.1 (s.2 ++ seg) []
  ((d.state, d.rest), (d.out, d.stop))

variable {E : σ → σ → Prop} {ok : ℕ → Prop} {bad : ε → Prop}

/-- The loop takes whole frames, and leaves a stream that still parses; or it fails, and the number
of items to come tells which. -/
theorem drain_of_parses {fuel : ℕ} {s s₀ s' : σ} {buf rest z : List α} {out : List β}
    (hp : Parses step E ok bad s (buf ++ rest) out s' z) (hE : E s₀ s) (hfuel : buf.length < fuel) :
    (ok rest.length ∧ ∃ s₁ s₂ buf' o out',
      drain step fuel s₀ buf [] = ⟨s₂, buf', o, none⟩ ∧ out = o ++ out' ∧ E s₂ s₁ ∧
        Parses step E ok bad s₁ (buf' ++ rest) out' s' z ∧
        (rest = [] → buf' = z ∧ out' = [] ∧ s₁ = s')) ∨
    (¬ ok rest.length ∧ ∃ e, (drain step fuel s₀ buf []).stop = some e ∧ bad e) := by
  induction fuel generalizing s s₀ buf out with
  | zero => omega
  | succ fuel ih =>
      generalize hst : buf ++ rest = st at hp
      cases hp with
      | rest hw =>
          obtain ⟨hok, s₂, hstep, hE₂⟩ := hw s₀ hE buf rest hst
          refine Or.inl ⟨hok, s', s₂, buf, [], [], drain_more hstep, rfl, hE₂, ?_, ?_⟩
          · rw [hst]
            exact .rest hw
          · rintro rfl
            exact ⟨by simpa using hst, rfl, rfl⟩
      | refuse hr =>
          rcases hr s₀ hE buf rest hst with ⟨s₂, hstep, hE₂, hne, hok⟩ | ⟨s₂, e, hstep, he, hok⟩
          · refine Or.inl ⟨hok, s', s₂, buf, [], [], drain_more hstep, rfl, hE₂, ?_,
              fun h => absurd h hne⟩
            rw [hst]
            exact .refuse hr
          · exact Or.inr ⟨hok, e, by rw [drain_halt hstep], he⟩
      | @frame _ s₁ _ f t _ o outs hf htakes hrest =>
          rcases htakes s₀ hE buf rest hst with
            ⟨s₂, hstep, hE₂, hlen⟩ | ⟨s₂, hstep, hE₂, hne, hok⟩ | ⟨s₂, e, hstep, he, hok⟩
          · -- the frame is complete: take it and continue with the shorter buffer
            have hdrop : buf.drop f.length ++ rest = t := by
              have := congrArg (List.drop f.length) hst
              simpa [List.drop_append_of_le_length hlen] using this
            have hpos : 0 < f.length := List.length_pos_iff.2 hf
            rw [← hdrop] at hrest
            rw [drain_took hstep, drain_acc]
            rcases ih hrest hE₂ (by simp only [List.length_drop]; omega) with
              ⟨hok, s₃, s₄, buf', o', out', hd, hout, hE₃, hp', hempty⟩ | ⟨hok, hstop⟩
            · refine Or.inl ⟨hok, s₃, s₄, buf', o ++ o', out', ?_, by simp [hout], hE₃, hp', hempty⟩
              rw [hd]
              simp
            · exact Or.inr ⟨hok, hstop⟩
          · refine Or.inl ⟨hok, s, s₂, buf, [], o ++ outs, drain_more hstep, rfl, hE₂, ?_,
              fun h => absurd h hne⟩
            rw [hst]
            exact .frame hf htakes hrest
          · exact Or.inr ⟨hok, e, by rw [drain_halt hstep], he⟩

/-- The first call that fails does so with an error that `bad` describes. -/
def FirstFails (bad : ε → Prop) (outs : List (List β × Option ε)) : Prop :=
  ∃ pre o e post, outs = pre ++ (o, some e) :: post ∧ (∀ r ∈ pre, r.2 = none) ∧ bad e

theorem FirstFails.cons {outs : List (List β × Option ε)} (h : FirstFails bad outs) (o : List β) :
    FirstFails bad ((o, none) :: outs) := by
  obtain ⟨pre, o', e, post, rfl, hpre, he⟩ := h
  exact ⟨(o, none) :: pre, o', e, post, rfl, by simpa using hpre, he⟩

/-- Segmentation: cut at allowed positions only, a stream of frames delivers its whole output and
leaves what is no frame; cut at any other position, some call fails. -/
theorem feed_run_of_parses {segs : List (List α)} {s s₀ s' : σ} {buf z : List α} {out : List β}
    (hp : Parses step E ok bad s (buf ++ segs.flatten) out s' z) (hE : E s₀ s) (hsegs : segs ≠ []) :
    (CutsOk ok segs ∧ ∃ s₂ outs, run (feed step) (s₀, buf) segs = ((s₂, z), outs) ∧
        (∀ r ∈ outs, r.2 = none) ∧ (outs.map Prod.fst).flatten = out ∧ E s₂ s') ∨
    (¬ CutsOk ok segs ∧ FirstFails bad (run (feed step) (s₀, buf) segs).2) := by
  induction segs generalizing s s₀ buf out with
  | nil => exact absurd rfl hsegs
  | cons seg segs ih =>
      rw [List.flatten_cons, ← List.append_assoc] at hp
      rcases drain_of_parses hp hE (Nat.lt_add_one _) with
        ⟨hok, s₁, s₂, buf', o, out', hd, hout, hE₂, hp₂, hempty⟩ | ⟨hok, e, hstop, he⟩
      · have hfeed : feed step (s₀, buf) seg = ((s₂, buf'), (o, none)) := by
          simp only [feed, hd]
        rw [run_cons, hfeed]
        by_cases hlast : segs = []
        · subst hlast
          obtain ⟨rfl, rfl, rfl⟩ := hempty rfl
          exact Or.inl ⟨⟨hok, trivial⟩, s₂, [(o, none)], rfl, by simp, by simp [hout], hE₂⟩
        · rcases ih hp₂ hE₂ hlast with
            ⟨hcuts, s₃, outs, hrun, hall, hout', hE₃⟩ | ⟨hcuts, hfail⟩
          · refine Or.inl ⟨⟨hok, hcuts⟩, s₃, (o, none) :: outs, ?_, ?_, ?_, hE₃⟩
            · rw [hrun]
            · simpa using hall
            · simp [hout, hout']
          · exact Or.inr ⟨fun h => hcuts h.2, hfail.cons o⟩
      · refine Or.inr ⟨fun h => hok h.1, [], (feed step (s₀, buf) seg).2.1, e,
          (run (feed step) (feed step (s₀, buf) seg).1 segs).2, ?_, by simp, he⟩
        rw [run_cons, List.nil_append, List.cons.injEq]
        exact ⟨Prod.ext rfl hstop, rfl⟩

/-- When every position is allowed, the pieces that make up the stream deliver its output. -/
theorem feed_run_complete {segs : List (List α)} {s s₀ s' : σ} {buf z : List α} {out : List β}
    (hp : Parses step E ok bad s (buf ++ segs.flatten) out s' z) (hE : E s₀ s)
    (hok : CutsOk ok segs) (hsegs : segs ≠ []) :
    ∃ s₂ outs, run (feed step) (s₀, buf) segs = ((s₂, z), outs) ∧ (∀ r ∈ outs, r.2 = none) ∧
      (outs.map Prod.fst).flatten = out ∧ E s₂ s' := by
  rcases feed_run_of_parses hp hE hsegs with ⟨-, h⟩ | ⟨hbad, -⟩
  · exact h
  · exact absurd hok hbad

/-! ## Receivers -/

/-- A receiver `f` whose calls are passes of the receive loop.  `seg` is the piece that a call is
given, `val` what it returns unless it fails, and `R` relates its state to that of the loop. -/
structure Follows {τ ι ο : Type*} (f : τ → ι → τ × ο) (seg : ι → List α) (val : ο → Option (List β))
    (step : σ → List α → Peel σ β ε) (P : ι → Prop) (R : τ → σ × List α → Prop) : Prop where
  next : ∀ {s t i}, R s t → P i → (feed step t (seg i)).2.2 = none →
    R (f s i).1 (feed step t (seg i)).1 ∧ val (f s i).2 = some (feed step t (seg i)).2.1

/-- A receiver that fails whenever the receive loop fails with an error that `bad` describes. -/
structure StrictFollows {τ ι ο : Type*} (bad : ε → Prop) (f : τ → ι → τ × ο) (seg : ι → List α)
    (val : ο → Option (List β)) (step : σ → List α → Peel σ β ε) (P : ι → Prop)
    (R : τ → σ × List α → Prop) : Prop extends Follows f seg val step P R where
  next_halt : ∀ {s t i e}, R s t → P i → (feed step t (seg i)).2.2 = some e → bad e →
    val (f s i).2 = none

section Receiver

variable {τ ι ο : Type*} {f : τ → ι → τ × ο} {seg : ι → List α} {val : ο → Option (List β)}
  {P : ι → Prop} {R : τ → σ × List α → Prop}

theorem Follows.run_next (H : Follows f seg val step P R) {is : List ι} {s : τ}
    {t : σ × List α} (hR : R s t) (hP : ∀ i ∈ is, P i)
    (hall : ∀ r ∈ (run (feed step) t (is.map seg)).2, r.2 = none) :
    R (run f s is).1 (run (feed step) t (is.map seg)).1 ∧
      (run f s is).2.map val = (run (feed step) t (is.map seg)).2.map fun r => some r.1 := by
  induction is generalizing s t with
  | nil => exact ⟨hR, rfl⟩
  | cons i is ih =>
      simp only [List.map_cons, run_cons, List.forall_mem_cons] at hall hP ⊢
      obtain ⟨hR', hval⟩ := H.next hR hP.1 hall.1
      obtain ⟨hfinal, hrest⟩ := ih hR' hP.2 hall.2
      exact ⟨hfinal, by rw [hval, hrest]⟩

/-- In a run of the loop without errors, every call of the receiver starts in a related state. -/
theorem Follows.along (H : Follows f seg val step P R) {is : List ι} {s : τ} {t : σ × List α}
    (hR : R s t) (hP : ∀ i ∈ is, P i)
    (hall : ∀ r ∈ (run (feed step) t (is.map seg)).2, r.2 = none) :
    Along (fun s _ => ∃ t, R s t) f s is := by
  induction is generalizing s t with
  | nil => trivial
  | cons i is ih =>
      simp only [List.map_cons, run_cons, List.forall_mem_cons] at hall hP
      exact ⟨⟨t, hR⟩, ih (H.next hR hP.1 hall.1).1 hP.2 hall.2⟩

/-- Results of calls none of which failed. -/
theorem ne_none_of_map_some {outs : List ο} {rs : List (List β × Option ε)}
    (h : outs.map val = rs.map fun r => some r.1) : ∀ o ∈ outs, val o ≠ none := by
  intro o ho hnone
  have hmem : val o ∈ outs.map val := List.mem_map_of_mem ho
  rw [h, hnone] at hmem
  simp at hmem

/-- A stream of frames arrives whole when it is cut at allowed positions only. -/
theorem Follows.run_complete (H : Follows f seg val step P R) {is : List ι} {s : τ} {s₀ s₁ s' : σ}
    {buf z : List α} {out : List β} (hR : R s (s₀, buf)) (hP : ∀ i ∈ is, P i)
    (hp : Parses step E ok bad s₁ (buf ++ (is.map seg).flatten) out s' z) (hE : E s₀ s₁)
    (hok : CutsOk ok (is.map seg)) (hne : is ≠ []) :
    ∃ s₂, R (run f s is).1 (s₂, z) ∧ E s₂ s' ∧ (∀ o ∈ (run f s is).2, val o ≠ none) ∧
      delivered ((run f s is).2.map val) = out := by
  obtain ⟨s₂, outs, hrun, hall, hout, hE'⟩ := feed_run_complete hp hE hok (by simpa using hne)
  obtain ⟨hfinal, hvals⟩ := H.run_next hR hP (by rw [hrun]; exact hall)
  rw [hrun] at hfinal hvals
  exact ⟨s₂, hfinal, hE', ne_none_of_map_some hvals, by rw [hvals, delivered_map_some, hout]⟩

/-- So does every call on a stream of frames that is cut at allowed positions only. -/
theorem Follows.along_complete (H : Follows f seg val step P R) {is : List ι} {s : τ} {s₀ s₁ s' : σ}
    {buf z : List α} {out : List β} (hR : R s (s₀, buf)) (hP : ∀ i ∈ is, P i)
    (hp : Parses step E ok bad s₁ (buf ++ (is.map seg).flatten) out s' z) (hE : E s₀ s₁)
    (hok : CutsOk ok (is.map seg)) (hne : is ≠ []) : Along (fun s _ => ∃ t, R s t) f s is := by
  obtain ⟨s₂, outs, hrun, hall, -, -⟩ := feed_run_complete hp hE hok (by simpa using hne)
  exact H.along hR hP (by rw [hrun]; exact hall)

theorem StrictFollows.run_next_fails (H : StrictFollows bad f seg val step P R)
    {is : List ι} {s : τ} {t : σ × List α} (hR : R s t) (hP : ∀ i ∈ is, P i)
    (hfail : FirstFails bad (run (feed step) t (is.map seg)).2) :
    ∃ o ∈ (run f s is).2, val o = none := by
  obtain ⟨pre, o, e, post, houts, hpre, he⟩ := hfail
  induction pre generalizing is s t with
  | nil =>
      cases is with
      | nil => cases houts
      | cons i is =>
          rw [List.map_cons, run_cons, List.nil_append, List.cons.injEq] at houts
          have hnone := H.next_halt hR (hP i (by simp)) (congrArg Prod.snd houts.1) he
          exact ⟨(f s i).2, List.mem_cons_self, hnone⟩
  | cons r pre ih =>
      cases is with
      | nil => cases houts
      | cons i is =>
          -- this call succeeds, so a later one fails
          rw [List.map_cons, run_cons, List.cons_append, List.cons.injEq] at houts
          rw [List.forall_mem_cons] at hP hpre
          obtain ⟨hR', -⟩ := H.next hR hP.1 (houts.1 ▸ hpre.1)
          obtain ⟨o', ho', hval⟩ := ih hR' hP.2 houts.2 hpre.2
          exact ⟨o', List.mem_cons_of_mem _ ho', hval⟩

/-- A cut that is not allowed makes a call fail. -/
theorem StrictFollows.run_fails (H : StrictFollows bad f seg val step P R) {is : List ι} {s : τ}
    {s₀ s₁ s' : σ} {buf z : List α} {out : List β} (hR : R s (s₀, buf)) (hP : ∀ i ∈ is, P i)
    (hp : Parses step E ok bad s₁ (buf ++ (is.map seg).flatten) out s' z) (hE : E s₀ s₁)
    (hcuts : ¬ CutsOk ok (is.map seg)) : ∃ o ∈ (run f s is).2, val o = none := by
  have hne : is.map seg ≠ [] := by
    intro hnil
    rw [hnil] at hcuts
    exact hcuts trivial
  rcases feed_run_of_parses hp hE hne with ⟨hgood, -⟩ | ⟨-, hfail⟩
  · exact absurd hgood hcuts
  · exact H.run_next_fails hR hP hfail

end Receiver

/-! ## A header in front of the frames -/

/-- A receiver that first collects a header and then runs the receive loop.  `W c` describes the
states that wait for the header with `c` carried over, and `R` those behind it; `first` is what the
header itself carries.  The receiver may want more than the header before it starts (`need`). -/
structure Prelude {τ ι ο : Type*} (f : τ → ι → τ × ο) (seg : ι → List α) (val : ο → Option (List β))
    (step : σ → List α → Peel σ β ε) (s₀ : σ) (P : ι → Prop) (header frames : List α)
    (first : List β) (need : ℕ) (W : List α → τ → Prop) (R : τ → σ × List α → Prop) : Prop
    extends Follows f seg val step P R where
  header_le : header.length ≤ need
  /-- Too little has arrived. -/
  wait : ∀ {c s i}, W c s → P i → c ++ seg i <+: header ++ frames → (c ++ seg i).length < need →
    W (c ++ seg i) (f s i).1 ∧ val (f s i).2 = some []
  /-- The header is complete: the loop starts with what follows it. -/
  start : ∀ {c s i buf}, W c s → P i → c ++ seg i = header ++ buf → need ≤ (c ++ seg i).length →
    (feed step (s₀, []) buf).2.2 = none →
    R (f s i).1 (feed step (s₀, []) buf).1 ∧
      val (f s i).2 = some (first ++ (feed step (s₀, []) buf).2.1)

namespace Prelude

variable {τ ι ο : Type*} {f : τ → ι → τ × ο} {seg : ι → List α} {val : ο → Option (List β)}
  {s₀ : σ} {P : ι → Prop} {header frames : List α} {first : List β} {need : ℕ}
  {W : List α → τ → Prop} {R : τ → σ × List α → Prop}

/-- The call that completes the header leaves a first part of the frames. -/
theorem header_received (H : Prelude f seg val step s₀ P header frames first need W R)
    {got later : List α} (hcat : got ++ later = header ++ frames) (hneed : need ≤ got.length) :
    ∃ buf, got = header ++ buf ∧ [] ++ (buf ++ later) = frames := by
  have hle := H.header_le
  obtain ⟨buf, rfl⟩ : header <+: got :=
    List.prefix_of_prefix_length_le ⟨frames, rfl⟩ ⟨later, hcat⟩ (by omega)
  rw [List.append_assoc] at hcat
  exact ⟨buf, rfl, List.append_cancel_left hcat⟩

/-- A header and a stream of frames arrive whole, however they are cut. -/
theorem run_complete (H : Prelude f seg val step s₀ P header frames first need W R) {is : List ι}
    {c z : List α} {s : τ} {out : List β} {s' : σ} (hW : W c s) (hc : c.length < need)
    (hP : ∀ i ∈ is, P i) (hcat : c ++ (is.map seg).flatten = header ++ frames)
    (hneed : need ≤ (header ++ frames).length) (hp : Parses step E ok bad s₀ frames out s' z)
    (hE : E s₀ s₀) (hok : CutsOk ok (is.map seg)) :
    ∃ s₂, R (run f s is).1 (s₂, z) ∧ E s₂ s' ∧ (∀ o ∈ (run f s is).2, val o ≠ none) ∧
      delivered ((run f s is).2.map val) = first ++ out := by
  induction is generalizing c s with
  | nil =>
      have hlen := congrArg List.length hcat
      simp only [List.map_nil, List.flatten_nil, List.append_nil] at hlen
      omega
  | cons i is ih =>
      rw [List.map_cons, List.flatten_cons, ← List.append_assoc] at hcat
      rw [List.forall_mem_cons] at hP
      by_cases hshort : (c ++ seg i).length < need
      · obtain ⟨hW', hval⟩ := H.wait hW hP.1 ⟨_, hcat⟩ hshort
        obtain ⟨s₂, hR, hE', hall, hout⟩ := ih hW' hshort hP.2 hcat hok.2
        refine ⟨s₂, hR, hE', ?_, ?_⟩
        · rw [run_cons, List.forall_mem_cons, hval]
          exact ⟨by simp, hall⟩
        · rw [run_cons, List.map_cons, hval]
          exact hout
      · -- from here on the calls are passes over `buf :: is.map seg`
        obtain ⟨buf, hbuf, hframes⟩ := H.header_received hcat (Nat.le_of_not_lt hshort)
        have hcuts : CutsOk ok (buf :: is.map seg) := hok
        obtain ⟨s₂, outs, hrun, hall, hout, hE'⟩ :=
          feed_run_complete (hframes.symm ▸ hp) hE hcuts (by simp)
        rw [run_cons, Prod.mk.injEq] at hrun
        obtain ⟨hstate, rfl⟩ := hrun
        rw [List.forall_mem_cons] at hall
        obtain ⟨hR, hval⟩ := H.start hW hP.1 hbuf (Nat.le_of_not_lt hshort) hall.1
        obtain ⟨hfinal, hrest⟩ := H.run_next hR hP.2 hall.2
        rw [hstate] at hfinal
        refine ⟨s₂, hfinal, hE', ?_, ?_⟩
        · rw [run_cons, List.forall_mem_cons, hval]
          exact ⟨by simp, ne_none_of_map_some hrest⟩
        · rw [run_cons, List.map_cons, hval, hrest, delivered_cons, delivered_map_some, ← hout]
          simp

end Prelude

/-- A receiver with a header that fails whenever the receive loop fails. -/
structure StrictPrelude {τ ι ο : Type*} (bad : ε → Prop) (f : τ → ι → τ × ο) (seg : ι → List α)
    (val : ο → Option (List β)) (step : σ → List α → Peel σ β ε) (s₀ : σ) (P : ι → Prop)
    (header frames : List α) (first : List β) (need : ℕ) (W : List α → τ → Prop)
    (R : τ → σ × List α → Prop) : Prop
    extends Prelude f seg val step s₀ P header frames first need W R,
      StrictFollows bad f seg val step P R where
  start_halt : ∀ {c s i buf e}, W c s → P i → c ++ seg i = header ++ buf →
    need ≤ (c ++ seg i).length → (feed step (s₀, []) buf).2.2 = some e → bad e →
    val (f s i).2 = none

namespace StrictPrelude

variable {τ ι ο : Type*} {f : τ → ι → τ × ο} {seg : ι → List α} {val : ο → Option (List β)}
  {s₀ : σ} {P : ι → Prop} {header frames : List α} {first : List β} {need : ℕ}
  {W : List α → τ → Prop} {R : τ → σ × List α → Prop}

/-- A cut that is not allowed makes a call fail. -/
theorem run_fails (H : StrictPrelude bad f seg val step s₀ P header frames first need W R)
    {is : List ι} {c z : List α} {s : τ} {out : List β} {s' : σ} (hW : W c s) (hP : ∀ i ∈ is, P i)
    (hcat : c ++ (is.map seg).flatten = header ++ frames) (hp : Parses step E ok bad s₀ frames out s' z)
    (hE : E s₀ s₀) (hearly : ∀ n, (header ++ frames).length < n + need → ok n)
    (hcuts : ¬ CutsOk ok (is.map seg)) : ∃ o ∈ (run f s is).2, val o = none := by
  induction is generalizing c s with
  | nil => exact absurd trivial hcuts
  | cons i is ih =>
      rw [List.map_cons, List.flatten_cons, ← List.append_assoc] at hcat
      rw [List.forall_mem_cons] at hP
      have hlen := congrArg List.length hcat
      rw [List.length_append] at hlen
      by_cases hshort : (c ++ seg i).length < need
      · obtain ⟨hW', -⟩ := H.wait hW hP.1 ⟨_, hcat⟩ hshort
        have hlater : ¬ CutsOk ok (is.map seg) := fun h => hcuts ⟨hearly _ (by omega), h⟩
        obtain ⟨o, ho, hval⟩ := ih hW' hP.2 hcat hlater
        exact ⟨o, List.mem_cons_of_mem _ ho, hval⟩
      · obtain ⟨buf, hbuf, hframes⟩ := H.header_received hcat (Nat.le_of_not_lt hshort)
        have hp' : Parses step E ok bad s₀ ([] ++ (buf :: is.map seg).flatten) out s' z := by
          rw [List.flatten_cons, hframes]
          exact hp
        rcases feed_run_of_parses hp' hE (by simp) with ⟨hgood, -⟩ | ⟨-, hfail⟩
        · exact absurd hgood hcuts
        · obtain ⟨pre, o, e, post, houts, hpre, he⟩ := hfail
          rw [run_cons] at houts
          cases pre with
          | nil =>
              rw [List.nil_append, List.cons.injEq] at houts
              have hnone := H.start_halt hW hP.1 hbuf (Nat.le_of_not_lt hshort)
                (congrArg Prod.snd houts.1) he
              exact ⟨(f s i).2, List.mem_cons_self, hnone⟩
          | cons r pre =>
              rw [List.cons_append, List.cons.injEq] at houts
              rw [List.forall_mem_cons] at hpre
              obtain ⟨hR, -⟩ := H.start hW hP.1 hbuf (Nat.le_of_not_lt hshort) (houts.1 ▸ hpre.1)
              obtain ⟨o', ho', hval⟩ :=
                H.run_next_fails hR hP.2 ⟨pre, o, e, post, houts.2, hpre.2, he⟩
              exact ⟨o', List.mem_cons_of_mem _ ho', hval⟩

end StrictPrelude

end Loop

end Framing
end Lib
end SsrNative
