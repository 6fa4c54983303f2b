import SsrNative.Lib.Framing

/-!
# Passes — where a receive loop stands at each of its passes

Whether a loop ends with a certain error depends on the frames that it gets to.  `Visits` relates
the start of a loop to the states and buffers of its passes; a loop whose body checks a frame and
then computes with its sizes (`Guarded`) avoids an error in them exactly when the sizes of every
frame that passes its checks fit together.
-/

namespace SsrNative
namespace Lib
namespace Framing

open Segments

universe u v w x

section Loop

variable {σ : Type u} {α : Type x} {β : Type v} {ε : Type w}

/-- A pass of the loop that starts at `s` and `buf` stands at the last two arguments. -/
inductive Visits (step : σ → List α → Peel σ β ε) : σ → List α → σ → List α → Prop where
  | here (s : σ) (buf : List α) : Visits step s buf s buf
  | next {s s₁ s' : σ} {buf buf' : List α} {out : List β} {n : ℕ} :
      step s buf = .took s₁ out n → Visits step s₁ (buf.drop n) s' buf' → Visits step s buf s' buf'

/-- Every frame that the loop body takes is a part of the buffer that holds what it carries. -/
structure TakesFront (step : σ → List α → Peel σ β ε) : Prop where
  pos : ∀ {s buf s' out n}, step s buf = .took s' out n → 0 < n
  le_buf : ∀ {s buf s' out n}, step s buf = .took s' out n → n ≤ buf.length
  out_le : ∀ {s buf s' out n}, step s buf = .took s' out n → out.length ≤ n

variable {step : σ → List α → Peel σ β ε}

/-- The loop ends with an error exactly when one of its passes does. -/
theorem drain_stop_iff (H : TakesFront step) {e : ε} {fuel : ℕ} {s : σ} {buf : List α}
    {acc : List β} (hfuel : buf.length < fuel) :
    (drain step fuel s buf acc).stop = some e ↔
      ∃ s' buf', Visits step s buf s' buf' ∧ ∃ s₂, step s' buf' = .halt s₂ e := by
  -- on the fuel, by what the first pass does
  induction fuel generalizing s buf acc with
  | zero => omega
  | succ fuel ih =>
      cases h : step s buf with
      | more s₁ =>
          rw [drain_more h]
          constructor
          · intro hstop
            cases hstop
          · rintro ⟨s', buf', hv, s₂, hs₂⟩
            cases hv with
            | here => exact nomatch h.symm.trans hs₂
            | next htook _ => exact nomatch h.symm.trans htook
      | halt s₁ e' =>
          rw [drain_halt h]
          constructor
          · intro hstop
            cases hstop
            exact ⟨s, buf, .here s buf, s₁, h⟩
          · rintro ⟨s', buf', hv, s₂, hs₂⟩
            cases hv with
            | here =>
                rw [h] at hs₂
                cases hs₂
                rfl
            | next htook _ => exact nomatch h.symm.trans htook
      | took s₁ out n =>
          have hpos := H.pos h
          have hle := H.le_buf h
          rw [drain_took h, ih (by rw [List.length_drop]; omega)]
          constructor
          · rintro ⟨s', buf', hv, hs₂⟩
            exact ⟨s', buf', .next h hv, hs₂⟩
          · rintro ⟨s', buf', hv, s₂, hs₂⟩
            cases hv with
            | here => exact nomatch h.symm.trans hs₂
            | next htook hv =>
                rw [h] at htook
                cases htook
                exact ⟨s', buf', hv, s₂, hs₂⟩

/-- What the loop puts out and what it leaves are together no more than it was given. -/
theorem drain_length_le (H : TakesFront step) (fuel : ℕ) (s : σ) (buf : List α) (acc : List β) :
    (drain step fuel s buf acc).out.length + (drain step fuel s buf acc).rest.length ≤
      acc.length + buf.length := by
  induction fuel generalizing s buf acc with
  | zero => exact Nat.le_refl _
  | succ fuel ih =>
      cases h : step s buf with
      | more s₁ => simp [drain_more h]
      | halt s₁ e' => simp [drain_halt h]
      | took s₁ out n =>
          have hle := H.le_buf h
          have hout := H.out_le h
          have hrec := ih s₁ (buf.drop n) (acc ++ out)
          rw [List.length_append, List.length_drop] at hrec
          rw [drain_took h]
          omega

/-- A loop body that checks the frame at the front of the buffer, and then takes it or, when its sizes
do not fit together, ends the loop with the error `e`. -/
structure Guarded (step : σ → List α → Peel σ β ε) (e : ε) (Accepted Fits : σ → List α → Prop)
    (out : σ → List α → List β) (size : σ → List α → ℕ) : Prop where
  refuse : ∀ {s buf}, ¬ Accepted s buf →
    (∃ s', step s buf = .more s') ∨ ∃ s' e', step s buf = .halt s' e' ∧ e' ≠ e
  overrun : ∀ {s buf}, Accepted s buf → ¬ Fits s buf → ∃ s', step s buf = .halt s' e
  take : ∀ {s buf}, Accepted s buf → Fits s buf →
    ∃ s', step s buf = .took s' (out s buf) (size s buf)
  inside : ∀ {s buf}, Accepted s buf → Fits s buf →
    0 < size s buf ∧ size s buf ≤ buf.length ∧ (out s buf).length ≤ size s buf

namespace Guarded

variable {e : ε} {Accepted Fits : σ → List α → Prop} {out : σ → List α → List β}
  {size : σ → List α → ℕ}

theorem took_inv (H : Guarded step e Accepted Fits out size) {s s' : σ} {buf : List α}
    {o : List β} {n : ℕ} (h : step s buf = .took s' o n) :
    (Accepted s buf ∧ Fits s buf) ∧ o = out s buf ∧ n = size s buf := by
  by_cases ha : Accepted s buf
  · by_cases hf : Fits s buf
    · obtain ⟨s₁, hs₁⟩ := H.take ha hf
      rw [hs₁] at h
      cases h
      exact ⟨⟨ha, hf⟩, rfl, rfl⟩
    · obtain ⟨s₁, hs₁⟩ := H.overrun ha hf
      exact nomatch hs₁.symm.trans h
  · rcases H.refuse ha with ⟨s₁, hs₁⟩ | ⟨s₁, e', hs₁, -⟩
    · exact nomatch hs₁.symm.trans h
    · exact nomatch hs₁.symm.trans h

theorem takesFront (H : Guarded step e Accepted Fits out size) : TakesFront step where
  pos := by
    intro s buf s' o n h
    obtain ⟨⟨ha, hf⟩, -, rfl⟩ := H.took_inv h
    exact (H.inside ha hf).1
  le_buf := by
    intro s buf s' o n h
    obtain ⟨⟨ha, hf⟩, -, rfl⟩ := H.took_inv h
    exact (H.inside ha hf).2.1
  out_le := by
    intro s buf s' o n h
    obtain ⟨⟨ha, hf⟩, rfl, rfl⟩ := H.took_inv h
    exact (H.inside ha hf).2.2

theorem halt_iff (H : Guarded step e Accepted Fits out size) (s : σ) (buf : List α) :
    (∃ s', step s buf = .halt s' e) ↔ Accepted s buf ∧ ¬ Fits s buf := by
  constructor
  · rintro ⟨s', hs'⟩
    by_cases ha : Accepted s buf
    · refine ⟨ha, fun hf => ?_⟩
      obtain ⟨s₁, hs₁⟩ := H.take ha hf
      exact nomatch hs₁.symm.trans hs'
    · rcases H.refuse ha with ⟨s₁, hs₁⟩ | ⟨s₁, e', hs₁, he'⟩
      · exact nomatch hs₁.symm.trans hs'
      · rw [hs₁] at hs'
        cases hs'
        exact absurd rfl he'
  · rintro ⟨ha, hf⟩
    exact H.overrun ha hf

/-- The loop avoids the error exactly when every frame that passes its checks fits. -/
theorem drain_stop_ne_iff (H : Guarded step e Accepted Fits out size) {fuel : ℕ} {s : σ}
    {buf : List α} (acc : List β) (hfuel : buf.length < fuel) :
    (drain step fuel s buf acc).stop ≠ some e ↔
      ∀ s' buf', Visits step s buf s' buf' → Accepted s' buf' → Fits s' buf' := by
  rw [ne_eq, drain_stop_iff H.takesFront hfuel]
  constructor
  · intro hnone s' buf' hv ha
    by_contra hf
    exact hnone ⟨s', buf', hv, H.overrun ha hf⟩
  · rintro hall ⟨s', buf', hv, hs₂⟩
    obtain ⟨ha, hf⟩ := (H.halt_iff s' buf').1 hs₂
    exact hf (hall s' buf' hv ha)

end Guarded

end Loop

/-! ## Calls that stay inside what they received -/

/-- The call neither crashes nor returns and keeps more than it held and was given. -/
structure WithinReceived {τ ι ο β : Type*} (f : τ → ι → τ × ο) (held : τ → ℕ) (size : ι → ℕ)
    (crashed : ο → Prop) (items : ο → Option (List β)) (s : τ) (i : ι) : Prop where
  no_crash : ¬ crashed (f s i).2
  inside : ∀ out, items (f s i).2 = some out → out.length + held (f s i).1 ≤ held s + size i

/-- A call that is a pass of the loop stays inside exactly when every frame that passes its checks
fits. -/
theorem Guarded.within_iff {τ ι ο : Type*} {σ : Type u} {α : Type x} {β : Type v} {ε : Type w}
    {step : σ → List α → Peel σ β ε} {e : ε} {Accepted Fits : σ → List α → Prop}
    {out : σ → List α → List β} {size : σ → List α → ℕ} (H : Guarded step e Accepted Fits out size)
    {f : τ → ι → τ × ο} {held : τ → ℕ} {given : ι → ℕ} {crashed : ο → Prop}
    {items : ο → Option (List β)} {t : τ} {i : ι} {s : σ} {buf : List α} (acc : List β)
    (hbuf : acc.length + buf.length ≤ held t + given i)
    (hcrash : crashed (f t i).2 ↔ (drain step (buf.length + 1) s buf acc).stop = some e)
    (hitems : ∀ o, items (f t i).2 = some o → o = (drain step (buf.length + 1) s buf acc).out ∧
      held (f t i).1 = (drain step (buf.length + 1) s buf acc).rest.length) :
    WithinReceived f held given crashed items t i ↔
      ∀ s' buf', Visits step s buf s' buf' → Accepted s' buf' → Fits s' buf' := by
  rw [← H.drain_stop_ne_iff acc (Nat.lt_add_one _), ne_eq, ← hcrash]
  refine ⟨fun h => h.no_crash, fun h => ⟨h, fun o ho => ?_⟩⟩
  obtain ⟨rfl, hheld⟩ := hitems o ho
  rw [hheld]
  exact Nat.le_trans (drain_length_le H.takesFront _ _ _ _) hbuf

/-- A call that refuses its input stays inside what it received. -/
theorem WithinReceived.of_refused {τ ι ο β : Type*} {f : τ → ι → τ × ο} {held : τ → ℕ} {size : ι → ℕ}
    {crashed : ο → Prop} {items : ο → Option (List β)} {s : τ} {i : ι} (hcrash : ¬ crashed (f s i).2)
    (hitems : items (f s i).2 = none) : WithinReceived f held size crashed items s i := by
  refine ⟨hcrash, ?_⟩
  intro out hout
  rw [hitems] at hout
  cases hout

/-- A call that refuses what goes beyond a limit, and otherwise is a pass of the loop over all that has
arrived. -/
theorem Guarded.limited_within_iff {τ ι ο : Type*} {σ : Type u} {α : Type x} {β : Type v} {ε : Type w}
    {step : σ → List α → Peel σ β ε} {e : ε} {Accepted Fits : σ → List α → Prop}
    {out : σ → List α → List β} {size : σ → List α → ℕ} (H : Guarded step e Accepted Fits out size)
    {f : τ → ι → τ × ο} {held : τ → ℕ} {given : ι → ℕ} {crashed : ο → Prop}
    {items : ο → Option (List β)} {t : τ} {i : ι} {s : σ} {buf : List α} {limit : ℕ}
    (hrefused : limit < held t + given i → ¬ crashed (f t i).2 ∧ items (f t i).2 = none)
    (hbuf : buf.length = held t + given i)
    (hcrash : held t + given i ≤ limit →
      (crashed (f t i).2 ↔ (drain step (buf.length + 1) s buf []).stop = some e))
    (hitems : held t + given i ≤ limit → ∀ o, items (f t i).2 = some o →
      o = (drain step (buf.length + 1) s buf []).out ∧
        held (f t i).1 = (drain step (buf.length + 1) s buf []).rest.length) :
    WithinReceived f held given crashed items t i ↔
      (held t + given i ≤ limit → ∀ s' buf', Visits step s buf s' buf' →
        Accepted s' buf' → Fits s' buf') := by
  by_cases hlimit : limit < held t + given i
  · obtain ⟨hno, hnone⟩ := hrefused hlimit
    exact iff_of_true (.of_refused hno hnone) fun hle => absurd hlimit (Nat.not_lt.2 hle)
  · have hle := Nat.not_lt.1 hlimit
    rw [imp_iff_right hle]
    exact H.within_iff [] (by simp [hbuf]) (hcrash hle) (hitems hle)

end Framing
end Lib
end SsrNative
