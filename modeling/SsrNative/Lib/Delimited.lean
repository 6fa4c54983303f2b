import SsrNative.Lib.Segments

/-!
# Delimited — streams of frames that tell their own size

`Delimiter.size` looks at the front of a list and gives the size of the frame there, once all of it
has arrived.  Every list then splits in exactly one way into complete frames and a rest
(`Splits.unique`), and a receiver that carries the rest over sees the same frames however the stream
was cut (`Receives.run_splits`).
-/

namespace SsrNative
namespace Lib
namespace Delimited

open Segments

universe u v w

variable {α : Type u}

/-- How the front of a list tells the size of the frame that stands there. -/
structure Delimiter (α : Type u) where
  size : List α → Option ℕ
  size_pos : ∀ {l n}, size l = some n → 0 < n
  size_le : ∀ {l n}, size l = some n → n ≤ l.length
  size_append : ∀ {l n}, size l = some n → ∀ m, size (l ++ m) = some n
  size_take : ∀ {l n}, size l = some n → size (l.take n) = some n

namespace Delimiter

variable (D : Delimiter α)

/-- A frame and nothing behind it. -/
def IsFrame (f : List α) : Prop := D.size f = some f.length

/-- `l` is some frames and then `rest`, which has no complete frame at its front. -/
structure Splits (l : List α) (fs : List (List α)) (rest : List α) : Prop where
  eq : l = fs.flatten ++ rest
  frames : ∀ f ∈ fs, D.IsFrame f
  incomplete : D.size rest = none

variable {D}

theorem size_nil : D.size [] = none := by
  cases h : D.size [] with
  | none => rfl
  | some n =>
      have hpos := D.size_pos h
      have hle := D.size_le h
      rw [List.length_nil] at hle
      omega

theorem IsFrame.ne_nil {f : List α} (h : D.IsFrame f) : f ≠ [] := by
  rintro rfl
  rw [IsFrame, size_nil] at h
  cases h

theorem IsFrame.size_append {f : List α} (h : D.IsFrame f) (l : List α) :
    D.size (f ++ l) = some f.length := D.size_append h l

namespace Splits

variable {l m r r' : List α} {fs gs : List (List α)}

theorem nil (h : D.size l = none) : D.Splits l [] l := ⟨rfl, by simp, h⟩

theorem cons {n : ℕ} (h : D.size l = some n) (hs : D.Splits (l.drop n) fs r) :
    D.Splits l (l.take n :: fs) r := by
  refine ⟨?_, ?_, hs.incomplete⟩
  · rw [List.flatten_cons, List.append_assoc, ← hs.eq, List.take_append_drop]
  · intro f hf
    rcases List.mem_cons.1 hf with rfl | hf
    · rw [IsFrame, D.size_take h, List.length_take, Nat.min_eq_left (D.size_le h)]
    · exact hs.frames f hf

/-- Frames and nothing else. -/
theorem of_frames (h : ∀ f ∈ fs, D.IsFrame f) : D.Splits fs.flatten fs [] :=
  ⟨(List.append_nil _).symm, h, size_nil⟩

/-- More arrives behind the rest. -/
theorem append (h : D.Splits l fs r) (h' : D.Splits (r ++ m) gs r') : D.Splits (l ++ m) (fs ++ gs) r' := by
  refine ⟨?_, ?_, h'.incomplete⟩
  · rw [h.eq, List.append_assoc, h'.eq, List.flatten_append, List.append_assoc]
  · intro f hf
    rcases List.mem_append.1 hf with hf | hf
    · exact h.frames f hf
    · exact h'.frames f hf

theorem unique (h : D.Splits l fs r) (h' : D.Splits l gs r') : fs = gs ∧ r = r' := by
  induction fs generalizing l gs with
  | nil =>
      have hl : l = r := h.eq
      cases gs with
      | nil => exact ⟨rfl, hl.symm.trans h'.eq⟩
      | cons g gs =>
          have hsize := (h'.frames g List.mem_cons_self).size_append (gs.flatten ++ r')
          rw [← List.append_assoc, ← List.flatten_cons, ← h'.eq, hl, h.incomplete] at hsize
          cases hsize
  | cons f fs ih =>
      have hsize := (h.frames f List.mem_cons_self).size_append (fs.flatten ++ r)
      rw [← List.append_assoc, ← List.flatten_cons, ← h.eq] at hsize
      cases gs with
      | nil =>
          have hl : l = r' := h'.eq
          rw [hl, h'.incomplete] at hsize
          cases hsize
      | cons g gs =>
          have hsize' := (h'.frames g List.mem_cons_self).size_append (gs.flatten ++ r')
          rw [← List.append_assoc, ← List.flatten_cons, ← h'.eq, hsize] at hsize'
          have hcat : f ++ (fs.flatten ++ r) = g ++ (gs.flatten ++ r') := by
            rw [← List.append_assoc, ← List.append_assoc, ← List.flatten_cons, ← List.flatten_cons,
              ← h.eq, ← h'.eq]
          obtain ⟨rfl, hrest⟩ := List.append_inj hcat (Option.some.inj hsize')
          have htail : D.Splits (fs.flatten ++ r) fs r :=
            ⟨rfl, fun f hf => h.frames f (List.mem_cons_of_mem _ hf), h.incomplete⟩
          have htail' : D.Splits (fs.flatten ++ r) gs r' :=
            ⟨hrest, fun f hf => h'.frames f (List.mem_cons_of_mem _ hf), h'.incomplete⟩
          obtain ⟨rfl, rfl⟩ := ih htail htail'
          exact ⟨rfl, rfl⟩

end Splits

theorem exists_splits (l : List α) : ∃ fs r, D.Splits l fs r := by
  generalize hn : l.length = n
  induction n using Nat.strongRecOn generalizing l with
  | _ n ih =>
      cases hsize : D.size l with
      | none => exact ⟨[], l, Splits.nil hsize⟩
      | some m =>
          have hpos := D.size_pos hsize
          have hle := D.size_le hsize
          obtain ⟨fs, r, hsplit⟩ := ih (l.drop m).length (by rw [List.length_drop]; omega) (l.drop m) rfl
          exact ⟨l.take m :: fs, r, Splits.cons hsize hsplit⟩

/-! ## Receivers -/

variable {σ : Type*} {τ : Type*} {ο : Type*} {ω : Type*}

/-- A receiver that carries bytes over.  A call takes the complete frames one after the other with
`take`, which works on the part `inner` of the state, and keeps the rest; `Out` tells what it returns
when it has taken some frames with these results.  `G` are the frames that the receiver is made for. -/
structure Receives (D : Delimiter α) (P : σ → Prop) (G : List α → Prop)
    (call : σ → List α → σ × ο) (carry : σ → List α) (inner : σ → τ) (take : τ → List α → τ × ω)
    (Out : List ω → ο → Prop) : Prop where
  next : ∀ s seg fs rest, P s → D.Splits (carry s ++ seg) fs rest → (∀ f ∈ fs, G f) →
    P (call s seg).1 ∧ carry (call s seg).1 = rest ∧
      (Segments.run take (inner s) fs).1 = inner (call s seg).1 ∧
      Out (Segments.run take (inner s) fs).2 (call s seg).2

/-- However the stream is cut, the frames of the whole stream are taken one after the other. -/
theorem Receives.run_splits {P : σ → Prop} {G : List α → Prop} {call : σ → List α → σ × ο}
    {carry : σ → List α} {inner : σ → τ} {take : τ → List α → τ × ω} {Out : List ω → ο → Prop}
    (H : Receives D P G call carry inner take Out) {s : σ} (hP : P s) (hs : D.size (carry s) = none)
    {segs : List (List α)} {fs : List (List α)} {rest : List α}
    (hsplit : D.Splits (carry s ++ segs.flatten) fs rest) (hG : ∀ f ∈ fs, G f) :
    ∃ rss, P (Segments.run call s segs).1 ∧ carry (Segments.run call s segs).1 = rest ∧
      Segments.run take (inner s) fs = (inner (Segments.run call s segs).1, rss.flatten) ∧
      List.Forall₂ Out rss (Segments.run call s segs).2 := by
  induction segs generalizing s fs with
  | nil =>
      rw [List.flatten_nil, List.append_nil] at hsplit
      obtain ⟨rfl, rfl⟩ := hsplit.unique (Splits.nil hs)
      exact ⟨[], hP, rfl, rfl, List.Forall₂.nil⟩
  | cons seg segs ih =>
      obtain ⟨gs, r, hfirst⟩ := exists_splits (D := D) (carry s ++ seg)
      obtain ⟨hs', r', hrest⟩ := exists_splits (D := D) (r ++ segs.flatten)
      -- the frames of the first piece stand in front of those of the others
      have hall : D.Splits (carry s ++ (seg :: segs).flatten) (gs ++ hs') r' := by
        rw [List.flatten_cons, ← List.append_assoc]
        exact hfirst.append hrest
      obtain ⟨rfl, rfl⟩ := hsplit.unique hall
      obtain ⟨hP', hcarry, hinner, hout⟩ := H.next s seg gs r hP hfirst
        fun f hf => hG f (List.mem_append_left _ hf)
      have hrest' : D.Splits (carry (call s seg).1 ++ segs.flatten) hs' rest := by
        rw [hcarry]
        exact hrest
      obtain ⟨rss, hPn, hcarryn, hrun, houts⟩ := ih hP' (by rw [hcarry]; exact hfirst.incomplete)
        hrest' fun f hf => hG f (List.mem_append_right _ hf)
      refine ⟨(Segments.run take (inner s) gs).2 :: rss, hPn, hcarryn, ?_, ?_⟩
      · rw [run_append, hinner, hrun, run_cons, List.flatten_cons]
      · rw [run_cons]
        exact List.Forall₂.cons hout houts

end Delimiter

end Delimited
end Lib
end SsrNative
