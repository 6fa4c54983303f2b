import Mathlib.Data.Finset.Card
import Mathlib.Data.List.Dedup
import Mathlib.Data.List.Nodup
import Mathlib.Tactic.Common

/-!
# Recency — a bounded list of keys, the least recently used one first

A key that is used moves to the end of the list, a key that is inserted is put there, and an insertion
that makes the list reach its bound takes off the first key.  `Window` is what every run keeps of it; the
order of the list is that of the last uses, and so a key stays until enough others have been used.
-/

namespace SsrNative
namespace Lib
namespace Recency

universe u

variable {α : Type u}

/-! ## Events -/

inductive Event (α : Type u) where
  /-- The key is looked up; it is used if it is there. -/
  | touch (k : α)
  | remove (k : α)
  | insert (k : α)
  deriving DecidableEq

/-- `j` was used after the last use of `k`. -/
def LessRecent (us : List α) (k j : α) : Prop := ∃ a b, us = a ++ b ∧ k ∉ b ∧ j ∈ b

section Apply

variable [BEq α] [LawfulBEq α]

/-- `max` is the length at which the oldest key goes. -/
def act (max : ℕ) (l : List α) : Event α → List α
  | .touch k => if k ∈ l then l.erase k ++ [k] else l
  | .remove k => l.erase k
  | .insert k => if max ≤ (l ++ [k]).length then (l ++ [k]).tail else l ++ [k]

/-- The key that an event uses. -/
def uses (l : List α) : Event α → List α
  | .touch k => if k ∈ l then [k] else []
  | .remove _ => []
  | .insert k => [k]

/-- What is inserted is not there yet. -/
def Fresh (l : List α) : Event α → Prop
  | .touch _ => True
  | .remove _ => True
  | .insert k => k ∉ l

instance (l : List α) : ∀ e, Decidable (Fresh l e)
  | .touch _ => inferInstanceAs (Decidable True)
  | .remove _ => inferInstanceAs (Decidable True)
  | .insert k => inferInstanceAs (Decidable (k ∉ l))

def actAll (max : ℕ) : List α → List (Event α) → List α
  | l, [] => l
  | l, e :: es => actAll max (act max l e) es

def usesAll (max : ℕ) : List α → List (Event α) → List α
  | _, [] => []
  | l, e :: es => uses l e ++ usesAll max (act max l e) es

def FreshAll (max : ℕ) : List α → List (Event α) → Prop
  | _, [] => True
  | l, e :: es => Fresh l e ∧ FreshAll max (act max l e) es

end Apply

/-! ## One event -/

theorem lessRecent_append_right {us : List α} {k j : α} (h : LessRecent us k j) {vs : List α}
    (hk : k ∉ vs) : LessRecent (us ++ vs) k j := by
  obtain ⟨a, b, rfl, hb, hj⟩ := h
  refine ⟨a, b ++ vs, List.append_assoc a b vs, ?_, List.mem_append_left _ hj⟩
  rw [List.mem_append, not_or]
  exact ⟨hb, hk⟩

theorem lessRecent_concat {us : List α} {k j : α} (h : k ≠ j) : LessRecent (us ++ [j]) k j :=
  ⟨us, [j], rfl, by simpa using h, by simp⟩

/-- The keys of `l` are distinct, and stand in the order of their last uses in `us`. -/
structure Window (max : ℕ) (us l : List α) : Prop where
  length_lt : l.length < max
  nodup : l.Nodup
  ordered : l.Pairwise (LessRecent us)

section Step

variable {max : ℕ} {us l : List α}

theorem window_nil (hmax : 1 ≤ max) : Window max us ([] : List α) :=
  ⟨hmax, List.nodup_nil, List.Pairwise.nil⟩

theorem Window.sublist (h : Window max us l) {l' : List α} (hsub : l'.Sublist l) :
    Window max us l' :=
  ⟨lt_of_le_of_lt hsub.length_le h.length_lt, h.nodup.sublist hsub, h.ordered.sublist hsub⟩

/-- A key that is put at the end is the one used last. -/
theorem ordered_concat (h : l.Pairwise (LessRecent us)) {k : α} (hk : k ∉ l) :
    (l ++ [k]).Pairwise (LessRecent (us ++ [k])) := by
  have hne : ∀ j ∈ l, j ≠ k := fun j hj hjk => hk (hjk ▸ hj)
  rw [List.pairwise_append]
  refine ⟨?_, List.pairwise_singleton _ _, ?_⟩
  · refine h.imp_of_mem ?_
    intro i j hi _ hij
    exact lessRecent_append_right hij (by simpa using hne i hi)
  · intro i hi j hj
    rw [List.mem_singleton.1 hj]
    exact lessRecent_concat (hne i hi)

theorem nodup_concat (h : l.Nodup) {k : α} (hk : k ∉ l) : (l ++ [k]).Nodup := by
  rw [← List.concat_eq_append]
  exact List.Nodup.concat hk h

variable [BEq α] [LawfulBEq α]

theorem Window.act (h : Window max us l) (e : Event α) (hfresh : Fresh l e) :
    Window max (us ++ uses l e) (Recency.act max l e) := by
  cases e with
  | touch k =>
      -- a key that is there moves to the end, and nothing gets longer
      by_cases hk : k ∈ l
      · have herase : k ∉ l.erase k := h.nodup.not_mem_erase
        have hlen : (l.erase k ++ [k]).length = l.length := by
          rw [List.length_append, List.length_erase_of_mem hk, List.length_singleton]
          have := List.length_pos_of_mem hk
          omega
        simp only [Recency.act, uses, if_pos hk]
        exact ⟨by rw [hlen]; exact h.length_lt, nodup_concat (h.nodup.erase k) herase,
          ordered_concat (h.ordered.sublist List.erase_sublist) herase⟩
      · simpa only [Recency.act, uses, if_neg hk, List.append_nil] using h
  | remove k =>
      rw [uses, List.append_nil]
      exact h.sublist List.erase_sublist
  | insert k =>
      -- a new key goes to the end; at `max` keys the first one goes
      have hlen := h.length_lt
      have hnodup := nodup_concat h.nodup hfresh
      have hordered := ordered_concat h.ordered hfresh
      simp only [Recency.act, uses]
      split_ifs with hfull
      · refine ⟨?_, hnodup.tail, hordered.tail⟩
        rw [List.length_tail, List.length_append, List.length_singleton]
        omega
      · exact ⟨Nat.lt_of_not_le hfull, hnodup, hordered⟩

/-- The key that an insertion takes off is the one whose last use is the longest ago. -/
theorem Window.evicts_least (h : Window max us l) {k : α} (hfresh : k ∉ l) {i : α}
    (hi : i ∈ l ++ [k]) (hgone : i ∉ Recency.act max l (.insert k)) :
    ∀ j ∈ Recency.act max l (.insert k), LessRecent (us ++ [k]) i j := by
  have hordered := ordered_concat h.ordered hfresh
  intro j hj
  simp only [Recency.act] at hj hgone
  split_ifs at hj hgone with hfull
  · -- only the first key can be missing, and the order puts it before all others
    cases hl : l ++ [k] with
    | nil => simp at hl
    | cons x xs =>
        rw [hl] at hi hj hgone hordered
        have hix : i = x := by
          rcases List.mem_cons.1 hi with rfl | hmem
          · rfl
          · exact absurd hmem hgone
        subst hix
        exact List.rel_of_pairwise_cons hordered hj
  · exact absurd hi hgone

end Step

/-! ## Runs -/

section Run

variable [BEq α] [LawfulBEq α] {max : ℕ} {us l : List α}

theorem usesAll_append (l : List α) (es es' : List (Event α)) :
    usesAll max l (es ++ es') = usesAll max l es ++ usesAll max (actAll max l es) es' := by
  induction es generalizing l with
  | nil => rfl
  | cons e es ih =>
      rw [List.cons_append, usesAll, usesAll, ih, List.append_assoc]
      rfl

theorem freshAll_append (l : List α) (es es' : List (Event α)) :
    FreshAll max l (es ++ es') ↔ FreshAll max l es ∧ FreshAll max (actAll max l es) es' := by
  induction es generalizing l with
  | nil => simp [FreshAll, actAll]
  | cons e es ih =>
      rw [List.cons_append, FreshAll, FreshAll, ih, and_assoc]
      rfl

theorem Window.actAll (h : Window max us l) {es : List (Event α)} (hfresh : FreshAll max l es) :
    Window max (us ++ usesAll max l es) (actAll max l es) := by
  induction es generalizing us l with
  | nil => simpa [usesAll, Recency.actAll] using h
  | cons e es ih =>
      have hrec := ih (h.act e hfresh.1) hfresh.2
      rwa [List.append_assoc] at hrec

end Run

/-! ## What was used since -/

section Since

variable {l : List α} {k : α} {used : Finset α}

/-- `k` is there, and what stands behind it was used since. -/
def Since (l : List α) (k : α) (used : Finset α) : Prop :=
  ∃ pre post, l = pre ++ k :: post ∧ ∀ j ∈ post, j ∈ used

theorem Since.mem (h : Since l k used) : k ∈ l := by
  obtain ⟨pre, post, rfl, -⟩ := h
  simp

theorem since_concat (l : List α) (k : α) : Since (l ++ [k]) k ∅ := ⟨l, [], rfl, nofun⟩

theorem Since.mono {used' : Finset α} (h : Since l k used) (hsub : used ⊆ used') :
    Since l k used' := by
  obtain ⟨pre, post, rfl, hpost⟩ := h
  exact ⟨pre, post, rfl, fun j hj => hsub (hpost j hj)⟩

theorem Since.concat [DecidableEq α] {j : α} (h : Since l k used) :
    Since (l ++ [j]) k (insert j used) := by
  obtain ⟨pre, post, rfl, hpost⟩ := h
  refine ⟨pre, post ++ [j], by simp, ?_⟩
  intro i hi
  rcases List.mem_append.1 hi with hi | hi
  · exact Finset.mem_insert_of_mem (hpost i hi)
  · exact Finset.mem_insert.2 (.inl (List.mem_singleton.1 hi))

theorem Since.erase [BEq α] [LawfulBEq α] {j : α} (hne : j ≠ k) (h : Since l k used) :
    Since (l.erase j) k used := by
  obtain ⟨pre, post, rfl, hpost⟩ := h
  by_cases hj : j ∈ pre
  · exact ⟨pre.erase j, post, List.erase_append_left _ hj, hpost⟩
  · refine ⟨pre, post.erase j, ?_, fun i hi => hpost i (List.mem_of_mem_erase hi)⟩
    rw [List.erase_append_right _ hj, List.erase_cons_tail (by simpa using hne.symm)]

/-- The first key is not `k` as long as too few others have been used. -/
theorem Since.tail [DecidableEq α] (h : Since l k used) (hnodup : l.Nodup)
    (hfew : (used.erase k).card + 1 < l.length) : Since l.tail k used := by
  obtain ⟨pre, post, rfl, hpost⟩ := h
  cases pre with
  | cons x pre => exact ⟨pre, post, rfl, hpost⟩
  | nil =>
      rw [List.nil_append, List.nodup_cons] at hnodup
      -- `k` is first: everything behind it was used since, and that is too much
      have hsub : post.toFinset ⊆ used.erase k := by
        intro j hj
        rw [List.mem_toFinset] at hj
        exact Finset.mem_erase.2 ⟨fun hjk => hnodup.1 (hjk ▸ hj), hpost j hj⟩
      have hcard := Finset.card_le_card hsub
      rw [List.toFinset_card_of_nodup hnodup.2] at hcard
      rw [List.nil_append, List.length_cons] at hfew
      omega

end Since

/-! ## What was used stays -/

section Stays

variable [BEq α] [LawfulBEq α] {max : ℕ} {us l : List α} {k : α}

/-- Behind an event that uses `k`. -/
theorem since_of_uses {e : Event α} (hk : k ∈ uses l e) (hmax : 2 ≤ max) :
    Since (act max l e) k ∅ := by
  cases e with
  | touch j =>
      simp only [uses, Recency.act] at hk ⊢
      split_ifs at hk ⊢ with hj
      · rw [List.mem_singleton.1 hk]
        exact since_concat _ j
      · cases hk
  | remove j => cases hk
  | insert j =>
      rw [uses, List.mem_singleton] at hk
      subst hk
      simp only [Recency.act]
      split_ifs with hfull
      · cases l with
        -- an insertion that takes its own key off again would need a capacity of one
        | nil =>
            rw [List.nil_append, List.length_singleton] at hfull
            omega
        | cons x l => exact since_concat l k
      · exact since_concat l k

variable [DecidableEq α]

theorem Since.act {used : Finset α} (h : Since l k used) (hw : Window max us l)
    {e : Event α} (hfresh : Fresh l e) (hkeep : e ≠ .remove k)
    (hfew : ((used ∪ (uses l e).toFinset).erase k).card < max - 1) :
    Since (act max l e) k (used ∪ (uses l e).toFinset) := by
  cases e with
  | touch j =>
      by_cases hj : j ∈ l
      · simp only [Recency.act, uses, if_pos hj]
        by_cases hjk : j = k
        · -- `k` itself is used again: it is the last one
          subst hjk
          exact (since_concat (l.erase j) j).mono (Finset.empty_subset _)
        · refine ((h.erase hjk).concat (j := j)).mono ?_
          intro i hi
          rcases Finset.mem_insert.1 hi with rfl | hi
          · simp
          · exact Finset.mem_union_left _ hi
      · simpa [Recency.act, uses, hj] using h
  | remove j =>
      have hjk : j ≠ k := fun hjk => hkeep (hjk ▸ rfl)
      simpa [Recency.act, uses] using h.erase hjk
  | insert j =>
      -- the key in front of `k`, if any, is the one to go
      have hsince : Since (l ++ [j]) k (used ∪ ([j] : List α).toFinset) := by
        refine (h.concat (j := j)).mono ?_
        intro i hi
        rcases Finset.mem_insert.1 hi with rfl | hi
        · simp
        · exact Finset.mem_union_left _ hi
      simp only [Recency.act, uses] at hfew ⊢
      split_ifs with hfull
      · exact hsince.tail (nodup_concat hw.nodup hfresh) (by omega)
      · exact hsince

/-- A key that is used stays until `max - 1` others have been used, or it is removed. -/
theorem Since.actAll {used : Finset α} (h : Since l k used) (hw : Window max us l)
    {es : List (Event α)} (hfresh : FreshAll max l es) (hkeep : .remove k ∉ es)
    (hfew : ((used ∪ (usesAll max l es).toFinset).erase k).card < max - 1) :
    k ∈ actAll max l es := by
  induction es generalizing us l used with
  | nil => exact h.mem
  | cons e es ih =>
      -- the bound for the whole run is one for its first event, as the set only grows
      rw [List.mem_cons, not_or] at hkeep
      rw [usesAll, List.toFinset_append, ← Finset.union_assoc] at hfew
      have hstep := h.act hw hfresh.1 (Ne.symm hkeep.1)
        (lt_of_le_of_lt (Finset.card_le_card (Finset.erase_subset_erase _
          Finset.subset_union_left)) hfew)
      exact ih hstep (hw.act e hfresh.1) hfresh.2 hkeep.2 hfew

theorem mem_of_used_since {e : Event α} {es : List (Event α)}
    (hmax : 2 ≤ max) (hw : Window max us l) (hfresh : FreshAll max l (e :: es))
    (hk : k ∈ uses l e) (hkeep : .remove k ∉ es)
    (hfew : ((usesAll max (act max l e) es).toFinset.erase k).card < max - 1) :
    k ∈ Recency.actAll max (Recency.act max l e) es := by
  refine (since_of_uses hk hmax).actAll (hw.act e hfresh.1) hfresh.2 hkeep ?_
  rwa [Finset.empty_union]

end Stays

end Recency
end Lib
end SsrNative
