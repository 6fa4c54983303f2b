import Mathlib.Data.List.DropRight
import Mathlib.Data.List.TakeWhile
import Mathlib.Tactic.Common

/-!
# Text — separators and blanks in a list

`cut sep l` splits a list at the first separator, `cutLast sep l` at the last, `List.splitOn` at every one;
`trim p` drops what satisfies `p` from both ends.
-/

namespace SsrNative
namespace Lib
namespace Text

universe u

variable {α : Type u}

/-! ## The first separator -/

section Cut

variable [DecidableEq α]

/-- What stands before and after the first separator. -/
def cut (sep : α) : List α → Option (List α × List α)
  | [] => none
  | x :: l => if x = sep then some ([], l) else (cut sep l).map fun p => (x :: p.1, p.2)

theorem cut_append_cons {sep : α} {a : List α} (h : sep ∉ a) (b : List α) :
    cut sep (a ++ sep :: b) = some (a, b) := by
  induction a with
  | nil => simp [cut]
  | cons x a ih =>
      have hx : x ≠ sep := fun hx => h (hx ▸ List.mem_cons_self)
      rw [List.cons_append, cut, if_neg hx, ih fun hmem => h (List.mem_cons_of_mem x hmem)]
      rfl

theorem eq_of_cut {sep : α} {l a b : List α} (h : cut sep l = some (a, b)) :
    sep ∉ a ∧ l = a ++ sep :: b := by
  induction l generalizing a with
  | nil => simp [cut] at h
  | cons x l ih =>
      rw [cut] at h
      by_cases hx : x = sep
      · rw [if_pos hx] at h
        cases h
        exact ⟨List.not_mem_nil, by simp [hx]⟩
      · rw [if_neg hx] at h
        obtain ⟨p, hp, heq⟩ := Option.map_eq_some_iff.1 h
        cases heq
        obtain ⟨hmem, rfl⟩ := ih hp
        exact ⟨fun hsep => (List.mem_cons.1 hsep).elim (fun e => hx e.symm) hmem, rfl⟩

omit [DecidableEq α] in
/-- What comes first stands in front of the first separator. -/
theorem mem_of_append_eq {sep x : α} {a b p q : List α} (h : a ++ x :: b = p ++ sep :: q) (ha : sep ∉ a)
    (hx : x ≠ sep) : x ∈ p := by
  rcases List.append_eq_append_iff.1 h with ⟨l, hp, hrest⟩ | ⟨l, hsplit, hrest⟩
  · cases l with
    | nil => exact absurd (List.cons_eq_cons.1 hrest).1 hx
    | cons y l =>
        rw [hp, (List.cons_eq_cons.1 hrest).1]
        exact List.mem_append_right a List.mem_cons_self
  · cases l with
    | nil => exact absurd (List.cons_eq_cons.1 hrest).1.symm hx
    | cons y l =>
        rw [hsplit, (List.cons_eq_cons.1 hrest).1] at ha
        exact absurd (List.mem_append_right p List.mem_cons_self) ha

theorem not_mem_of_cut_eq_none {sep : α} {l : List α} (h : cut sep l = none) : sep ∉ l := by
  intro hmem
  obtain ⟨a, b, rfl, hnot⟩ := List.eq_append_cons_of_mem hmem
  rw [cut_append_cons hnot] at h
  cases h

/-- Splitting at every separator starts with a cut at the first. -/
theorem splitOn_of_cut {sep : α} {l a b : List α} (h : cut sep l = some (a, b)) :
    l.splitOn sep = a :: b.splitOn sep := by
  obtain ⟨hmem, rfl⟩ := eq_of_cut h
  exact List.splitOn_append_cons_self_of_not_mem hmem b

theorem splitOn_of_cut_eq_none {sep : α} {l : List α} (h : cut sep l = none) :
    l.splitOn sep = [l] :=
  List.splitOn_eq_singleton (not_mem_of_cut_eq_none h)

/-! ## The last separator -/

/-- What stands before and after the last separator. -/
def cutLast (sep : α) (l : List α) : Option (List α × List α) :=
  (cut sep l.reverse).map fun p => (p.2.reverse, p.1.reverse)

theorem cutLast_append_cons {sep : α} {b : List α} (h : sep ∉ b) (a : List α) :
    cutLast sep (a ++ sep :: b) = some (a, b) := by
  have hrev : (a ++ sep :: b).reverse = b.reverse ++ sep :: a.reverse := by simp
  rw [cutLast, hrev, cut_append_cons fun hmem => h (List.mem_reverse.1 hmem), Option.map_some,
    List.reverse_reverse, List.reverse_reverse]

theorem eq_of_cutLast {sep : α} {l a b : List α} (h : cutLast sep l = some (a, b)) :
    sep ∉ b ∧ l = a ++ sep :: b := by
  rcases Option.map_eq_some_iff.1 h with ⟨⟨b', a'⟩, hcut, heq⟩
  cases heq
  rcases eq_of_cut hcut with ⟨hmem, hrev⟩
  refine ⟨fun hsep => hmem (List.mem_reverse.1 hsep), ?_⟩
  rw [← List.reverse_reverse l, hrev]
  simp

theorem not_mem_of_cutLast_eq_none {sep : α} {l : List α} (h : cutLast sep l = none) : sep ∉ l := fun hmem =>
  not_mem_of_cut_eq_none (Option.map_eq_none_iff.1 h) (List.mem_reverse.2 hmem)

end Cut

/-! ## Blanks at both ends -/

section Trim

variable (p : α → Bool)

def trim (l : List α) : List α := (l.dropWhile p).rdropWhile p

variable {p}

theorem dropWhile_append_of_all {b : List α} (h : ∀ x ∈ b, p x = true) (l : List α) :
    (b ++ l).dropWhile p = l.dropWhile p := by
  induction b with
  | nil => rfl
  | cons x b ih =>
      rw [List.cons_append, List.dropWhile_cons_of_pos (h x List.mem_cons_self)]
      exact ih fun y hy => h y (List.mem_cons_of_mem x hy)

theorem rdropWhile_append_of_all {b : List α} (h : ∀ x ∈ b, p x = true) (l : List α) :
    (l ++ b).rdropWhile p = l.rdropWhile p := by
  have hrev : ∀ x ∈ b.reverse, p x = true := fun x hx => h x (List.mem_reverse.1 hx)
  rw [List.rdropWhile, List.reverse_append, dropWhile_append_of_all hrev, ← List.rdropWhile]

/-- Blanks around a text do not change what is left of it. -/
theorem trim_pad {b b' : List α} (hb : ∀ x ∈ b, p x = true) (hb' : ∀ x ∈ b', p x = true)
    (l : List α) : trim p (b ++ (l ++ b')) = trim p l := by
  rw [trim, dropWhile_append_of_all hb]
  by_cases hall : ∀ x ∈ l, p x = true
  · have hl := List.dropWhile_eq_nil_iff.2 hall
    have hl' : (l ++ b').dropWhile p = [] := by
      rw [dropWhile_append_of_all hall, List.dropWhile_eq_nil_iff]
      exact hb'
    rw [trim, hl, hl']
  · have hne : l.dropWhile p ≠ [] := fun h => hall (List.dropWhile_eq_nil_iff.1 h)
    rw [List.dropWhile_append, if_neg (by simpa using hne), rdropWhile_append_of_all hb', trim]

theorem trim_of_none {l : List α} (h : ∀ x ∈ l, p x = false) : trim p l = l := by
  have hdrop : l.dropWhile p = l := by
    cases l with
    | nil => rfl
    | cons x l => rw [List.dropWhile_cons_of_neg (by simp [h x List.mem_cons_self])]
  rw [trim, hdrop, List.rdropWhile_eq_self_iff]
  intro hne
  rw [h _ (List.getLast_mem hne)]
  exact Bool.false_ne_true

end Trim

end Text
end Lib
end SsrNative
