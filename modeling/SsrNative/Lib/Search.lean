import Mathlib.Data.List.Basic
import Mathlib.Data.List.Infix
import Mathlib.Tactic.Common

/-!
# Search — the first occurrence of a pattern in a list

`findSub needle l` is the position of the first occurrence.  `Clash needle a` says that no position
of `a` can be the start of an occurrence, whatever follows `a`; it is decidable and closed under
concatenation, so it splits long texts into parts that are checked one by one.
-/

namespace SsrNative
namespace Lib
namespace Search

universe u

/-! ## Parts without an occurrence -/

variable {α : Type u}

/-- No position of `a` starts an occurrence, whatever follows. -/
def Clash (needle a : List α) : Prop :=
  ∀ j < a.length, ¬ (a.drop j).take needle.length <+: needle

theorem Clash.tail {needle a : List α} {x : α} (h : Clash needle (x :: a)) : Clash needle a := by
  intro j hj
  exact h (j + 1) (by simpa using hj)

theorem Clash.drop {needle a : List α} (h : Clash needle a) (n : ℕ) : Clash needle (a.drop n) := by
  intro j hj
  rw [List.length_drop] at hj
  rw [List.drop_drop]
  exact h (n + j) (by omega)

theorem Clash.append {needle a b : List α} (ha : Clash needle a) (hb : Clash needle b) :
    Clash needle (a ++ b) := by
  intro j hj hpre
  rw [List.length_append] at hj
  by_cases hja : j < a.length
  · refine ha j hja (List.IsPrefix.trans ?_ hpre)
    rw [List.drop_append_of_le_length (by omega)]
    exact (List.prefix_append _ _).take _
  · rw [List.drop_append, List.drop_of_length_le (by omega), List.nil_append] at hpre
    exact hb (j - a.length) (by omega) hpre

/-- A part in which the first item of the pattern does not occur. -/
theorem clash_of_not_mem {x : α} {rest a : List α} (h : x ∉ a) : Clash (x :: rest) a := by
  intro j hj hpre
  have hget : a.drop j = a[j] :: a.drop (j + 1) := List.drop_eq_getElem_cons hj
  rw [hget] at hpre
  simp only [List.length_cons, List.take_succ_cons, List.cons_prefix_cons] at hpre
  exact h (hpre.1 ▸ List.getElem_mem hj)

theorem Clash.no_start {needle a b : List α} {x : α} (h : Clash needle (x :: a)) :
    ¬ needle <+: x :: (a ++ b) := by
  intro hpre
  refine h 0 (by simp) ?_
  rw [List.drop_zero]
  have hcut : (x :: a).take needle.length <+: (x :: (a ++ b)).take needle.length := by
    have : x :: a <+: x :: (a ++ b) := by simp
    exact this.take _
  rwa [List.prefix_iff_eq_take.1 hpre |>.symm] at hcut

/-- An occurrence starts behind such a part. -/
theorem Clash.le_of_start {needle a b : List α} {i : ℕ} (h : Clash needle a)
    (hpre : needle <+: (a ++ b).drop i) : a.length ≤ i := by
  by_contra hi
  refine h i (by omega) ?_
  rw [List.drop_append_of_le_length (by omega)] at hpre
  have htake : (a.drop i).take needle.length <+: a.drop i ++ b :=
    (List.take_prefix _ _).trans (List.prefix_append _ _)
  exact List.prefix_of_prefix_length_le htake hpre (List.length_take_le _ _)

/-! ## The first occurrence -/

variable [DecidableEq α]

instance (needle a : List α) : Decidable (Clash needle a) :=
  inferInstanceAs (Decidable (∀ j < a.length, ¬ (a.drop j).take needle.length <+: needle))

/-- The position of the first occurrence of `needle`. -/
def findSub (needle : List α) : List α → Option ℕ
  | [] => if needle = [] then some 0 else none
  | x :: l => if needle <+: x :: l then some 0 else (findSub needle l).map (· + 1)

theorem findSub_zero {needle l : List α} (h : needle <+: l) : findSub needle l = some 0 := by
  cases l with
  | nil => simp [findSub, List.prefix_nil.1 h]
  | cons x l => simp [findSub, h]

theorem findSub_cons_of_not {needle l : List α} {x : α} (h : ¬ needle <+: x :: l) :
    findSub needle (x :: l) = (findSub needle l).map (· + 1) := by
  simp [findSub, h]

/-- The search finds an occurrence. -/
theorem prefix_drop_of_findSub {needle l : List α} {i : ℕ} (h : findSub needle l = some i) :
    needle <+: l.drop i := by
  induction l generalizing i with
  | nil =>
      by_cases hn : needle = []
      · simp [hn]
      · simp [findSub, hn] at h
  | cons x l ih =>
      by_cases hp : needle <+: x :: l
      · rw [findSub_zero hp] at h
        cases h
        exact hp
      · rw [findSub_cons_of_not hp] at h
        rcases Option.map_eq_some_iff.1 h with ⟨k, hk, rfl⟩
        exact ih hk

/-- The search finds something when there is an occurrence. -/
theorem findSub_ne_none {needle l : List α} {i : ℕ} (h : needle <+: l.drop i) :
    findSub needle l ≠ none := by
  induction l generalizing i with
  | nil =>
      rw [List.drop_nil, List.prefix_nil] at h
      simp [findSub, h]
  | cons x l ih =>
      by_cases hp : needle <+: x :: l
      · simp [findSub_zero hp]
      · rw [findSub_cons_of_not hp]
        cases i with
        | zero => exact absurd h hp
        | succ i =>
            have hrec := ih h
            simpa using hrec

/-- The search finds the first occurrence. -/
theorem not_prefix_of_lt {needle l : List α} {i j : ℕ} (h : findSub needle l = some i) (hj : j < i) :
    ¬ needle <+: l.drop j := by
  induction l generalizing i j with
  | nil =>
      by_cases hn : needle = []
      · simp only [findSub, if_pos hn, Option.some.injEq] at h
        omega
      · simp [findSub, hn] at h
  | cons x l ih =>
      by_cases hp : needle <+: x :: l
      · rw [findSub_zero hp, Option.some.injEq] at h
        omega
      · rw [findSub_cons_of_not hp] at h
        rcases Option.map_eq_some_iff.1 h with ⟨k, hk, rfl⟩
        cases j with
        | zero => exact hp
        | succ j => exact ih hk (Nat.lt_of_succ_lt_succ hj)

theorem findSub_eq_some_iff {needle l : List α} {i : ℕ} :
    findSub needle l = some i ↔ needle <+: l.drop i ∧ ∀ j < i, ¬ needle <+: l.drop j := by
  refine ⟨fun h => ⟨prefix_drop_of_findSub h, fun j => not_prefix_of_lt h⟩, ?_⟩
  rintro ⟨hocc, hfirst⟩
  cases hfind : findSub needle l with
  | none => exact absurd hfind (findSub_ne_none hocc)
  | some k =>
      have hle : i ≤ k := Nat.not_lt.1 fun hlt => hfirst k hlt (prefix_drop_of_findSub hfind)
      have hge : k ≤ i := Nat.not_lt.1 fun hlt => not_prefix_of_lt hfind hlt hocc
      rw [Nat.le_antisymm hge hle]

/-- An occurrence lies inside the list. -/
theorem findSub_le {needle l : List α} {i : ℕ} (h : findSub needle l = some i) (hne : needle ≠ []) :
    i + needle.length ≤ l.length := by
  have hpre := (prefix_drop_of_findSub h).length_le
  have hpos := List.length_pos_iff.2 hne
  rw [List.length_drop] at hpre
  omega

/-- What follows the first occurrence does not change it. -/
theorem findSub_append_of_some {needle a : List α} {i : ℕ} (h : findSub needle a = some i)
    (b : List α) : findSub needle (a ++ b) = some i := by
  induction a generalizing i with
  | nil =>
      by_cases hn : needle = []
      · subst hn
        rw [findSub_zero (by simp)] at h
        rw [findSub_zero (by simp), h]
      · simp [findSub, hn] at h
  | cons x a ih =>
      by_cases hp : needle <+: x :: a
      · rw [findSub_zero hp] at h
        rw [findSub_zero (hp.trans (List.prefix_append _ _)), h]
      · rw [findSub_cons_of_not hp] at h
        rcases Option.map_eq_some_iff.1 h with ⟨k, hk, rfl⟩
        have hlong : ¬ needle <+: x :: (a ++ b) := by
          -- it would be an occurrence at the front of `x :: a`, which is long enough for it
          intro hpre
          refine hp (List.prefix_of_prefix_length_le hpre (List.prefix_append (x :: a) b) ?_)
          have hle := (prefix_drop_of_findSub hk).length_le
          rw [List.length_drop] at hle
          rw [List.length_cons]
          omega
        rw [List.cons_append, findSub_cons_of_not hlong, ih hk]
        rfl

theorem findSub_of_append {needle a b : List α} {i : ℕ} (h : findSub needle (a ++ b) = some i)
    (hi : i + needle.length ≤ a.length) : findSub needle a = some i := by
  have hpre := prefix_drop_of_findSub h
  rw [List.drop_append_of_le_length (by omega)] at hpre
  have hocc : needle <+: a.drop i := by
    refine List.prefix_of_prefix_length_le hpre (List.prefix_append _ _) ?_
    rw [List.length_drop]
    omega
  cases hfind : findSub needle a with
  | none => exact absurd hfind (findSub_ne_none hocc)
  | some j => rw [← findSub_append_of_some hfind b, h]

/-- A search passes over such a part. -/
theorem findSub_append_of_clash {needle a : List α} (h : Clash needle a) (b : List α) :
    findSub needle (a ++ b) = (findSub needle b).map (· + a.length) := by
  induction a with
  | nil => simp
  | cons x a ih =>
      rw [List.cons_append, findSub_cons_of_not h.no_start, ih h.tail, Option.map_map]
      congr 1

/-- Nothing is found before all of the first occurrence has been seen. -/
theorem findSub_of_clash_short {needle a l : List α} (h : Clash needle a) (hl : l <+: a ++ needle)
    (hlen : l.length < a.length + needle.length) : findSub needle l = none := by
  rcases hl with ⟨r, hr⟩
  cases hfind : findSub needle l with
  | none => rfl
  | some i =>
      -- an occurrence would start inside `a`
      have hpre := prefix_drop_of_findSub hfind
      by_cases hne : needle = []
      · subst hne
        simp only [List.append_nil] at hr
        have hi : 0 < a.length := by
          simp only [List.length_nil] at hlen
          omega
        exact absurd (by simp) (h 0 hi)
      · have hle := findSub_le hfind hne
        refine absurd ?_ (h i (by omega))
        have hdrop : l.drop i ++ r = a.drop i ++ needle := by
          have := congrArg (List.drop i) hr
          rwa [List.drop_append_of_le_length (by omega),
            List.drop_append_of_le_length (by omega)] at this
        have hboth : needle <+: a.drop i ++ needle := hdrop ▸ hpre.trans (List.prefix_append _ _)
        have htake : (a.drop i).take needle.length <+: a.drop i ++ needle :=
          (List.take_prefix _ _).trans (List.prefix_append _ _)
        exact List.prefix_of_prefix_length_le htake hboth (List.length_take_le _ _)

/-- The first occurrence behind such a part. -/
theorem findSub_clash_needle {needle a : List α} (h : Clash needle a) (b : List α) :
    findSub needle (a ++ (needle ++ b)) = some a.length := by
  rw [findSub_append_of_clash h, findSub_zero (List.prefix_append _ _)]
  simp

/-! ## An occurrence anywhere -/

omit [DecidableEq α] in
theorem exists_prefix_drop {needle l : List α} (h : needle <:+: l) : ∃ i, needle <+: l.drop i := by
  rcases h with ⟨a, b, rfl⟩
  refine ⟨a.length, ?_⟩
  rw [List.append_assoc, List.drop_left]
  exact List.prefix_append needle b

theorem findSub_eq_none_iff {needle l : List α} : findSub needle l = none ↔ ¬ needle <:+: l := by
  constructor
  · intro hnone hoccurs
    rcases exists_prefix_drop hoccurs with ⟨i, hi⟩
    exact findSub_ne_none hi hnone
  · intro h
    cases hfind : findSub needle l with
    | none => rfl
    | some i => exact absurd ((prefix_drop_of_findSub hfind).isInfix.trans (List.drop_suffix i l).isInfix) h

/-- There is none in front of the first one. -/
theorem not_infix_take {needle l : List α} {i : ℕ} (h : findSub needle l = some i) (hne : needle ≠ []) :
    ¬ needle <:+: l.take i := by
  intro hoccurs
  rcases exists_prefix_drop hoccurs with ⟨j, hj⟩
  have hlen := hj.length_le
  have hpos := List.length_pos_iff.2 hne
  rw [List.length_drop, List.length_take] at hlen
  rw [List.drop_take] at hj
  exact not_prefix_of_lt h (by omega) (hj.trans (List.take_prefix _ _))

omit [DecidableEq α] in
/-- A part with none of the items of the pattern can be left out. -/
theorem infix_of_append_left {needle a b : List α} (h : needle <:+: a ++ b) (hb : ∀ x ∈ needle, x ∉ b) :
    needle <:+: a := by
  rcases h with ⟨s, t, hsplit⟩
  rcases List.append_eq_append_iff.1 hsplit with ⟨c, ha, -⟩ | ⟨c, hs, hbt⟩
  · exact ⟨s, c, ha.symm⟩
  · rcases List.eq_nil_or_concat' needle with rfl | ⟨n, x, rfl⟩
    · exact List.nil_infix
    rcases List.eq_nil_or_concat' c with rfl | ⟨c, y, rfl⟩
    · exact ⟨s, [], by rw [List.append_nil, hs, List.append_nil]⟩
    · -- the last item of the pattern would be in `b`
      rw [← List.append_assoc, ← List.append_assoc] at hs
      have hxy := List.append_inj_right' hs rfl
      rw [List.singleton_inj] at hxy
      refine absurd ?_ (hb x (List.mem_append_right n List.mem_cons_self))
      rw [hbt, hxy]
      exact List.mem_append_left _ (List.mem_append_right c List.mem_cons_self)

omit [DecidableEq α] in
theorem infix_of_append_right {needle a b : List α} (h : needle <:+: a ++ b) (ha : ∀ x ∈ needle, x ∉ a) :
    needle <:+: b := by
  rw [← List.reverse_infix] at h ⊢
  rw [List.reverse_append] at h
  refine infix_of_append_left h fun x hx hmem => ?_
  exact ha x (List.mem_reverse.1 hx) (List.mem_reverse.1 hmem)

end Search
end Lib
end SsrNative
