import Mathlib.Data.List.Sort
import SsrNative.RbTreeOps

/-!
# RbTreeRuns — any sequence of calls

A tree that refuses duplicates is a sorted list of keys: it is what `act` makes of the list, and its answers are
those of `answer`.  Every sequence of calls runs to its end: no node is touched that was given back, no
assertion fails, and no loop takes more steps than twice the logarithm of the number of keys.
-/

namespace SsrNative

open Lib Lib.RedBlackTree
open scoped List

inductive RbtCall (κ : Type) where
  /-- `mem` is what the allocator answers. -/
  | insert (key : κ) (mem : Option Ptr)
  | find (key : κ)
  | remove (key : κ)

inductive RbtAnswer (κ : Type) where
  | status (s : RbtStatus)
  | key (k : Option κ)

namespace RbtTree

variable {κ : Type}

/-! ## The code -/

section Code

variable (compare : κ → κ → ℤ) (fuel : ℕ)

def call (T : RbtTree κ) : RbtCall κ → Option (RbtTree κ × RbtAnswer κ)
  | .insert key mem => do
      let r ← T.rbtTreeInsert compare fuel key mem
      return (r.1, .status r.2)
  | .find key => do
      let p ← T.rbtTreeFind compare fuel key
      let k ← T.rbtNodeGetKey p
      return (T, .key k)
  | .remove key => do
      let r ← T.rbtTreeRemoveNode compare fuel key
      return (r.1, .status r.2)

def runCalls (T : RbtTree κ) : List (RbtCall κ) → Option (RbtTree κ × List (RbtAnswer κ))
  | [] => some (T, [])
  | c :: cs => do
      let r ← T.call compare fuel c
      let rest ← runCalls r.1 cs
      return (rest.1, r.2 :: rest.2)

/-- The allocator never hands out the address of a node that is in use. -/
def FreshMemory (T : RbtTree κ) : List (RbtCall κ) → Prop
  | [] => True
  | c :: cs => (∀ key z, c = .insert key (some z) → T.nodes z = none) ∧
      ∀ r, T.call compare fuel c = some r → FreshMemory r.1 cs

end Code

/-! ## The list of keys -/

section Keys

variable (compare : κ → κ → ℤ)

def holds (keys : List κ) (key : κ) : Bool := keys.any fun k => compare key k = 0

def act (keys : List κ) : RbtCall κ → List κ
  | .insert key mem =>
      if holds compare keys key ∨ mem = none then keys else keys.orderedInsert (fun a b => compare a b < 0) key
  | .find _ => keys
  | .remove key => keys.filter fun k => compare key k ≠ 0

def answer (keys : List κ) : RbtCall κ → RbtAnswer κ
  | .insert key mem =>
      .status (if holds compare keys key then .keyDuplicate else if mem = none then .memoryOut else .success)
  | .find key => .key (keys.find? fun k => compare key k = 0)
  | .remove key => .status (if holds compare keys key then .success else .keyNotExist)

/-- The keys that a call hands to the destructor. -/
def dropped (keys : List κ) : RbtCall κ → List κ
  | .insert _ _ => []
  | .find _ => []
  | .remove key => keys.filter fun k => compare key k = 0

/-- The keys that a call leaves in the tree's care. -/
def accepted (keys : List κ) : RbtCall κ → List κ
  | .insert key mem => if holds compare keys key ∨ mem = none then [] else [key]
  | .find _ => []
  | .remove _ => []

def answers (keys : List κ) : List (RbtCall κ) → List (RbtAnswer κ)
  | [] => []
  | c :: cs => answer compare keys c :: answers (act compare keys c) cs

def droppedAll (keys : List κ) : List (RbtCall κ) → List κ
  | [] => []
  | c :: cs => dropped compare keys c ++ droppedAll (act compare keys c) cs

def acceptedAll (keys : List κ) : List (RbtCall κ) → List κ
  | [] => []
  | c :: cs => accepted compare keys c ++ acceptedAll (act compare keys c) cs

theorem act_perm (keys : List κ) (c : RbtCall κ) :
    (dropped compare keys c ++ act compare keys c).Perm (accepted compare keys c ++ keys) := by
  cases c with
  | insert key mem =>
      rw [dropped, List.nil_append, act, accepted]
      split_ifs
      · exact List.Perm.refl _
      · exact List.perm_orderedInsert _ _ _
  | find key => exact List.Perm.refl _
  | remove key =>
      have hsplit := List.filter_append_perm (fun k => decide (compare key k = 0)) keys
      simpa [dropped, act, accepted] using hsplit

/-- Every key accepted is dropped or still there. -/
theorem droppedAll_perm (keys : List κ) (calls : List (RbtCall κ)) :
    (droppedAll compare keys calls ++ calls.foldl (act compare) keys).Perm
      (acceptedAll compare keys calls ++ keys) := by
  induction calls generalizing keys with
  | nil => exact List.Perm.refl _
  | cons c cs ih =>
      rw [droppedAll, acceptedAll, List.foldl_cons, List.append_assoc, List.append_assoc]
      calc dropped compare keys c ++ (droppedAll compare (act compare keys c) cs ++ cs.foldl (act compare) _)
          ~ dropped compare keys c ++ (acceptedAll compare (act compare keys c) cs ++ act compare keys c) :=
            (ih _).append_left _
        _ ~ acceptedAll compare (act compare keys c) cs ++ (dropped compare keys c ++ act compare keys c) :=
            List.perm_append_comm_assoc _ _ _
        _ ~ acceptedAll compare (act compare keys c) cs ++ (accepted compare keys c ++ keys) :=
            (act_perm compare keys c).append_left _
        _ ~ accepted compare keys c ++ (acceptedAll compare (act compare keys c) cs ++ keys) :=
            List.perm_append_comm_assoc _ _ _

theorem act_length (keys : List κ) (c : RbtCall κ) : (act compare keys c).length ≤ keys.length + 1 := by
  cases c with
  | insert key mem =>
      rw [act]
      split_ifs
      · exact Nat.le_succ _
      · exact (List.orderedInsert_length _ _ _).le
  | find key => exact Nat.le_succ _
  | remove key => exact (List.length_filter_le _ _).trans (Nat.le_succ _)

theorem foldl_act_length (keys : List κ) (calls : List (RbtCall κ)) :
    (calls.foldl (act compare) keys).length ≤ keys.length + calls.length := by
  induction calls generalizing keys with
  | nil => exact le_rfl
  | cons c cs ih =>
      have hfirst := act_length compare keys c
      have hrest := ih (act compare keys c)
      rw [List.foldl_cons, List.length_cons]
      omega

end Keys

/-! ## Refinement -/

variable {compare : κ → κ → ℤ} {T : RbtTree κ} {elems : List (Ptr × κ)} {fuel : ℕ}

theorem holds_iff {key : κ} : holds compare (elems.map Prod.snd) key = true ↔ ∃ a ∈ elems, compare key a.2 = 0 := by
  simp [holds]

theorem orderedInsert_at {key : κ} {pre post : List κ} (hpre : ∀ k ∈ pre, ¬ compare key k < 0)
    (hpost : ∀ k ∈ post, compare key k < 0) :
    (pre ++ post).orderedInsert (fun a b => compare a b < 0) key = pre ++ key :: post := by
  induction pre with
  | nil =>
      cases post with
      | nil => rfl
      | cons k post => exact if_pos (hpost k (List.mem_cons_self ..))
  | cons k pre ih =>
      rw [List.cons_append, List.orderedInsert, if_neg (hpre k (List.mem_cons_self ..)),
        ih fun j hj => hpre j (List.mem_cons_of_mem _ hj)]
      rfl

/-- In a strictly sorted list one key at most compares equal. -/
theorem unique_at (hcmp : Comparison.Lawful compare) {pre post : List κ} {a key : κ}
    (hsorted : (pre ++ a :: post).Pairwise fun j k => compare j k < 0) (ha : compare key a = 0) :
    (∀ k ∈ pre, compare key k ≠ 0) ∧ ∀ k ∈ post, compare key k ≠ 0 := by
  rw [List.pairwise_append, List.pairwise_cons] at hsorted
  constructor
  · intro k hk hzero
    have hlt := hsorted.2.2 k hk a (List.mem_cons_self ..)
    rw [← hcmp.lt_iff_of_eq_zero hzero] at hlt
    exact hlt.ne ha
  · intro k hk hzero
    have hlt := hsorted.2.1.1 k hk
    rw [← hcmp.lt_iff_of_eq_zero ha] at hlt
    exact hlt.ne hzero

theorem filter_ne_at {pre post : List κ} {a key : κ}
    (hunique : (∀ k ∈ pre, compare key k ≠ 0) ∧ ∀ k ∈ post, compare key k ≠ 0) (ha : compare key a = 0) :
    (pre ++ a :: post).filter (fun k => compare key k ≠ 0) = pre ++ post := by
  have hpre : pre.filter (fun k => compare key k ≠ 0) = pre := List.filter_eq_self.2 (by simpa using hunique.1)
  have hpost : post.filter (fun k => compare key k ≠ 0) = post := List.filter_eq_self.2 (by simpa using hunique.2)
  rw [List.filter_append, List.filter_cons_of_neg (by simpa using ha), hpre, hpost]

theorem filter_eq_at {pre post : List κ} {a key : κ}
    (hunique : (∀ k ∈ pre, compare key k ≠ 0) ∧ ∀ k ∈ post, compare key k ≠ 0) (ha : compare key a = 0) :
    (pre ++ a :: post).filter (fun k => compare key k = 0) = [a] := by
  have hpre : pre.filter (fun k => compare key k = 0) = [] := List.filter_eq_nil_iff.2 (by simpa using hunique.1)
  have hpost : post.filter (fun k => compare key k = 0) = [] := List.filter_eq_nil_iff.2 (by simpa using hunique.2)
  rw [List.filter_append, List.filter_cons_of_pos (by simpa using ha), hpre, hpost, List.nil_append]

theorem Contains.strict (hT : Contains compare T elems) (hdup : T.allowDup = false) :
    (elems.map Prod.snd).Pairwise fun j k => compare j k < 0 := by
  rw [List.pairwise_map]
  have horder := hT.inOrder
  rw [hdup] at horder
  exact horder

theorem Contains.getKey (hT : Contains compare T elems) {a : Ptr × κ} (ha : a ∈ elems) :
    T.rbtNodeGetKey a.1 = some (some a.2) := by
  have hne : a.1 ≠ nil := hT.ne_nil ha
  rcases hT.exists_tree with ⟨sn, t, n, _, _, rfl, hM, _⟩
  rcases List.append_of_mem ha with ⟨pre, post, hlist⟩
  rcases exists_place hlist [] with ⟨c, l, r, path, hplug, _, _⟩
  rw [plug] at hplug
  rw [← hplug] at hM
  rcases exists_cell (s := .left) hM with ⟨M, hcell⟩
  rw [rbtNodeGetKey, if_neg hne, hcell.get, Option.map_some, RbtNode.key_cell]

/-- What one call does. -/
structure CallSpec (compare : κ → κ → ℤ) (T : RbtTree κ) (keys : List κ) (c : RbtCall κ) (T' : RbtTree κ)
    (elems' : List (Ptr × κ)) : Prop where
  contains : Contains compare T' elems'
  keys_eq : elems'.map Prod.snd = act compare keys c
  allowDup_eq : T'.allowDup = T.allowDup
  destructed_eq : T'.destructed = T.destructed ++ dropped compare keys c

theorem CallSpec.unchanged {c : RbtCall κ} (hT : Contains compare T elems)
    (hact : act compare (elems.map Prod.snd) c = elems.map Prod.snd)
    (hdropped : dropped compare (elems.map Prod.snd) c = []) :
    CallSpec compare T (elems.map Prod.snd) c T elems :=
  ⟨hT, hact.symm, rfl, by rw [hdropped, List.append_nil]⟩

theorem call_insert (hcmp : Comparison.Lawful compare) (hT : Contains compare T elems) (hdup : T.allowDup = false)
    (hfuel : stepBound (elems.length + 1) ≤ fuel) (key : κ) (mem : Option Ptr)
    (hfresh : ∀ z, mem = some z → T.nodes z = none) :
    ∃ T' elems', T.call compare fuel (.insert key mem) =
        some (T', answer compare (elems.map Prod.snd) (.insert key mem)) ∧
      CallSpec compare T (elems.map Prod.snd) (.insert key mem) T' elems' := by
  have hfuel' : stepBound elems.length ≤ fuel := (stepBound_mono (Nat.le_succ _)).trans hfuel
  by_cases hmem : ∃ a ∈ elems, compare key a.2 = 0
  · -- the key is there already, and nothing is allocated
    have hholds := holds_iff.2 hmem
    refine ⟨T, elems, ?_, .unchanged hT (if_pos (Or.inl hholds)) rfl⟩
    rw [call, hT.insert_duplicate hcmp hfuel' hdup hmem mem, answer, if_pos hholds]
    rfl
  have hholds : ¬ holds compare (elems.map Prod.snd) key = true := fun h => hmem (holds_iff.1 h)
  cases mem with
  | none =>
      refine ⟨T, elems, ?_, .unchanged hT (if_pos (Or.inr rfl)) rfl⟩
      rcases hT.find hcmp key hfuel' with ⟨a, ha, hzero, _⟩ | ⟨_, hnil⟩
      · exact absurd ⟨a, ha, hzero⟩ hmem
      · rw [call, answer, if_neg hholds, if_pos rfl, rbtTreeInsert, hdup, if_neg Bool.false_ne_true, hnil]
        rfl
  | some z =>
      have hnew : T.allowDup = false → ∀ a ∈ elems, compare key a.2 ≠ 0 :=
        fun _ a ha hzero => hmem ⟨a, ha, hzero⟩
      rcases hT.insert_new hcmp hfuel hnew (hfresh z rfl) with
        ⟨pre, post, T', rfl, hpre, hpost, hinsert, hT', hdup', hdestructed⟩
      have hkeys : act compare ((pre ++ post).map Prod.snd) (.insert key (some z)) =
          (pre ++ (z, key) :: post).map Prod.snd := by
        rw [act, if_neg (not_or.2 ⟨hholds, Option.some_ne_none z⟩), List.map_append, List.map_append, List.map_cons]
        exact orderedInsert_at (List.forall_mem_map.2 hpre) (List.forall_mem_map.2 hpost)
      refine ⟨T', pre ++ (z, key) :: post, ?_, hT', hkeys.symm, hdup', ?_⟩
      · rw [call, hinsert, answer, if_neg hholds, if_neg (Option.some_ne_none z)]
        rfl
      · rw [hdestructed, dropped, List.append_nil]

theorem call_find (hcmp : Comparison.Lawful compare) (hT : Contains compare T elems) (hdup : T.allowDup = false)
    (hfuel : stepBound elems.length ≤ fuel) (key : κ) :
    T.call compare fuel (.find key) = some (T, answer compare (elems.map Prod.snd) (.find key)) := by
  rcases hT.find hcmp key hfuel with ⟨a, ha, hzero, hfind⟩ | ⟨hnone, hnil⟩
  · rcases List.append_of_mem ha with ⟨pre, post, rfl⟩
    have hstrict := hT.strict hdup
    rw [List.map_append, List.map_cons] at hstrict ⊢
    have hunique := unique_at hcmp hstrict hzero
    have hfound : ((pre.map Prod.snd) ++ a.2 :: post.map Prod.snd).find? (fun k => compare key k = 0) = some a.2 := by
      rw [List.find?_append, List.find?_eq_none.2 fun k hk => by simpa using hunique.1 k hk]
      simp [hzero]
    rw [call, hfind, Option.bind_eq_bind, Option.bind_some, hT.getKey ha, answer, hfound]
    rfl
  · have hfound : (elems.map Prod.snd).find? (fun k => compare key k = 0) = none := by
      simpa using hnone
    rw [call, hnil, answer, hfound]
    rfl

theorem call_remove (hcmp : Comparison.Lawful compare) (hT : Contains compare T elems) (hdup : T.allowDup = false)
    (hfuel : stepBound elems.length ≤ fuel) (key : κ) :
    ∃ T' elems', T.call compare fuel (.remove key) = some (T', answer compare (elems.map Prod.snd) (.remove key)) ∧
      CallSpec compare T (elems.map Prod.snd) (.remove key) T' elems' := by
  by_cases hmem : ∃ a ∈ elems, compare key a.2 = 0
  · rcases hT.remove_present hcmp hfuel hmem with
      ⟨pre, a, post, T', rfl, hzero, hremove, hT', hdup', hdestructed⟩
    have hstrict := hT.strict hdup
    rw [List.map_append, List.map_cons] at hstrict
    have hunique := unique_at hcmp hstrict hzero
    have hkeys : act compare ((pre ++ a :: post).map Prod.snd) (.remove key) = (pre ++ post).map Prod.snd := by
      rw [act, List.map_append, List.map_cons, List.map_append]
      exact filter_ne_at hunique hzero
    have hdropped : dropped compare ((pre ++ a :: post).map Prod.snd) (.remove key) = [a.2] := by
      rw [dropped, List.map_append, List.map_cons]
      exact filter_eq_at hunique hzero
    refine ⟨T', pre ++ post, ?_, hT', hkeys.symm, hdup', ?_⟩
    · rw [call, hremove, answer, if_pos (holds_iff.2 hmem)]
      rfl
    · rw [hdestructed, hdropped]
  · have hnone : ∀ a ∈ elems, compare key a.2 ≠ 0 := fun a ha hzero => hmem ⟨a, ha, hzero⟩
    refine ⟨T, elems, ?_, .unchanged hT ?_ ?_⟩
    · rw [call, hT.remove_absent hcmp hfuel hnone, answer, if_neg fun h => hmem (holds_iff.1 h)]
      rfl
    · exact List.filter_eq_self.2 (List.forall_mem_map.2 (by simpa using hnone))
    · exact List.filter_eq_nil_iff.2 (List.forall_mem_map.2 (by simpa using hnone))

theorem call_spec (hcmp : Comparison.Lawful compare) (hT : Contains compare T elems) (hdup : T.allowDup = false)
    (hfuel : stepBound (elems.length + 1) ≤ fuel) (c : RbtCall κ)
    (hfresh : ∀ key z, c = .insert key (some z) → T.nodes z = none) :
    ∃ T' elems', T.call compare fuel c = some (T', answer compare (elems.map Prod.snd) c) ∧
      CallSpec compare T (elems.map Prod.snd) c T' elems' := by
  have hfuel' : stepBound elems.length ≤ fuel := (stepBound_mono (Nat.le_succ _)).trans hfuel
  cases c with
  | insert key mem => exact call_insert hcmp hT hdup hfuel key mem fun z hz => hfresh key z (hz ▸ rfl)
  | find key => exact ⟨T, elems, call_find hcmp hT hdup hfuel' key, .unchanged hT rfl rfl⟩
  | remove key => exact call_remove hcmp hT hdup hfuel' key

theorem runCalls_spec (hcmp : Comparison.Lawful compare) (hT : Contains compare T elems)
    (hdup : T.allowDup = false) (calls : List (RbtCall κ)) (hfuel : stepBound (elems.length + calls.length) ≤ fuel)
    (hfresh : FreshMemory compare fuel T calls) :
    ∃ T' elems', T.runCalls compare fuel calls = some (T', answers compare (elems.map Prod.snd) calls) ∧
      Contains compare T' elems' ∧ elems'.map Prod.snd = calls.foldl (act compare) (elems.map Prod.snd) ∧
      T'.destructed = T.destructed ++ droppedAll compare (elems.map Prod.snd) calls := by
  induction calls generalizing T elems with
  | nil => exact ⟨T, elems, rfl, hT, rfl, (List.append_nil _).symm⟩
  | cons c cs ih =>
      rw [List.length_cons] at hfuel
      rcases call_spec hcmp hT hdup ((stepBound_mono (by omega)).trans hfuel) c hfresh.1 with
        ⟨T₁, elems₁, hcall, hspec⟩
      have hlength := act_length compare (elems.map Prod.snd) c
      rw [← hspec.keys_eq, List.length_map, List.length_map] at hlength
      rcases ih hspec.contains (hspec.allowDup_eq.trans hdup) ((stepBound_mono (by omega)).trans hfuel)
        (hfresh.2 _ hcall) with ⟨T', elems', hrun, hT', hkeys, hdestructed⟩
      rw [hspec.keys_eq] at hrun hkeys hdestructed
      refine ⟨T', elems', ?_, hT', hkeys, ?_⟩
      · rw [runCalls, hcall, Option.bind_eq_bind, Option.bind_some, hrun]
        rfl
      · rw [hdestructed, hspec.destructed_eq, List.append_assoc]
        rfl

/-- A new tree that refuses duplicates behaves as a sorted list of keys, whatever is called and in whatever order. -/
theorem runCalls_refines (hcmp : Comparison.Lawful compare) (calls : List (RbtCall κ))
    (hfuel : stepBound calls.length ≤ fuel) (hfresh : FreshMemory compare fuel (rbtTreeCreate false) calls) :
    ∃ T elems, (rbtTreeCreate false).runCalls compare fuel calls = some (T, answers compare [] calls) ∧
      Contains compare T elems ∧ elems.map Prod.snd = calls.foldl (act compare) [] ∧
      T.destructed = droppedAll compare [] calls :=
  runCalls_spec hcmp (rbtTreeCreate_contains compare false) rfl calls (by simpa using hfuel) hfresh

/-! Keys that are numbers, and a failed allocation in the middle. -/

theorem lawful_sub : Comparison.Lawful fun a b : ℤ => a - b where
  neg_iff_pos := by omega
  le_trans := by omega

def someCalls : List (RbtCall ℤ) :=
  [.insert 2 (some 1), .insert 1 (some 2), .remove 2, .insert 5 none, .insert 3 (some 1)]

theorem someCalls_stepBound : stepBound someCalls.length ≤ 8 := by
  have hlog : Nat.log 2 6 < 3 := Nat.log_lt_of_lt_pow (by omega) (by omega)
  show 2 * Nat.log 2 6 + 2 ≤ 8
  omega

theorem someCalls_fresh : FreshMemory (fun a b : ℤ => a - b) 8 (rbtTreeCreate false) someCalls := by
  refine ⟨?_, fun r h => ?_⟩
  · rintro _ _ ⟨⟩
    rfl
  cases h
  refine ⟨?_, fun r h => ?_⟩
  · rintro _ _ ⟨⟩
    rfl
  cases h
  refine ⟨?_, fun r h => ?_⟩
  · rintro _ _ ⟨⟩
  cases h
  refine ⟨?_, fun r h => ?_⟩
  · rintro _ _ ⟨⟩
  cases h
  refine ⟨?_, fun r h => trivial⟩
  rintro _ _ ⟨⟩
  rfl

theorem runCalls_refines_numbers : ∃ T elems,
    (rbtTreeCreate false).runCalls (fun a b : ℤ => a - b) 8 someCalls =
      some (T, answers (fun a b : ℤ => a - b) [] someCalls) ∧
      Contains (fun a b : ℤ => a - b) T elems ∧
      elems.map Prod.snd = someCalls.foldl (act fun a b : ℤ => a - b) [] ∧
      T.destructed = droppedAll (fun a b : ℤ => a - b) [] someCalls :=
  runCalls_refines lawful_sub someCalls someCalls_stepBound someCalls_fresh

/-- From creation to destruction every accepted key reaches the destructor once, and no node is left. -/
theorem runCalls_destroy (hcmp : Comparison.Lawful compare) (calls : List (RbtCall κ))
    (hfuel : stepBound calls.length ≤ fuel) (hfresh : FreshMemory compare fuel (rbtTreeCreate false) calls) :
    ∃ T answers T', (rbtTreeCreate false).runCalls compare fuel calls = some (T, answers) ∧
      T.rbtTreeDestroy (2 * calls.length + 1) = some T' ∧
      T'.destructed.Perm (acceptedAll compare [] calls) ∧ ∀ p, T'.nodes p ≠ none ↔ p = nil := by
  rcases runCalls_spec hcmp (rbtTreeCreate_contains compare false) rfl calls (by simpa using hfuel) hfresh with
    ⟨T, elems, hrun, hT, hkeys, hdestructed⟩
  have hlength := foldl_act_length compare [] calls
  rw [List.map_nil] at hkeys
  rw [← hkeys, List.length_map, List.length_nil, zero_add] at hlength
  rcases hT.destroy (show 2 * elems.length < 2 * calls.length + 1 by omega) with
    ⟨T', keys, hdestroy, hnodes, hdestructed', hperm⟩
  refine ⟨T, _, T', hrun, hdestroy, ?_, hnodes⟩
  have hall := droppedAll_perm compare [] calls
  rw [List.append_nil, ← hkeys] at hall
  rw [hdestructed', hdestructed]
  exact (hperm.append_left _).trans hall

theorem runCalls_destroy_numbers : ∃ T answers T',
    (rbtTreeCreate false).runCalls (fun a b : ℤ => a - b) 8 someCalls = some (T, answers) ∧
      T.rbtTreeDestroy (2 * someCalls.length + 1) = some T' ∧
      T'.destructed.Perm (acceptedAll (fun a b : ℤ => a - b) [] someCalls) ∧ ∀ p, T'.nodes p ≠ none ↔ p = nil :=
  runCalls_destroy lawful_sub someCalls someCalls_stepBound someCalls_fresh

end RbtTree

end SsrNative
