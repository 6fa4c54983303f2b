import SsrNative.RbTreeRuns

/-!
# CstlSet — the sets of the container library

A set is a red-black tree that refuses duplicates.  `cstl_set_container_traverse` holds the address of the node
where it is while it calls back, and goes on from there.  So a callback may not take that node out of the set.
-/

namespace SsrNative

open Lib Lib.RedBlackTree RbtTree

structure CstlSet (κ : Type) where
  tree : RbtTree κ

namespace CstlSet

variable {κ : Type}

/-! ## The functions -/

section Code

variable (compare : κ → κ → ℤ) (fuel : ℕ)

def cstlSetNew : CstlSet κ := ⟨rbtTreeCreate false⟩

/-- `cstl_set_insert`; every failure of the tree is the same error. -/
def cstlSetInsert (S : CstlSet κ) (key : κ) (mem : Option Ptr) : Option (CstlSet κ × Bool) := do
  let r ← S.tree.rbtTreeInsert compare fuel key mem
  return (⟨r.1⟩, r.2 = .success)

def cstlSetIsKeyExists (S : CstlSet κ) (key : κ) : Option Bool := do
  let node ← S.tree.rbtTreeFind compare fuel key
  return node ≠ nil

def cstlSetRemove (S : CstlSet κ) (key : κ) : Option (CstlSet κ × RbtStatus) := do
  let r ← S.tree.rbtTreeRemoveNode compare fuel key
  return (⟨r.1⟩, r.2)

def cstlSetMinimum (S : CstlSet κ) : Option Ptr := S.tree.treeMinimum fuel S.tree.root

/-- `cstl_set_get_next`: the new `current_element`.  It is `none` before the first step. -/
def cstlSetGetNext (S : CstlSet κ) : Option Ptr → Option Ptr
  | none => S.cstlSetMinimum fuel
  | some p => S.tree.rbtTreeSuccessor fuel p

/-- The assertion of `cstl_set_container_remove` is checked. -/
def cstlSetContainerRemove (S : CstlSet κ) (obj : κ) : Option (CstlSet κ) := do
  let found ← S.cstlSetIsKeyExists compare fuel obj
  guard found
  let r ← S.cstlSetRemove compare fuel obj
  return r.1

def cstlSetContainerAdd (S : CstlSet κ) (obj : κ) (mem : Option Ptr) : Option (CstlSet κ) := do
  let r ← S.cstlSetInsert compare fuel obj mem
  return r.1

variable {σ : Type} (set : σ → CstlSet κ) (fn : κ → σ → Option (σ × Bool))

/-- The loop of `cstl_set_container_traverse`.  The callback changes the state of the program, the set with it,
and answers whether to stop. -/
def traverseLoop : ℕ → Option Ptr → σ → Option σ
  | 0, _, _ => none
  | steps + 1, current, s => do
      let node ← (set s).cstlSetGetNext fuel current
      let key ← (set s).tree.rbtNodeGetKey node
      match key with
      | none => return s
      | some obj => do
          let r ← fn obj s
          if r.2 then return r.1 else traverseLoop steps (some node) r.1

def cstlSetContainerTraverse (steps : ℕ) (s : σ) : Option σ := traverseLoop fuel set fn steps none s

/-- The callback on one key after the other, until it asks to stop. -/
def visit : List κ → σ → Option σ
  | [], s => some s
  | obj :: rest, s => do
      let r ← fn obj s
      if r.2 then return r.1 else visit rest r.1

end Code

/-! ## What is in a set -/

/-- The set has these nodes, with their keys in order. -/
structure Stores (compare : κ → κ → ℤ) (S : CstlSet κ) (elems : List (Ptr × κ)) : Prop where
  contains : Contains compare S.tree elems
  allowDup_eq : S.tree.allowDup = false

variable {compare : κ → κ → ℤ} {S : CstlSet κ} {elems : List (Ptr × κ)} {fuel : ℕ}

theorem stores_new (compare : κ → κ → ℤ) : Stores compare cstlSetNew [] := ⟨rbtTreeCreate_contains compare false, rfl⟩

namespace Stores

theorem isKeyExists (hcmp : Comparison.Lawful compare) (hS : Stores compare S elems)
    (hfuel : stepBound elems.length ≤ fuel) (key : κ) :
    S.cstlSetIsKeyExists compare fuel key = some (decide (∃ a ∈ elems, compare key a.2 = 0)) := by
  rw [cstlSetIsKeyExists]
  rcases hS.contains.find hcmp key hfuel with ⟨a, ha, hzero, hfind⟩ | ⟨hnone, hnil⟩
  · have hne : a.1 ≠ nil := hS.contains.ne_nil ha
    have hex : ∃ a ∈ elems, compare key a.2 = 0 := ⟨a, ha, hzero⟩
    rw [hfind, Option.bind_eq_bind, Option.bind_some, decide_eq_true hex, decide_eq_true hne]
    rfl
  · have hno : ¬ ∃ a ∈ elems, compare key a.2 = 0 := fun ⟨a, ha, hzero⟩ => hnone a ha hzero
    rw [hnil, Option.bind_eq_bind, Option.bind_some, decide_eq_false hno]
    rfl

theorem containerAdd (hcmp : Comparison.Lawful compare) (hS : Stores compare S elems)
    (hfuel : stepBound (elems.length + 1) ≤ fuel) {key : κ} (hnew : ∀ a ∈ elems, compare key a.2 ≠ 0) {z : Ptr}
    (hz : S.tree.nodes z = none) :
    ∃ pre post S', elems = pre ++ post ∧ S.cstlSetContainerAdd compare fuel key (some z) = some S' ∧
      Stores compare S' (pre ++ (z, key) :: post) := by
  rcases hS.contains.insert_new hcmp hfuel (fun _ => hnew) hz with
    ⟨pre, post, T', hlist, _, _, hinsert, hT', hdup, _⟩
  refine ⟨pre, post, ⟨T'⟩, hlist, ?_, hT', hdup.trans hS.allowDup_eq⟩
  rw [cstlSetContainerAdd, cstlSetInsert, hinsert]
  rfl

/-- The assertion holds for what is in the set, and the node is given back. -/
theorem containerRemove (hcmp : Comparison.Lawful compare) (hS : Stores compare S elems)
    (hfuel : stepBound elems.length ≤ fuel) {key : κ} (hmem : ∃ a ∈ elems, compare key a.2 = 0) :
    ∃ pre a post S', elems = pre ++ a :: post ∧ compare key a.2 = 0 ∧
      S.cstlSetContainerRemove compare fuel key = some S' ∧ Stores compare S' (pre ++ post) ∧
      S'.tree.nodes a.1 = none := by
  rcases hS.contains.remove_present hcmp hfuel hmem with
    ⟨pre, a, post, T', rfl, hzero, hremove, hT', hdup, _⟩
  have hnodup := hS.contains.nodup
  rw [List.map_append, List.map_cons, List.nodup_cons, List.nodup_middle, List.nodup_cons, ← List.map_append] at hnodup
  refine ⟨pre, a, post, ⟨T'⟩, rfl, hzero, ?_, ⟨hT', hdup.trans hS.allowDup_eq⟩, ?_⟩
  · rw [cstlSetContainerRemove, hS.isKeyExists hcmp hfuel key, Option.bind_eq_bind, Option.bind_some,
      decide_eq_true hmem, cstlSetRemove, hremove]
    rfl
  · exact hT'.nodes_eq_none_iff.2 ⟨hS.contains.ne_nil (List.mem_append_right _ (List.mem_cons_self ..)), hnodup.2.1⟩

/-- An element has one node. -/
theorem eq_of_compare (hcmp : Comparison.Lawful compare) (hS : Stores compare S elems) {a b : Ptr × κ} (ha : a ∈ elems)
    (hb : b ∈ elems) (hzero : compare a.2 b.2 = 0) : a = b := by
  rcases List.append_of_mem ha with ⟨pre, post, rfl⟩
  have hstrict := hS.contains.strict hS.allowDup_eq
  rw [List.map_append, List.map_cons] at hstrict
  have hunique := unique_at hcmp hstrict (hcmp.self_eq_zero a.2)
  rcases List.mem_append.1 hb with hpre | hpost
  · exact absurd hzero (hunique.1 _ (List.mem_map_of_mem hpre))
  · rcases List.mem_cons.1 hpost with rfl | hpost
    · rfl
    · exact absurd hzero (hunique.2 _ (List.mem_map_of_mem hpost))

/-- What is left when the element that compares equal is taken out. -/
theorem mem_erase_iff (hcmp : Comparison.Lawful compare) {pre post : List (Ptr × κ)} {a b : Ptr × κ} {key : κ}
    (hS : Stores compare S (pre ++ a :: post)) (hzero : compare key a.2 = 0) :
    b ∈ pre ++ post ↔ b ∈ pre ++ a :: post ∧ compare key b.2 ≠ 0 := by
  have hstrict := hS.contains.strict hS.allowDup_eq
  rw [List.map_append, List.map_cons] at hstrict
  have hunique := unique_at hcmp hstrict hzero
  rw [List.mem_append, List.mem_append, List.mem_cons]
  constructor
  · rintro (hb | hb)
    · exact ⟨Or.inl hb, hunique.1 _ (List.mem_map_of_mem hb)⟩
    · exact ⟨Or.inr (Or.inr hb), hunique.2 _ (List.mem_map_of_mem hb)⟩
  · rintro ⟨hb | rfl | hb, hne⟩
    · exact Or.inl hb
    · exact absurd hzero hne
    · exact Or.inr hb

/-- It fails for what is not. -/
theorem containerRemove_absent (hcmp : Comparison.Lawful compare) (hS : Stores compare S elems)
    (hfuel : stepBound elems.length ≤ fuel) {key : κ} (hnone : ∀ a ∈ elems, compare key a.2 ≠ 0) :
    S.cstlSetContainerRemove compare fuel key = none := by
  have hno : ¬ ∃ a ∈ elems, compare key a.2 = 0 := fun ⟨a, ha, hzero⟩ => hnone a ha hzero
  rw [cstlSetContainerRemove, hS.isKeyExists hcmp hfuel key, Option.bind_eq_bind, Option.bind_some,
    decide_eq_false hno]
  rfl

end Stores

/-! ## Traversal -/

section Traverse

variable {σ : Type} {set : σ → CstlSet κ} {fn : κ → σ → Option (σ × Bool)} {s : σ}

/-- The node behind `pre` is the next one. -/
theorem getNext_eq {pre post : List (Ptr × κ)} (hS : Stores compare S (pre ++ post))
    (hfuel : stepBound (pre ++ post).length ≤ fuel) :
    S.cstlSetGetNext fuel (pre.getLast?.map Prod.fst) = some (headAddr post) := by
  rcases List.eq_nil_or_concat' pre with rfl | ⟨pre, a, rfl⟩
  · exact hS.contains.minimum hfuel
  · rw [List.append_assoc, List.singleton_append] at hS hfuel
    rw [List.getLast?_concat]
    exact hS.contains.successor hfuel

theorem traverseLoop_eq {P : σ → Prop} (hkeep : ∀ obj s r, P s → fn obj s = some r → set r.1 = set s ∧ P r.1)
    (hs : P s) {pre post : List (Ptr × κ)} (hS : Stores compare (set s) (pre ++ post)) (hfuel : stepBound (pre ++ post).length ≤ fuel) {steps : ℕ}
    (hsteps : post.length < steps) :
    traverseLoop fuel set fn steps (pre.getLast?.map Prod.fst) s = visit fn (post.map Prod.snd) s := by
  induction post generalizing pre s steps with
  | nil =>
      obtain ⟨steps, rfl⟩ : ∃ k, steps = k + 1 := ⟨steps - 1, (Nat.succ_pred_eq_of_pos hsteps).symm⟩
      rw [traverseLoop, getNext_eq hS hfuel]
      rfl
  | cons a post ih =>
      obtain ⟨steps, rfl⟩ : ∃ k, steps = k + 1 := ⟨steps - 1, (Nat.succ_pred_eq_of_pos (Nat.zero_lt_of_lt hsteps)).symm⟩
      have hkey := hS.contains.getKey (List.mem_append_right pre (List.mem_cons_self (a := a) (l := post)))
      rw [traverseLoop, getNext_eq hS hfuel, Option.bind_eq_bind, Option.bind_some, headAddr, hkey, List.map_cons, visit]
      simp only [Option.bind_eq_bind, Option.bind_some]
      cases hr : fn a.2 s with
      | none => rfl
      | some r =>
          simp only [Option.bind_some]
          split_ifs
          · rfl
          · have hnext : Stores compare (set r.1) ((pre ++ [a]) ++ post) := by
              rw [(hkeep _ _ _ hs hr).1, List.append_assoc]
              exact hS
            have hfuel' : stepBound ((pre ++ [a]) ++ post).length ≤ fuel := by rwa [List.append_assoc]
            have hrest := ih (hkeep _ _ _ hs hr).2 hnext hfuel' (Nat.lt_of_succ_lt_succ hsteps)
            rwa [List.getLast?_concat] at hrest

/-- As long as the callback leaves the set alone, the traversal calls it once for every element, in order. -/
theorem containerTraverse_eq {P : σ → Prop} (hkeep : ∀ obj s r, P s → fn obj s = some r → set r.1 = set s ∧ P r.1)
    (hs : P s) (hS : Stores compare (set s) elems) (hfuel : stepBound elems.length ≤ fuel) {steps : ℕ}
    (hsteps : elems.length < steps) :
    cstlSetContainerTraverse fuel set fn steps s = visit fn (elems.map Prod.snd) s := by
  have hstart : Stores compare (set s) ([] ++ elems) := hS
  exact traverseLoop_eq hkeep hs hstart hfuel hsteps

/-- The traversal reads the node where it is after the callback has given it back. -/
theorem containerTraverse_removed {a : Ptr × κ} {r : σ × Bool} (hS : Stores compare (set s) (a :: elems))
    (hfuel : stepBound (a :: elems).length ≤ fuel) (hfn : fn a.2 s = some r) (hstop : r.2 = false)
    (hremoved : (set r.1).tree.nodes a.1 = none) (steps : ℕ) :
    cstlSetContainerTraverse fuel set fn steps s = none := by
  cases steps with
  | zero => rfl
  | succ steps =>
      have hkey := hS.contains.getKey (a := a) (List.mem_cons_self ..)
      have hnext : (set s).cstlSetGetNext fuel none = some a.1 := hS.contains.minimum hfuel
      rw [cstlSetContainerTraverse, traverseLoop, hnext, Option.bind_eq_bind, Option.bind_some, hkey]
      simp only [Option.bind_eq_bind, Option.bind_some, hfn, hstop, Bool.false_eq_true, if_false]
      cases steps with
      | zero => rfl
      | succ steps =>
          rw [traverseLoop, cstlSetGetNext, rbtTreeSuccessor, child, hremoved]
          rfl

end Traverse

/-! ## Sets of addresses -/

/-- `tunnel_ctx_compare_for_c_set` -/
def tunnelCtxCompareForCSet (l r : ℕ) : ℤ := if l < r then -1 else if r < l then 1 else 0

theorem tunnelCtxCompare_eq_zero_iff {l r : ℕ} : tunnelCtxCompareForCSet l r = 0 ↔ l = r := by
  unfold tunnelCtxCompareForCSet
  split_ifs with hlt hgt
  · exact iff_of_false (by decide) hlt.ne
  · exact iff_of_false (by decide) hgt.ne'
  · exact iff_of_true rfl (by omega)

theorem lawful_tunnelCtxCompare : Comparison.Lawful tunnelCtxCompareForCSet where
  neg_iff_pos l r := by
    simp only [tunnelCtxCompareForCSet]
    split_ifs <;> omega
  le_trans l m r := by
    simp only [tunnelCtxCompareForCSet]
    split_ifs <;> omega

namespace Stores

variable {S : CstlSet Ptr} {elems : List (Ptr × Ptr)} {fuel : ℕ} {p : Ptr}

/-- A new address is added. -/
theorem add_address (hS : Stores tunnelCtxCompareForCSet S elems) (hfuel : stepBound (elems.length + 1) ≤ fuel)
    (hnew : p ∉ elems.map Prod.snd) {z : Ptr} (hz : S.tree.nodes z = none) :
    ∃ S' elems', S.cstlSetContainerAdd tunnelCtxCompareForCSet fuel p (some z) = some S' ∧
      Stores tunnelCtxCompareForCSet S' elems' ∧ elems'.length = elems.length + 1 ∧
      ∀ q, q ∈ elems'.map Prod.snd ↔ q = p ∨ q ∈ elems.map Prod.snd := by
  have hne : ∀ a ∈ elems, tunnelCtxCompareForCSet p a.2 ≠ 0 := fun a ha hzero =>
    hnew (tunnelCtxCompare_eq_zero_iff.1 hzero ▸ List.mem_map_of_mem ha)
  rcases hS.containerAdd lawful_tunnelCtxCompare hfuel hne hz with ⟨pre, post, S', rfl, hadd, hS'⟩
  refine ⟨S', _, hadd, hS', ?_, fun q => ?_⟩
  · simp only [List.length_append, List.length_cons]
    omega
  · simp only [List.map_append, List.map_cons, List.mem_append, List.mem_cons]
    exact or_left_comm

/-- An address that is there is taken out, and its node is given back. -/
theorem remove_address (hS : Stores tunnelCtxCompareForCSet S elems) (hfuel : stepBound elems.length ≤ fuel)
    (hp : p ∈ elems.map Prod.snd) :
    ∃ S' elems', S.cstlSetContainerRemove tunnelCtxCompareForCSet fuel p = some S' ∧
      Stores tunnelCtxCompareForCSet S' elems' ∧ elems'.length ≤ elems.length ∧
      (∀ q, q ∈ elems'.map Prod.snd ↔ q ∈ elems.map Prod.snd ∧ q ≠ p) ∧
      ∀ a ∈ elems, a.2 = p → S'.tree.nodes a.1 = none := by
  rcases List.mem_map.1 hp with ⟨b, hb, rfl⟩
  rcases hS.containerRemove lawful_tunnelCtxCompare hfuel ⟨b, hb, tunnelCtxCompare_eq_zero_iff.2 rfl⟩ with
    ⟨pre, a, post, S', rfl, hzero, hremove, hS', hnode⟩
  refine ⟨S', pre ++ post, hremove, hS', ?_, fun q => ?_, fun c hc heq => ?_⟩
  · simp only [List.length_append, List.length_cons]
    omega
  · have hiff : ∀ c, c ∈ pre ++ post ↔ c ∈ pre ++ a :: post ∧ tunnelCtxCompareForCSet b.2 c.2 ≠ 0 := fun c =>
      hS.mem_erase_iff lawful_tunnelCtxCompare hzero
    simp only [List.mem_map, hiff, Ne, tunnelCtxCompare_eq_zero_iff]
    constructor
    · rintro ⟨c, ⟨hc, hne⟩, rfl⟩
      exact ⟨⟨c, hc, rfl⟩, Ne.symm hne⟩
    · rintro ⟨⟨c, hc, rfl⟩, hne⟩
      exact ⟨c, ⟨hc, Ne.symm hne⟩, rfl⟩
  · obtain rfl : a = c := hS.eq_of_compare lawful_tunnelCtxCompare (List.mem_append_right _ (List.mem_cons_self ..)) hc
      (tunnelCtxCompare_eq_zero_iff.2 ((tunnelCtxCompare_eq_zero_iff.1 hzero).symm.trans heq.symm))
    exact hnode

end Stores

end CstlSet

end SsrNative
