import SsrNative.Lib.Comparison
import SsrNative.RbTreeInsert

/-!
# RbTreeSearch — the ways through a tree that change nothing

Each loop that goes down or up is described by the in-order list of the tree: where a key is found, where a new
node belongs, which element is the next.  The checks of a debug build succeed on a balanced tree.
-/

namespace SsrNative

open Lib Lib.RedBlackTree

namespace RbtTree

open RbtNode Cells

variable {κ : Type} {T : RbtTree κ} {sn : RbtNode κ} {rest : Memory κ} {t : RbTree (Ptr × κ)}
variable {path : List (Frame (Ptr × κ))}

/-- The pointer to the first element of a list. -/
def headAddr : List (Ptr × κ) → Ptr
  | [] => nil
  | a :: _ => a.1

theorem nodup_addrs (hM : Models T.nodes (shape sn t rest)) : (nil :: t.toList.map Prod.fst).Nodup := by
  have hnodup := hM.nodup
  rw [shape, Multiset.map_add, Multiset.map_add, Multiset.map_singleton, map_fst_layout] at hnodup
  have hpart := (Multiset.nodup_add.1 hnodup).1
  rwa [Multiset.singleton_add, Multiset.cons_coe, Multiset.coe_nodup] at hpart

/-- The node at a place is not the sentinel. -/
theorem addr_ne_nil_at (path : List (Frame (Ptr × κ)))
    (hM : Models T.nodes (shape sn (plug t path) rest)) (ht : t ≠ .nil) : addr t ≠ nil := by
  have hparts : Models T.nodes ({(nil, sn)} + (layout (top path) t + (pathLayout (addr t) path + rest))) := by
    refine hM.of_eq ?_
    rw [shape, layout_plug]
    abel
  exact addr_ne_nil hparts ht

/-! ## Down -/

section Find

variable {compare : κ → κ → ℤ} {key : κ}

/-- Elements in the order of their keys; keys that compare equal are neighbours when `dup` allows them. -/
def InOrder (compare : κ → κ → ℤ) (dup : Bool) (elems : List (Ptr × κ)) : Prop :=
  elems.Pairwise fun a b => if dup then compare a.2 b.2 ≤ 0 else compare a.2 b.2 < 0

theorem InOrder.le {dup : Bool} {elems : List (Ptr × κ)} (h : InOrder compare dup elems) :
    elems.Pairwise fun a b => compare a.2 b.2 ≤ 0 := by
  refine List.Pairwise.imp (fun {a b} hab => ?_) h
  cases dup with
  | false => exact le_of_lt hab
  | true => exact hab

/-- The loop of `rbt_tree_find` stops at an element that compares equal, if there is one. -/
theorem findLoop_spec (hcmp : Comparison.Lawful compare) (path : List (Frame (Ptr × κ)))
    (hM : Models T.nodes (shape sn (plug t path) rest))
    (hsorted : t.toList.Pairwise fun a b => compare a.2 b.2 ≤ 0) {fuel : ℕ} (hfuel : height t < fuel) :
    (∃ a ∈ t.toList, compare key a.2 = 0 ∧ findLoop compare T key fuel (addr t) = some a.1) ∨
      ((∀ a ∈ t.toList, compare key a.2 ≠ 0) ∧ findLoop compare T key fuel (addr t) = some nil) := by
  induction t generalizing path fuel with
  | nil =>
      rcases fuel with _ | fuel
      · exact absurd hfuel (Nat.not_lt_zero _)
      · exact Or.inr ⟨by simp, rfl⟩
  | node c l a r ihl ihr =>
      rcases fuel with _ | fuel
      · exact absurd hfuel (Nat.not_lt_zero _)
      rw [RbTree.toList_node, List.pairwise_append, List.pairwise_cons] at hsorted
      have hleft : height l < fuel := by
        rw [height] at hfuel
        omega
      have hright : height r < fuel := by
        rw [height] at hfuel
        omega
      have hkey : T.key a.1 = some a.2 := key_at (s := .left) hM
      have hl : T.child .left a.1 = some (addr l) := child_at (s := .left) _ hM
      have hr : T.child .right a.1 = some (addr r) := child_other_at (s := .left) _ hM
      rw [findLoop, if_neg (addr_ne_nil_at _ hM (RbTree.node_ne_nil _ _ _ _)), addr, hkey, Option.bind_eq_bind, Option.bind_some]
      by_cases hzero : compare key a.2 = 0
      · rw [if_pos hzero]
        exact Or.inl ⟨a, by simp, hzero, rfl⟩
      rw [if_neg hzero]
      by_cases hneg : compare key a.2 < 0
      · -- everything on the right is larger
        rw [if_pos hneg, hl, Option.bind_eq_bind, Option.bind_some]
        have hfar : ∀ b ∈ r.toList, compare key b.2 ≠ 0 := fun b hb =>
          (hcmp.lt_of_lt_of_le hneg (hsorted.2.1.1 b hb)).ne
        rcases ihl (⟨.left, c, a, r⟩ :: path) hM hsorted.1 hleft with ⟨b, hb, hfound⟩ | ⟨hnone, hnil⟩
        · exact Or.inl ⟨b, List.mem_append_left _ hb, hfound⟩
        · refine Or.inr ⟨fun b hb => ?_, hnil⟩
          rcases List.mem_append.1 hb with hb | hb
          · exact hnone b hb
          · rcases List.mem_cons.1 hb with rfl | hb
            · exact hzero
            · exact hfar b hb
      · rw [if_neg hneg, hr, Option.bind_eq_bind, Option.bind_some]
        have hpos : compare a.2 key < 0 := (hcmp.neg_iff_pos _ _).2 (by omega)
        have hfar : ∀ b ∈ l.toList, compare key b.2 ≠ 0 := fun b hb heq =>
          (hcmp.lt_of_le_of_lt (hsorted.2.2 b hb a (by simp)) hpos).ne (hcmp.eq_zero_comm.1 heq)
        rcases ihr (⟨.right, c, a, l⟩ :: path) hM hsorted.2.1.2 hright with ⟨b, hb, hfound⟩ | ⟨hnone, hnil⟩
        · exact Or.inl ⟨b, List.mem_append_right _ (List.mem_cons_of_mem _ hb), hfound⟩
        · refine Or.inr ⟨fun b hb => ?_, hnil⟩
          rcases List.mem_append.1 hb with hb | hb
          · exact hfar b hb
          · rcases List.mem_cons.1 hb with rfl | hb
            · exact hzero
            · exact hnone b hb

/-- The way down of an insertion ends at the place behind all elements that are not larger. -/
theorem insertDescend_spec (hcmp : Comparison.Lawful compare) (path : List (Frame (Ptr × κ)))
    (hM : Models T.nodes (shape sn (plug t path) rest))
    (hsorted : t.toList.Pairwise fun a b => compare a.2 b.2 ≤ 0)
    (hbefore : ∀ a ∈ before path, ¬ compare key a.2 < 0) (hafter : ∀ a ∈ after path, compare key a.2 < 0)
    {fuel : ℕ} (hfuel : height t < fuel) :
    ∃ path', insertDescend compare T key fuel (top path) (addr t) = some (top path') ∧
      plug .nil path' = plug t path ∧
      (∀ a ∈ before path', ¬ compare key a.2 < 0) ∧ ∀ a ∈ after path', compare key a.2 < 0 := by
  induction t generalizing path fuel with
  | nil =>
      rcases fuel with _ | fuel
      · exact absurd hfuel (Nat.not_lt_zero _)
      · exact ⟨path, rfl, rfl, hbefore, hafter⟩
  | node c l a r ihl ihr =>
      rcases fuel with _ | fuel
      · exact absurd hfuel (Nat.not_lt_zero _)
      rw [RbTree.toList_node, List.pairwise_append, List.pairwise_cons] at hsorted
      have hkey : T.key a.1 = some a.2 := key_at (s := .left) hM
      have hl : T.child .left a.1 = some (addr l) := child_at (s := .left) _ hM
      have hr : T.child .right a.1 = some (addr r) := child_other_at (s := .left) _ hM
      rw [insertDescend, if_neg (addr_ne_nil_at _ hM (RbTree.node_ne_nil _ _ _ _)), addr, hkey, Option.bind_eq_bind,
        Option.bind_some]
      rw [height] at hfuel
      by_cases hneg : compare key a.2 < 0
      · rw [if_pos hneg, hl, Option.bind_eq_bind, Option.bind_some]
        refine ihl (⟨.left, c, a, r⟩ :: path) hM hsorted.1 ?_ ?_ (by omega)
        · simpa [before, Frame.before] using hbefore
        · intro b hb
          rcases List.mem_append.1 hb with hb | hb
          · rcases List.mem_cons.1 hb with rfl | hb
            · exact hneg
            · exact hcmp.lt_of_lt_of_le hneg (hsorted.2.1.1 b hb)
          · exact hafter b hb
      · rw [if_neg hneg, hr, Option.bind_eq_bind, Option.bind_some]
        refine ihr (⟨.right, c, a, l⟩ :: path) hM hsorted.2.1.2 ?_ ?_ (by omega)
        · intro b hb
          rcases List.mem_append.1 hb with hb | hb
          · exact hbefore b hb
          · rcases List.mem_append.1 hb with hb | hb
            · intro hlt
              exact hneg (hcmp.lt_of_lt_of_le hlt (hsorted.2.2 b hb a (by simp)))
            · rw [List.mem_singleton.1 hb]
              exact hneg
        · simpa [after, Frame.after] using hafter

end Find

/-! ## The first and the last element -/

/-- `__tree_minimum` reaches the node of the first element, which has nothing on its left. -/
theorem treeMinimum_spec (path : List (Frame (Ptr × κ)))
    (hM : Models T.nodes (shape sn (plug t path) rest)) (ht : t ≠ .nil) {fuel : ℕ}
    (hfuel : height t ≤ fuel) :
    ∃ c y r way, t = plug (.node c .nil y r) way ∧ before way = [] ∧ T.treeMinimum fuel (addr t) = some y.1 := by
  induction t generalizing path fuel with
  | nil => exact absurd rfl ht
  | node c l a r ihl _ =>
      rw [height] at hfuel
      obtain ⟨fuel, rfl⟩ : ∃ k, fuel = k + 1 := ⟨fuel - 1, by omega⟩
      have hl : T.child .left a.1 = some (addr l) := child_at (s := .left) _ hM
      rw [addr, treeMinimum, hl, Option.bind_eq_bind, Option.bind_some]
      by_cases hnil : l = .nil
      · subst hnil
        exact ⟨c, a, r, [], rfl, rfl, if_pos rfl⟩
      · have hM' : Models T.nodes (shape sn (plug l (⟨.left, c, a, r⟩ :: path)) rest) := hM
        rcases ihl _ hM' hnil (show height l ≤ fuel by omega) with ⟨c', y, r', way, hway, hbefore, hmin⟩
        refine ⟨c', y, r', way ++ [⟨.left, c, a, r⟩], ?_, ?_, ?_⟩
        · rw [plug_append, ← hway]
          rfl
        · rw [before_append, hbefore]
          rfl
        · rw [if_neg (addr_ne_nil_at _ hM' hnil), hmin]

theorem treeMinimum_eq (path : List (Frame (Ptr × κ)))
    (hM : Models T.nodes (shape sn (plug t path) rest)) (ht : t ≠ .nil) {fuel : ℕ}
    (hfuel : height t ≤ fuel) : T.treeMinimum fuel (addr t) = some (headAddr t.toList) := by
  rcases treeMinimum_spec _ hM ht hfuel with ⟨c, y, r, way, rfl, hbefore, hmin⟩
  rw [hmin, toList_plug, hbefore]
  rfl

theorem maximumLoop_spec (path : List (Frame (Ptr × κ)))
    (hM : Models T.nodes (shape sn (plug t path) rest)) (ht : t ≠ .nil) {fuel : ℕ}
    (hfuel : height t ≤ fuel) : ∃ pre y, t.toList = pre ++ [y] ∧ T.maximumLoop fuel (addr t) = some y.1 := by
  induction t generalizing path fuel with
  | nil => exact absurd rfl ht
  | node c l a r _ ihr =>
      rw [height] at hfuel
      obtain ⟨fuel, rfl⟩ : ∃ k, fuel = k + 1 := ⟨fuel - 1, by omega⟩
      have hr : T.child .right a.1 = some (addr r) := child_other_at (s := .left) _ hM
      rw [addr, maximumLoop, hr, Option.bind_eq_bind, Option.bind_some]
      by_cases hnil : r = .nil
      · subst hnil
        exact ⟨l.toList, a, rfl, if_pos rfl⟩
      · have hM' : Models T.nodes (shape sn (plug r (⟨.right, c, a, l⟩ :: path)) rest) := hM
        rcases ihr _ hM' hnil (show height r ≤ fuel by omega) with ⟨pre, y, hlist, hmax⟩
        refine ⟨l.toList ++ a :: pre, y, ?_, ?_⟩
        · rw [RbTree.toList_node, hlist, List.append_assoc, List.cons_append]
        · rw [if_neg (addr_ne_nil_at _ hM' hnil), hmax]

/-! ## The next element -/

/-- From a place the way up leads to the next ancestor that is larger. -/
theorem successorUp_eq (hM : Models T.nodes (shape sn (plug t path) rest)) (ht : t ≠ .nil) {fuel : ℕ}
    (hfuel : path.length < fuel) : T.successorUp fuel (addr t) (top path) = some (headAddr (after path)) := by
  induction path generalizing t fuel with
  | nil =>
      rcases fuel with _ | fuel
      · exact absurd hfuel (Nat.not_lt_zero _)
      · exact if_pos rfl
  | cons f path ih =>
      rcases fuel with _ | fuel
      · exact absurd hfuel (Nat.not_lt_zero _)
      have hup : f.attach t ≠ .nil := RbTree.join_ne_nil _ _ _ _ _
      have haddr : addr (f.attach t) = f.elem.1 := addr_join _ _ _ _ _
      have hne := addr_ne_nil_at (t := f.attach t) _ hM hup
      have hparent := parent_at (t := f.attach t) _ hM hup
      have hsibling := addr_ne_sibling hM (Or.inl ht)
      rw [haddr] at hne hparent
      rw [top, successorUp, if_neg hne]
      rcases f with ⟨s, c, a, sib⟩
      cases s with
      | left =>
          have hchild : T.child .right a.1 = some (addr sib) := child_other_at (s := .left) path hM
          rw [hchild, Option.bind_eq_bind, Option.bind_some, if_neg hsibling]
          rfl
      | right =>
          have hchild : T.child .right a.1 = some (addr t) := child_at (s := .right) path hM
          have hrest := ih (t := Frame.attach ⟨.right, c, a, sib⟩ t) hM hup (Nat.lt_of_succ_lt_succ hfuel)
          rw [haddr] at hrest
          rw [hchild, Option.bind_eq_bind, Option.bind_some, if_pos rfl, hparent, Option.bind_some]
          exact hrest

theorem rbtTreeSuccessor_at {c : Color} {l r : RbTree (Ptr × κ)} {a : Ptr × κ}
    (hM : Models T.nodes (shape sn (plug (.node c l a r) path) rest))
    (hroot : T.root = addr (plug (.node c l a r) path)) {fuel : ℕ}
    (hfuel : height (plug (.node c l a r) path) ≤ fuel) :
    T.rbtTreeSuccessor fuel a.1 = some (headAddr (r.toList ++ after path)) := by
  have hdepth := height_add_length_le (.node c l a r) path
  rw [height] at hdepth
  have hchild : T.child .right a.1 = some (addr r) := child_other_at (s := .left) _ hM
  rw [rbtTreeSuccessor, hchild, Option.bind_eq_bind, Option.bind_some]
  by_cases hnil : r = .nil
  · subst hnil
    have hwhole : plug (.node c l a .nil) path ≠ .nil := by
      rw [Ne, ← RbTree.toList_eq_nil, toList_plug]
      simp
    rcases maximumLoop_spec [] hM hwhole hfuel with ⟨pre, y, hlist, hmax⟩
    have hlast : T.treeMaximum fuel T.root = some y.1 := by
      rw [treeMaximum, hroot, if_neg (addr_ne_nil_at [] hM hwhole), hmax]
    have hplace : (plug (.node c l a .nil) path).toList = before path ++ l.toList ++ a :: after path := by
      rw [toList_plug]
      simp
    have hleaf : ¬ addr (.nil : RbTree (Ptr × κ)) ≠ nil := not_not.2 rfl
    rw [if_neg hleaf, hlast, Option.bind_some]
    by_cases heq : a.1 = y.1
    · -- the last element has nothing behind it, as no other element has its address
      have hnodup := List.nodup_cons.1 (nodup_addrs hM)
      rw [hplace] at hnodup
      have hend : after path = [] := by
        rcases List.eq_nil_or_concat (after path) with hend | ⟨init, z, hend⟩
        · exact hend
        · rw [hplace, hend, List.concat_eq_append, ← List.cons_append, ← List.append_assoc] at hlist
          obtain rfl : z = y := List.singleton_injective (List.append_inj' hlist rfl).2
          rw [hend, List.map_append, List.nodup_append] at hnodup
          have hne := (List.nodup_cons.1 hnodup.2.2.1).1
          rw [heq] at hne
          exact absurd (by simp) hne
      rw [if_pos heq, hend]
      rfl
    · have hup : T.parent a.1 = some (top path) := parent_at _ hM (RbTree.node_ne_nil _ _ _ _)
      rw [if_neg heq, hup, Option.bind_some]
      exact successorUp_eq hM (RbTree.node_ne_nil _ _ _ _) (by omega)
  · have hM' : Models T.nodes (shape sn (plug r (⟨.right, c, a, l⟩ :: path)) rest) := hM
    rw [if_pos (addr_ne_nil_at _ hM' hnil), treeMinimum_eq _ hM' hnil (by omega)]
    cases hlist : r.toList with
    | nil => exact absurd (RbTree.toList_eq_nil.1 hlist) hnil
    | cons b bs => rfl

/-! ## The checks of a debug build -/

section Verify

variable {c : Color} {n : ℕ}

theorem debugNodeColor_at (path : List (Frame (Ptr × κ)))
    (hM : Models T.nodes (shape sn (plug t path) rest)) (hsn : sn.color = .black) :
    T.debugNodeColor (addr t) = some t.color := by
  by_cases ht : t = .nil
  · subst ht
    exact if_pos rfl
  · rw [debugNodeColor, if_neg (addr_ne_nil_at _ hM ht), color_at _ hM hsn]

/-- A recursion that goes into both subtrees of every node. -/
theorem debugVerifyProperty1_at (path : List (Frame (Ptr × κ)))
    (hM : Models T.nodes (shape sn (plug t path) rest)) (hsn : sn.color = .black)
    {fuel : ℕ} (hfuel : height t < fuel) : T.debugVerifyProperty1 fuel (addr t) = some () := by
  induction t generalizing path fuel with
  | nil =>
      rcases fuel with _ | fuel
      · exact absurd hfuel (Nat.not_lt_zero _)
      · exact if_pos rfl
  | node c l a r ihl ihr =>
      rw [height] at hfuel
      obtain ⟨fuel, rfl⟩ : ∃ k, fuel = k + 1 := ⟨fuel - 1, by omega⟩
      have hcolor : T.color a.1 = some c := color_at _ hM hsn
      have hl : T.child .left a.1 = some (addr l) := child_at (s := .left) _ hM
      have hr : T.child .right a.1 = some (addr r) := child_other_at (s := .left) _ hM
      have hone : c = .red ∨ c = .black := by cases c <;> decide
      have hleft := ihl (⟨.left, c, a, r⟩ :: path) hM (show height l < fuel by omega)
      have hright := ihr (⟨.right, c, a, l⟩ :: path) hM (show height r < fuel by omega)
      rw [debugVerifyProperty1, if_neg (addr_ne_nil_at _ hM (RbTree.node_ne_nil _ _ _ _)), addr_node, hcolor]
      simp [guard, hone, hl, hr, hleft, hright]

theorem debugVerifyRed_at (path : List (Frame (Ptr × κ)))
    (hM : Models T.nodes (shape sn (plug t path) rest)) (hsn : sn.color = .black)
    (ht : Balanced t c n) (hpath : BalancedPath path c n) : T.debugVerifyRed (addr t) = some () := by
  rw [debugVerifyRed, debugNodeColor_at _ hM hsn, ht.color_eq]
  cases ht with
  | nil => rfl
  | black hl hr => rfl
  | @red l r a n hl hr =>
      rcases hpath.exists_cons_of_red with ⟨f, path', rfl, hblack, _, _⟩
      have hchildl : T.child .left a.1 = some (addr l) := child_at (s := .left) _ hM
      have hchildr : T.child .right a.1 = some (addr r) := child_other_at (s := .left) _ hM
      have hparent : T.parent a.1 = some f.elem.1 := parent_at _ hM (RbTree.node_ne_nil _ _ _ _)
      have hcl := debugNodeColor_at (t := l) (⟨.left, .red, a, r⟩ :: f :: path') hM hsn
      have hcr := debugNodeColor_at (t := r) (⟨.right, .red, a, l⟩ :: f :: path') hM hsn
      have hcp := debugNodeColor_at (t := f.attach (.node .red l a r)) path' hM hsn
      rw [Frame.attach, addr_join, RbTree.color_join, hblack] at hcp
      rw [hl.color_eq] at hcl
      rw [hr.color_eq] at hcr
      simp [guard, hchildl, hchildr, hparent, hcl, hcr, hcp]

theorem debugVerifyProperty4_at (path : List (Frame (Ptr × κ)))
    (hM : Models T.nodes (shape sn (plug t path) rest)) (hsn : sn.color = .black)
    (ht : Balanced t c n) (hpath : BalancedPath path c n) {fuel : ℕ} (hfuel : height t < fuel) :
    T.debugVerifyProperty4 fuel (addr t) = some () := by
  induction ht generalizing path fuel with
  | nil =>
      rcases fuel with _ | fuel
      · exact absurd hfuel (Nat.not_lt_zero _)
      · rw [debugVerifyProperty4, debugVerifyRed_at _ hM hsn .nil hpath, Option.bind_eq_bind, Option.bind_some]
        exact if_pos rfl
  | @red l r a n hl hr ihl ihr =>
      rw [height] at hfuel
      obtain ⟨fuel, rfl⟩ : ∃ k, fuel = k + 1 := ⟨fuel - 1, by omega⟩
      have hchildl : T.child .left a.1 = some (addr l) := child_at (s := .left) _ hM
      have hchildr : T.child .right a.1 = some (addr r) := child_other_at (s := .left) _ hM
      have hleft := ihl (⟨.left, .red, a, r⟩ :: path) hM (.red hr hpath) (show height l < fuel by omega)
      have hright := ihr (⟨.right, .red, a, l⟩ :: path) hM (.red hl hpath) (show height r < fuel by omega)
      rw [debugVerifyProperty4, debugVerifyRed_at _ hM hsn (.red hl hr) hpath, Option.bind_eq_bind, Option.bind_some,
        if_neg (addr_ne_nil_at _ hM (RbTree.node_ne_nil _ _ _ _))]
      simp [hchildl, hchildr, hleft, hright]
  | @black l r a cl cr n hl hr ihl ihr =>
      rw [height] at hfuel
      obtain ⟨fuel, rfl⟩ : ∃ k, fuel = k + 1 := ⟨fuel - 1, by omega⟩
      have hchildl : T.child .left a.1 = some (addr l) := child_at (s := .left) _ hM
      have hchildr : T.child .right a.1 = some (addr r) := child_other_at (s := .left) _ hM
      have hleft := ihl (⟨.left, .black, a, r⟩ :: path) hM (.black hr hpath) (show height l < fuel by omega)
      have hright := ihr (⟨.right, .black, a, l⟩ :: path) hM (.black hl hpath) (show height r < fuel by omega)
      rw [debugVerifyProperty4, debugVerifyRed_at _ hM hsn (.black hl hr) hpath, Option.bind_eq_bind,
        Option.bind_some, if_neg (addr_ne_nil_at _ hM (RbTree.node_ne_nil _ _ _ _))]
      simp [hchildl, hchildr, hleft, hright]

/-- The count of black nodes at the end of every way is the same. -/
theorem debugVerifyProperty5Helper_at (path : List (Frame (Ptr × κ)))
    (hM : Models T.nodes (shape sn (plug t path) rest)) (hsn : sn.color = .black)
    (ht : Balanced t c n) {fuel k : ℕ} (hfuel : height t < fuel) {pathCount : Option ℕ}
    (hcount : pathCount = none ∨ pathCount = some (k + n + 1)) :
    T.debugVerifyProperty5Helper fuel (addr t) k pathCount = some (some (k + n + 1)) := by
  induction ht generalizing path fuel k pathCount with
  | nil =>
      rcases fuel with _ | fuel
      · exact absurd hfuel (Nat.not_lt_zero _)
      · rw [debugVerifyProperty5Helper, debugNodeColor_at _ hM hsn]
        rcases hcount with rfl | rfl
        · rfl
        · simp [RbTree.color, guard]
  | @red l r a n hl hr ihl ihr =>
      rw [height] at hfuel
      obtain ⟨fuel, rfl⟩ : ∃ k, fuel = k + 1 := ⟨fuel - 1, by omega⟩
      have hchildl : T.child .left a.1 = some (addr l) := child_at (s := .left) _ hM
      have hchildr : T.child .right a.1 = some (addr r) := child_other_at (s := .left) _ hM
      have hleft := ihl (⟨.left, .red, a, r⟩ :: path) hM (show height l < fuel by omega) hcount
      have hright := ihr (⟨.right, .red, a, l⟩ :: path) hM (show height r < fuel by omega)
        (k := k) (Or.inr rfl)
      rw [debugVerifyProperty5Helper, debugNodeColor_at _ hM hsn, Option.bind_eq_bind, Option.bind_some,
        if_neg (addr_ne_nil_at _ hM (RbTree.node_ne_nil _ _ _ _))]
      simp [RbTree.color, hchildl, hchildr, hleft, hright]
  | @black l r a cl cr n hl hr ihl ihr =>
      rw [height] at hfuel
      obtain ⟨fuel, rfl⟩ : ∃ k, fuel = k + 1 := ⟨fuel - 1, by omega⟩
      have hchildl : T.child .left a.1 = some (addr l) := child_at (s := .left) _ hM
      have hchildr : T.child .right a.1 = some (addr r) := child_other_at (s := .left) _ hM
      have hsum : k + (n + 1) + 1 = k + 1 + n + 1 := by omega
      rw [hsum] at hcount ⊢
      have hleft := ihl (⟨.left, .black, a, r⟩ :: path) hM (show height l < fuel by omega) hcount
      have hright := ihr (⟨.right, .black, a, l⟩ :: path) hM (show height r < fuel by omega)
        (k := k + 1) (Or.inr rfl)
      rw [debugVerifyProperty5Helper, debugNodeColor_at _ hM hsn, Option.bind_eq_bind, Option.bind_some,
        if_neg (addr_ne_nil_at _ hM (RbTree.node_ne_nil _ _ _ _))]
      simp [RbTree.color, hchildl, hchildr, hleft, hright]

theorem debugVerifyProperties_eq (hM : Models T.nodes (shape sn t rest)) (hroot : T.root = addr t)
    (hsn : sn.color = .black) (ht : Balanced t .black n) {fuel : ℕ} (hfuel : height t < fuel) :
    T.debugVerifyProperties fuel = some () := by
  have h1 := debugVerifyProperty1_at [] hM hsn hfuel
  have h2 := debugNodeColor_at [] hM hsn
  have h4 := debugVerifyProperty4_at [] hM hsn ht (.root n) hfuel
  have h5 := debugVerifyProperty5Helper_at (k := 0) [] hM hsn ht hfuel (Or.inl rfl)
  rw [ht.color_eq] at h2
  simp [debugVerifyProperties, debugVerifyProperty2, guard, hroot, h1, h2, h4, h5]

end Verify

end RbtTree

end SsrNative
