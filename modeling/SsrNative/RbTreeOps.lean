import SsrNative.RbTreeRemove

/-!
# RbTreeOps — the operations and the list of entries

What a caller sees of a tree is the list of its entries in order.  `Contains` ties a tree record to such a list;
each operation is described by what it does to the list.
-/

namespace SsrNative

open Lib Lib.RedBlackTree

namespace RbtTree

open RbtNode Cells

variable {κ : Type} {T : RbtTree κ} {compare : κ → κ → ℤ} {key : κ} {elems : List (Ptr × κ)} {fuel : ℕ}

/-! ## A new node -/

section Insert

variable {sn : RbtNode κ} {t : RbTree (Ptr × κ)} {path : List (Frame (Ptr × κ))} {z : Ptr}

/-- The new node is linked at the place where the way down ended. -/
theorem linkNew_yields {M : Memory κ} (hM : Models T.nodes ({(nil, sn)} + (pathLayout nil path + M)))
    (hroot : path ≠ [] → T.root = pathRoot nil path) (hne : nil ∉ (pathLayout nil path).map Prod.fst)
    (hbefore : ∀ a ∈ before path, ¬ compare key a.2 < 0) (hafter : ∀ a ∈ after path, compare key a.2 < 0) :
    Yields T
      (if top path = nil then
        some { T with root := z }
      else do
        let ky ← T.key (top path)
        T.setChild (if compare key ky < 0 then .left else .right) (top path) z)
      ({(nil, sn)} + (pathLayout z path + M)) (pathRoot z path) := by
  cases path with
  | nil => exact ⟨T.nodes, if_pos rfl, hM⟩
  | cons f path =>
      rcases f with ⟨s, c, a, sib⟩
      have hcell : Models T.nodes ({(a.1, cell s nil (addr sib) (top path) c a.2)} +
          ({(nil, sn)} + (layout a.1 sib + (pathLayout a.1 path + M)))) :=
        hM.of_eq (by rw [pathLayout]; abel)
      have hnil : a.1 ≠ nil := by
        intro heq
        refine hne ?_
        rw [pathLayout, Multiset.map_add, Multiset.map_singleton, ← heq]
        exact Multiset.mem_add.2 (Or.inl (Multiset.mem_singleton_self _))
      have hside : (if compare key a.2 < 0 then Side.left else Side.right) = s := by
        cases s with
        | left => exact if_pos (hafter a (List.mem_append_left _ (List.mem_cons_self ..)))
        | right => exact if_neg (hbefore a (List.mem_append_right _ (List.mem_append_right _ (List.mem_singleton_self _))))
      rw [top, if_neg hnil]
      refine yields_read ((key_eq hcell).trans (key_cell _ _ _ _ _ _)) ?_
      rw [hside]
      refine (setChild_yields hcell z).of_eq ?_ (hroot (List.cons_ne_nil _ _))
      rw [pathLayout]
      abel

theorem rbInsert_repaired (hcmp : Comparison.Lawful compare) {n : ℕ}
    (hM : Models T.nodes (shape sn t {(z, cell .left nil nil nil .red key)})) (hroot : T.root = addr t)
    (hsn : sn.color = .black) (ht : Balanced t .black n)
    (hsorted : t.toList.Pairwise fun a b => compare a.2 b.2 ≤ 0) (hfuel : height t < fuel) :
    ∃ pre post, t.toList = pre ++ post ∧ (∀ a ∈ pre, ¬ compare key a.2 < 0) ∧ (∀ a ∈ post, compare key a.2 < 0) ∧
      Repaired T (T.rbInsert compare fuel z) sn (pre ++ (z, key) :: post) 0 := by
  have hcell : Models T.nodes ({(z, cell .left nil nil nil .red key)} + ({(nil, sn)} + layout nil t)) := by
    refine hM.of_eq ?_
    rw [shape]
    abel
  have hstart : ∀ a ∈ before ([] : List (Frame (Ptr × κ))), ¬ compare key a.2 < 0 := by simp [before]
  rcases insertDescend_spec hcmp [] hM hsorted hstart (by simp [after]) hfuel with
    ⟨path, hdescend, hplug, hbefore, hafter⟩
  -- the tree, seen from the free place
  rw [plug] at hplug
  subst hplug
  have hlist : (plug .nil path).toList = before path ++ after path := by
    rw [toList_plug, RbTree.toList_nil, List.append_nil]
  have hlayout : layout nil (plug .nil path) = pathLayout nil path := by
    rw [layout_plug, layout, zero_add, addr_nil]
  have hpath : BalancedPath path .black 0 := by
    rcases BalancedPath.of_plug ht with ⟨c, m, hnil, hpath⟩
    cases hnil
    exact hpath
  have hlength : path.length < fuel :=
    ((Nat.le_add_left _ _).trans (height_add_length_le .nil path)).trans_lt hfuel
  have hrootPath : T.root = pathRoot nil path := hroot.trans (addr_plug _ _)
  have hnotMem : nil ∉ (pathLayout nil path).map Prod.fst := by
    have hnil : Models T.nodes ({(nil, sn)} + (pathLayout nil path + {(z, cell .left nil nil nil .red key)})) := by
      refine hcell.of_eq ?_
      rw [hlayout]
      abel
    have hfst := hnil.nodup_cons.1
    rw [Multiset.map_add] at hfst
    exact fun hmem => hfst (Multiset.mem_add.2 (Or.inl hmem))
  refine ⟨before path, after path, hlist, hbefore, hafter, ?_⟩
  rw [rbInsert, hroot]
  refine repaired_read ((key_eq hcell).trans (key_cell _ _ _ _ _ _)) (repaired_read hdescend ?_)
  refine Repaired.bind (setParent_yields hcell (top path)) fun T1 hM1 hr1 => ?_
  rw [setParent_cell, hlayout] at hM1
  refine Repaired.bind (linkNew_yields (M := {(z, cell .left nil nil (top path) .red key)}) (hM1.of_eq (by abel))
    (fun _ => hr1.trans hrootPath) hnotMem hbefore hafter) fun T2 hM2 hr2 => ?_
  have hcell2 : Models T2.nodes ({(z, cell .left nil nil (top path) .red key)} + ({(nil, sn)} + pathLayout z path)) :=
    hM2.of_eq (by abel)
  refine Repaired.bind (setChild_yields hcell2 nil) fun T3 hM3 hr3 => ?_
  refine Repaired.bind (setChild_other_yields hM3 nil) fun T4 hM4 hr4 => ?_
  refine Repaired.bind (setColor_yields hM4 .red) fun T5 hM5 hr5 => ?_
  rw [setColor_cell] at hM5
  have hshape5 : Models T5.nodes (shape sn (plug (.node .red .nil (z, key) .nil) path) 0) := by
    refine hM5.of_eq ?_
    rw [shape, layout_plug, addr_node]
    simp only [layout, addr_nil]
    abel
  have hroot5 : T5.root = addr (plug (.node .red .nil (z, key) .nil) path) := by
    rw [hr5, hr4, hr3, hr2, addr_plug, addr_node]
  have hnew := rbInsertFixup_repaired hsn hshape5 hroot5 (.red .nil .nil) hpath hlength
  rw [toList_plug, RbTree.toList_node, RbTree.toList_nil, List.nil_append, List.append_assoc] at hnew
  exact hnew

end Insert

/-- `_node_destroy` hands the key to the destructor and gives the node back. -/
theorem nodeDestroy_spec {M : Memory κ} {p : Ptr} {n : RbtNode κ} {k : κ} (hM : Models T.nodes ({(p, n)} + M))
    (hp : p ≠ nil) (hkey : n.key = some k) :
    ∃ T', T.nodeDestroy p = some T' ∧ Models T'.nodes M ∧ T'.root = T.root ∧ T'.allowDup = T.allowDup ∧
      T'.destructed = T.destructed ++ [k] := by
  refine ⟨{ T with nodes := Function.update T.nodes p none, destructed := T.destructed ++ [k] }, ?_, hM.free, rfl,
    rfl, rfl⟩
  rw [nodeDestroy, key_eq hM, hkey]
  simp [guard, hp]

/-! ## The list of entries -/

/-- The tree record stands for a balanced search tree with these entries, and nothing else is allocated. -/
structure Contains (compare : κ → κ → ℤ) (T : RbtTree κ) (elems : List (Ptr × κ)) : Prop where
  inOrder : InOrder compare T.allowDup elems
  exists_tree : ∃ sn t n, IsSentinel sn ∧ Balanced t .black n ∧ t.toList = elems ∧
    Models T.nodes (shape sn t 0) ∧ T.root = addr t

/-- Enough steps for every loop on a tree of `n` entries. -/
def stepBound (n : ℕ) : ℕ := 2 * Nat.log 2 (n + 1) + 2

theorem stepBound_mono {n m : ℕ} (h : n ≤ m) : stepBound n ≤ stepBound m :=
  Nat.add_le_add_right (Nat.mul_le_mul_left 2 (Nat.log_mono_right (Nat.succ_le_succ h))) 2

theorem stepBound_le (n : ℕ) : stepBound n ≤ 2 * n + 2 := by
  have hlog : Nat.log 2 (n + 1) ≤ n := Nat.lt_succ_iff.1 (Nat.log_lt_self 2 (Nat.succ_ne_zero n))
  rw [stepBound]
  omega

theorem height_lt_of_stepBound {t : RbTree (Ptr × κ)} {n : ℕ} (ht : Balanced t .black n)
    (hfuel : stepBound t.toList.length ≤ fuel) : height t + 1 < fuel := by
  have hheight := ht.height_le_log
  rw [stepBound] at hfuel
  omega

theorem rbtTreeCreate_contains (compare : κ → κ → ℤ) (dup : Bool) : Contains compare (rbtTreeCreate dup) [] := by
  refine ⟨List.Pairwise.nil, ⟨nil, nil, nil, .black, none⟩, .nil, 0, ⟨rfl, rfl⟩, .nil, rfl, ⟨?_, fun p n => ?_⟩, rfl⟩
  · exact Multiset.nodup_singleton _
  · by_cases hp : p = nil
    · subst hp
      simp [rbtTreeCreate, shape, layout, eq_comm]
    · simp [rbtTreeCreate, shape, layout, hp]

namespace Contains

/-- The addresses of the entries are different, and none is that of the sentinel. -/
theorem nodup (hT : Contains compare T elems) : (nil :: elems.map Prod.fst).Nodup := by
  rcases hT.exists_tree with ⟨sn, t, n, _, _, rfl, hM, _⟩
  exact nodup_addrs hM

theorem ne_nil (hT : Contains compare T elems) {a : Ptr × κ} (ha : a ∈ elems) : a.1 ≠ nil := fun hnil =>
  (List.nodup_cons.1 hT.nodup).1 (hnil ▸ List.mem_map_of_mem (f := Prod.fst) ha)

theorem nodes_eq_none_iff (hT : Contains compare T elems) {p : Ptr} :
    T.nodes p = none ↔ p ≠ nil ∧ p ∉ elems.map Prod.fst := by
  rcases hT.exists_tree with ⟨sn, t, n, _, _, rfl, hM, _⟩
  rw [hM.eq_none_iff, shape, add_zero, Multiset.map_add, map_fst_layout, Multiset.map_singleton, Multiset.mem_add,
    Multiset.mem_singleton, Multiset.mem_coe, not_or]

/-! ## Search -/

/-- `rbt_tree_find` answers with an entry that compares equal, and with the sentinel when there is none. -/
theorem find (hcmp : Comparison.Lawful compare) (hT : Contains compare T elems) (key : κ)
    (hfuel : stepBound elems.length ≤ fuel) :
    (∃ a ∈ elems, compare key a.2 = 0 ∧ T.rbtTreeFind compare fuel key = some a.1) ∨
      ((∀ a ∈ elems, compare key a.2 ≠ 0) ∧ T.rbtTreeFind compare fuel key = some nil) := by
  have hsorted := hT.inOrder.le
  rcases hT.exists_tree with ⟨sn, t, n, _, ht, rfl, hM, hroot⟩
  have hheight := height_lt_of_stepBound ht hfuel
  rw [rbtTreeFind, hroot]
  exact findLoop_spec hcmp [] hM hsorted (by omega)

/-- `rbt_tree_successor` answers with the next entry, and with the sentinel behind the last one. -/
theorem successor {pre post : List (Ptr × κ)} {a : Ptr × κ} (hT : Contains compare T (pre ++ a :: post))
    (hfuel : stepBound (pre ++ a :: post).length ≤ fuel) : T.rbtTreeSuccessor fuel a.1 = some (headAddr post) := by
  rcases hT.exists_tree with ⟨sn, t, n, _, ht, hlist, hM, hroot⟩
  rw [← hlist] at hfuel
  have hheight := height_lt_of_stepBound ht hfuel
  rcases exists_place hlist [] with ⟨c, l, r, path, hplug, _, hpost⟩
  rw [plug] at hplug
  rw [after, List.append_nil] at hpost
  rw [← hplug] at hM hroot hheight
  rw [rbtTreeSuccessor_at hM hroot (Nat.le_of_succ_le hheight.le), hpost]

/-- `rbt_tree_minimum` of the root is the first entry, and the sentinel of an empty tree. -/
theorem minimum (hT : Contains compare T elems) (hfuel : stepBound elems.length ≤ fuel) :
    T.treeMinimum fuel T.root = some (headAddr elems) := by
  rcases hT.exists_tree with ⟨sn, t, n, hsn, ht, rfl, hM, hroot⟩
  have hheight := height_lt_of_stepBound ht hfuel
  rw [hroot]
  by_cases hnil : t = .nil
  · subst hnil
    obtain ⟨fuel, rfl⟩ : ∃ k, fuel = k + 1 := ⟨fuel - 1, by omega⟩
    have hcell : Models T.nodes ({(nil, sn)} + 0) := hM
    have hleft : T.child .left nil = some nil := by
      rw [child, hcell.get, Option.map_some]
      exact congrArg some hsn.1
    rw [addr_nil, treeMinimum, hleft]
    rfl
  · exact treeMinimum_eq [] hM hnil (by omega)

/-! ## Insertion -/

/-- What is left of a tree record when only nodes and root have changed. -/
theorem of_repaired {o : Option (RbtTree κ)} {sn : RbtNode κ} (hsn : IsSentinel sn)
    (ho : Repaired T o sn elems 0) (horder : InOrder compare T.allowDup elems) :
    ∃ T', o = some T' ∧ Contains compare T' elems ∧ T'.allowDup = T.allowDup ∧ T'.destructed = T.destructed := by
  rcases ho with ⟨t, n, hlist, ht, h, rfl, hM⟩
  exact ⟨_, rfl, ⟨horder, sn, t, n, hsn, ht, hlist, hM, rfl⟩, rfl, rfl⟩

theorem debugVerify (hT : Contains compare T elems) (hfuel : stepBound elems.length ≤ fuel) :
    T.debugVerifyProperties fuel = some () := by
  rcases hT.exists_tree with ⟨sn, t, n, hsn, ht, rfl, hM, hroot⟩
  have hheight := height_lt_of_stepBound ht hfuel
  exact debugVerifyProperties_eq hM hroot hsn.2 ht (by omega)

/-- A key that compares equal to another is refused, unless duplicates are allowed. -/
theorem insert_duplicate (hcmp : Comparison.Lawful compare) (hT : Contains compare T elems)
    (hfuel : stepBound elems.length ≤ fuel) (hdup : T.allowDup = false)
    (hmem : ∃ a ∈ elems, compare key a.2 = 0) (mem : Option Ptr) :
    T.rbtTreeInsert compare fuel key mem = some (T, .keyDuplicate) := by
  rcases hT.find hcmp key hfuel with ⟨a, ha, hzero, hfind⟩ | ⟨hnone, _⟩
  · have hne : a.1 ≠ nil := hT.ne_nil ha
    simp [rbtTreeInsert, hdup, hfind, hne]
  · rcases hmem with ⟨a, ha, hzero⟩
    exact absurd hzero (hnone a ha)

theorem insert_new (hcmp : Comparison.Lawful compare) (hT : Contains compare T elems)
    (hfuel : stepBound (elems.length + 1) ≤ fuel)
    (hnew : T.allowDup = false → ∀ a ∈ elems, compare key a.2 ≠ 0) {z : Ptr} (hz : T.nodes z = none) :
    ∃ pre post T', elems = pre ++ post ∧ (∀ a ∈ pre, ¬ compare key a.2 < 0) ∧ (∀ a ∈ post, compare key a.2 < 0) ∧
      T.rbtTreeInsert compare fuel key (some z) = some (T', .success) ∧
      Contains compare T' (pre ++ (z, key) :: post) ∧ T'.allowDup = T.allowDup ∧ T'.destructed = T.destructed := by
  have hfind : (if T.allowDup then some nil else T.rbtTreeFind compare fuel key) = some nil := by
    cases hdup : T.allowDup with
    | true => rfl
    | false =>
        rcases hT.find hcmp key ((stepBound_mono (Nat.le_succ _)).trans hfuel) with
          ⟨a, ha, hzero, _⟩ | ⟨_, hnil⟩
        · exact absurd hzero (hnew hdup a ha)
        · exact hnil
  have hsorted := hT.inOrder.le
  have horder := hT.inOrder
  rcases hT.exists_tree with ⟨sn, t, n, hsn, ht, rfl, hM, hroot⟩
  have hheight := height_lt_of_stepBound ht ((stepBound_mono (Nat.le_succ _)).trans hfuel)
  have hcreated : Models (T.createNode key z).nodes (shape sn t {(z, cell .left nil nil nil .red key)}) := by
    refine (hM.alloc hz _).of_eq ?_
    rw [shape, shape]
    simp only [RbtNode.cell]
    abel
  rcases rbInsert_repaired hcmp hcreated hroot hsn.2 ht hsorted (show height t < fuel by omega) with
    ⟨pre, post, hlist, hpre, hpost, hrepaired⟩
  have horder' : InOrder compare T.allowDup (pre ++ (z, key) :: post) := by
    rw [InOrder, hlist, List.pairwise_append] at horder
    rw [InOrder, List.pairwise_append, List.pairwise_cons]
    refine ⟨horder.1, ⟨fun a ha => ?_, horder.2.1⟩, fun a ha b hb => ?_⟩
    · have hlt := hpost a ha
      split_ifs
      · exact hlt.le
      · exact hlt
    · rcases List.mem_cons.1 hb with rfl | hb
      · have hle : compare a.2 key ≤ 0 := hcmp.nonneg_iff.1 (not_lt.1 (hpre a ha))
        split_ifs with hdup
        · exact hle
        · have hne := hnew (by simpa using hdup) a (hlist ▸ List.mem_append_left _ ha)
          exact lt_of_le_of_ne hle fun hzero => hne (hcmp.eq_zero_comm.1 hzero)
      · exact horder.2.2 a ha b hb
  rcases of_repaired (T := T.createNode key z) hsn hrepaired horder' with ⟨T', hinsert, hT', hdup', hdestructed⟩
  refine ⟨pre, post, T', hlist, hpre, hpost, ?_, hT', hdup', hdestructed⟩
  have hlength : (pre ++ (z, key) :: post).length = t.toList.length + 1 := by
    rw [hlist]
    simp only [List.length_append, List.length_cons]
    omega
  have hverify := hT'.debugVerify (hlength ▸ hfuel)
  rw [rbtTreeInsert, hfind, Option.bind_eq_bind, Option.bind_some, if_neg (not_not.2 rfl)]
  simp [hinsert, hverify]

/-! ## Removal -/

theorem remove_absent (hcmp : Comparison.Lawful compare) (hT : Contains compare T elems)
    (hfuel : stepBound elems.length ≤ fuel) (hnone : ∀ a ∈ elems, compare key a.2 ≠ 0) :
    T.rbtTreeRemoveNode compare fuel key = some (T, .keyNotExist) := by
  rcases hT.find hcmp key hfuel with ⟨a, ha, hzero, _⟩ | ⟨_, hnil⟩
  · exact absurd hzero (hnone a ha)
  · rw [rbtTreeRemoveNode, hnil, Option.bind_eq_bind, Option.bind_some, if_pos rfl]
    rfl

theorem remove_present (hcmp : Comparison.Lawful compare) (hT : Contains compare T elems)
    (hfuel : stepBound elems.length ≤ fuel) (hmem : ∃ a ∈ elems, compare key a.2 = 0) :
    ∃ pre a post T', elems = pre ++ a :: post ∧ compare key a.2 = 0 ∧
      T.rbtTreeRemoveNode compare fuel key = some (T', .success) ∧ Contains compare T' (pre ++ post) ∧
      T'.allowDup = T.allowDup ∧ T'.destructed = T.destructed ++ [a.2] := by
  rcases hT.find hcmp key hfuel with ⟨a, ha, hzero, hfind⟩ | ⟨hnone, _⟩
  · have hne : a.1 ≠ nil := hT.ne_nil ha
    rcases List.append_of_mem ha with ⟨pre, post, rfl⟩
    have horder : InOrder compare T.allowDup (pre ++ post) :=
      List.Pairwise.sublist (List.Sublist.append (List.Sublist.refl pre) (List.sublist_cons_self a post)) hT.inOrder
    rcases hT.exists_tree with ⟨sn, t, n, hsn, ht, hlist, hM, hroot⟩
    have hheight := height_lt_of_stepBound ht (hlist ▸ hfuel)
    rcases exists_place hlist [] with ⟨c, l, r, path, hplug, hpre, hpost⟩
    rw [plug] at hplug
    rw [before, List.nil_append] at hpre
    rw [after, List.append_nil] at hpost
    subst hplug
    rcases rbDelete_repaired hM hroot hsn ht hheight with
      ⟨sn', nz, hsn', hkey, t', m, hlist', ht', h, hdelete, hM'⟩
    have hcell : Models h ({(a.1, nz)} + shape sn' t' 0) := by
      refine hM'.of_eq ?_
      rw [shape, shape]
      abel
    have hlist'' : t'.toList = pre ++ post := by
      rw [hlist', ← hpre, ← hpost]
      simp only [List.append_assoc]
    rcases nodeDestroy_spec (T := { T with nodes := h, root := addr t' }) hcell hne hkey with
      ⟨T', hdestroy, hM'', hroot', hdup', hdestructed⟩
    have hT' : Contains compare T' (pre ++ post) := by
      refine ⟨?_, sn', t', m, hsn', ht', hlist'', hM'', hroot'⟩
      rw [hdup']
      exact horder
    have hshort : (pre ++ post).length ≤ (pre ++ a :: post).length := by
      simp only [List.length_append, List.length_cons]
      omega
    have hverify := hT'.debugVerify ((stepBound_mono hshort).trans hfuel)
    refine ⟨pre, a, post, T', rfl, hzero, ?_, hT', hdup', hdestructed⟩
    rw [rbtTreeRemoveNode, hfind, Option.bind_eq_bind, Option.bind_some, if_neg hne]
    simp [hdelete, hdestroy, hverify]
  · rcases hmem with ⟨a, ha, hzero⟩
    exact absurd hzero (hnone a ha)

end Contains

/-! ## Destruction -/

section Destroy

variable {sn : RbtNode κ} {path : List (Frame (Ptr × κ))}

/-- The order in which the nodes of a subtree are given back. -/
def postorder : RbTree (Ptr × κ) → List κ
  | .nil => []
  | .node _ l a r => postorder l ++ postorder r ++ [a.2]

theorem postorder_perm (t : RbTree (Ptr × κ)) : (postorder t).Perm (t.toList.map Prod.snd) := by
  induction t with
  | nil => exact List.Perm.refl _
  | node c l a r ihl ihr =>
      rw [postorder, RbTree.toList_node, List.map_append, List.map_cons, List.append_assoc]
      exact ihl.append ((List.perm_append_singleton _ _).trans (ihr.cons _))

/-- What is given back after the subtree at a place: nothing is left on the left of the way. -/
def afterPlace : List (Frame (Ptr × κ)) → List κ
  | [] => []
  | f :: path => (if f.side = .left then postorder f.sibling else []) ++ f.elem.2 :: afterPlace path

/-- The loop goes to the right only when nothing is left on the left. -/
def LeftDone (path : List (Frame (Ptr × κ))) : Prop := ∀ f ∈ path, f.side = .right → f.sibling = .nil

/-- A leaf is given back, and its parent has no child there any more. -/
theorem destroyChild_spec {c : Color} {a : Ptr × κ} {f : Frame (Ptr × κ)}
    (hM : Models T.nodes (shape sn (plug (.node c .nil a .nil) (f :: path)) 0))
    (hdone : f.side = .right → f.sibling = .nil) :
    ∃ T', T.destroyChild f.elem.1 = some T' ∧ Models T'.nodes (shape sn (plug .nil (f :: path)) 0) ∧
      T'.destructed = T.destructed ++ [a.2] := by
  have hne : a.1 ≠ nil := addr_ne_nil_at (f :: path) hM (RbTree.node_ne_nil _ _ _ _)
  have hleaf : Models T.nodes ({(a.1, cell .left nil nil f.elem.1 c a.2)} + ({(nil, sn)} + (layout f.elem.1 f.sibling +
      ({(f.elem.1, cell f.side a.1 (addr f.sibling) (top path) f.color f.elem.2)} + pathLayout f.elem.1 path)))) := by
    refine (models_cons hM).of_eq ?_
    simp only [layout, addr_nil, addr_node]
    abel
  rcases nodeDestroy_spec hleaf hne (key_cell _ _ _ _ _ _) with ⟨T1, hdestroy, hM1, _, _, hdestructed⟩
  have hparent1 : Models T1.nodes ({(f.elem.1, cell f.side a.1 (addr f.sibling) (top path) f.color f.elem.2)} +
      ({(nil, sn)} + (layout f.elem.1 f.sibling + pathLayout f.elem.1 path))) := hM1.of_eq (by abel)
  rcases setChild_yields hparent1 nil with ⟨h, hset, hM2⟩
  refine ⟨{ T1 with nodes := h }, ?_, hM2.of_eq ?_, hdestructed⟩
  · have hchild : T.child f.side f.elem.1 = some a.1 := child_at path hM
    have hother : T.child f.side.other f.elem.1 = some (addr f.sibling) := child_other_at path hM
    rcases f with ⟨s, cf, b, sib⟩
    cases s with
    | left =>
        have hleft : T.child .left b.1 = some a.1 := hchild
        rw [destroyChild, hleft, Option.bind_eq_bind, Option.bind_some, if_pos hne, hdestroy]
        exact hset
    | right =>
        obtain rfl : sib = .nil := hdone rfl
        have hleft : T.child .left b.1 = some nil := hother
        have hright : T.child .right b.1 = some a.1 := hchild
        rw [destroyChild, hleft, Option.bind_eq_bind, Option.bind_some, if_neg (not_not.2 rfl), hright,
          Option.bind_eq_bind, Option.bind_some, if_pos hne, hdestroy]
        exact hset
  · rw [shape, layout_plug, layout, pathLayout, addr_nil]
    abel

/-- One round of the loop at a node. -/
theorem destroyLoop_node {c : Color} {a : Ptr × κ} {l r : RbTree (Ptr × κ)} (path : List (Frame (Ptr × κ)))
    (hM : Models T.nodes (shape sn (plug (.node c l a r) path) 0)) (fuel : ℕ) :
    T.destroyLoop (fuel + 1) a.1 =
      if addr l ≠ nil then T.destroyLoop fuel (addr l)
      else if addr r ≠ nil then T.destroyLoop fuel (addr r)
      else if top path ≠ nil then T.destroyChild (top path) >>= fun T => T.destroyLoop fuel (top path)
      else T.nodeDestroy a.1 >>= fun T => T.destroyLoop fuel nil := by
  have hne : a.1 ≠ nil := addr_ne_nil_at path hM (RbTree.node_ne_nil _ _ _ _)
  have hleft : T.child .left a.1 = some (addr l) := child_at (s := .left) path hM
  have hright : T.child .right a.1 = some (addr r) := child_other_at (s := .left) path hM
  have hparent : T.parent a.1 = some (top path) := parent_at path hM (RbTree.node_ne_nil _ _ _ _)
  rw [destroyLoop, if_neg hne, hleft, Option.bind_eq_bind, Option.bind_some, hright, Option.bind_some, hparent]
  rfl

/-- The last node is given back, and the loop ends. -/
theorem destroyLoop_root {c : Color} {a : Ptr × κ} (hM : Models T.nodes (shape sn (.node c .nil a .nil) 0)) (fuel : ℕ) :
    ∃ T', T.destroyLoop (fuel + 2) a.1 = some T' ∧ Models T'.nodes {(nil, sn)} ∧
      T'.destructed = T.destructed ++ [a.2] := by
  have hne : a.1 ≠ nil := addr_ne_nil_at (t := .node c .nil a .nil) [] hM (RbTree.node_ne_nil _ _ _ _)
  have hcell : Models T.nodes ({(a.1, cell .left nil nil nil c a.2)} + {(nil, sn)}) := by
    refine hM.of_eq ?_
    simp only [shape, layout, addr_nil]
    abel
  rcases nodeDestroy_spec hcell hne (key_cell _ _ _ _ _ _) with ⟨T', hdestroy, hM', _, _, hdestructed⟩
  have hstop : T'.destroyLoop (fuel + 1) nil = some T' := if_pos rfl
  refine ⟨T', ?_, hM', hdestructed⟩
  rw [destroyLoop_node [] hM, if_neg (not_not.2 addr_nil), if_neg (not_not.2 addr_nil), top, if_neg (not_not.2 rfl),
    hdestroy]
  exact hstop

/-- A leaf that has a parent is given back, and the loop goes on at the parent. -/
theorem destroyLoop_leaf {c : Color} {a : Ptr × κ} {f : Frame (Ptr × κ)}
    (hM : Models T.nodes (shape sn (plug (.node c .nil a .nil) (f :: path)) 0))
    (hdone : f.side = .right → f.sibling = .nil) (fuel : ℕ) :
    ∃ T' : RbtTree κ, T.destroyLoop (fuel + 1) a.1 = T'.destroyLoop fuel f.elem.1 ∧
      Models T'.nodes (shape sn (plug .nil (f :: path)) 0) ∧ T'.destructed = T.destructed ++ [a.2] := by
  have hpne : f.elem.1 ≠ nil := by
    have hup : f.attach (.node c .nil a .nil) ≠ .nil := RbTree.join_ne_nil _ _ _ _ _
    have haddr := addr_ne_nil_at (t := f.attach (.node c .nil a .nil)) path hM hup
    rwa [Frame.attach, addr_join] at haddr
  rcases destroyChild_spec hM hdone with ⟨T', hchild, hM', hdestructed⟩
  refine ⟨T', ?_, hM', hdestructed⟩
  rw [destroyLoop_node _ hM, if_neg (not_not.2 addr_nil), if_neg (not_not.2 addr_nil), top, if_pos hpne, hchild]
  rfl

theorem length_plug_leaf (c : Color) (a : Ptr × κ) (path : List (Frame (Ptr × κ))) :
    (plug (.node c .nil a .nil) path).toList.length = (plug .nil path).toList.length + 1 := by
  simp only [toList_plug, RbTree.toList_node, RbTree.toList_nil, List.length_append, List.length_cons,
    List.length_nil]
  omega

/-- Behind a subtree that is given back comes what is left at its parent. -/
theorem postorder_attach {f : Frame (Ptr × κ)} (path : List (Frame (Ptr × κ)))
    (hdone : f.side = .right → f.sibling = .nil) :
    postorder (f.attach .nil) ++ afterPlace path = afterPlace (f :: path) := by
  rcases f with ⟨s, cf, b, sib⟩
  cases s with
  | left => simp [Frame.attach, RbTree.join, postorder, afterPlace]
  | right =>
      obtain rfl : sib = .nil := hdone rfl
      simp [Frame.attach, RbTree.join, postorder, afterPlace]

theorem destroyLoop_spec {t : RbTree (Ptr × κ)} (path : List (Frame (Ptr × κ)))
    (hM : Models T.nodes (shape sn (plug t path) 0)) (hdone : LeftDone path)
    (ht : t ≠ .nil ∨ path = []) (hfuel : 2 * (plug t path).toList.length < fuel + path.length) :
    ∃ T', T.destroyLoop fuel (addr t) = some T' ∧ Models T'.nodes {(nil, sn)} ∧
      T'.destructed = T.destructed ++ (postorder t ++ afterPlace path) := by
  -- a round gives a node back or goes down one step
  induction fuel generalizing T t path with
  | zero =>
      have hlength := length_add_le t path
      omega
  | succ fuel ih =>
      cases t with
      | nil =>
          obtain rfl : path = [] := ht.resolve_left (not_not.2 rfl)
          exact ⟨T, if_pos rfl, hM, (List.append_nil _).symm⟩
      | node c l a r =>
          rw [addr_node]
          by_cases hl : l ≠ .nil
          · have hlne : addr l ≠ nil := addr_ne_nil_at (⟨.left, c, a, r⟩ :: path) hM hl
            have hdone' : LeftDone (⟨.left, c, a, r⟩ :: path) :=
              List.forall_mem_cons.2 ⟨fun h => Side.noConfusion h, hdone⟩
            rcases ih (⟨.left, c, a, r⟩ :: path) hM hdone' (Or.inl hl)
              (show 2 * (plug (.node c l a r) path).toList.length < fuel + (path.length + 1) by omega) with
              ⟨T', hloop, hM', hdestructed⟩
            refine ⟨T', ?_, hM', ?_⟩
            · rw [destroyLoop_node path hM, if_pos hlne, hloop]
            · rw [hdestructed]
              simp [postorder, afterPlace]
          obtain rfl : l = .nil := not_not.1 hl
          by_cases hr : r ≠ .nil
          · -- the left side is done
            have hrne : addr r ≠ nil := addr_ne_nil_at (⟨.right, c, a, .nil⟩ :: path) hM hr
            have hdone' : LeftDone (⟨.right, c, a, .nil⟩ :: path) := List.forall_mem_cons.2 ⟨fun _ => rfl, hdone⟩
            rcases ih (⟨.right, c, a, .nil⟩ :: path) hM hdone' (Or.inl hr)
              (show 2 * (plug (.node c .nil a r) path).toList.length < fuel + (path.length + 1) by omega) with
              ⟨T', hloop, hM', hdestructed⟩
            refine ⟨T', ?_, hM', ?_⟩
            · rw [destroyLoop_node path hM, if_neg (not_not.2 addr_nil), if_pos hrne, hloop]
            · rw [hdestructed]
              simp [postorder, afterPlace]
          obtain rfl : r = .nil := not_not.1 hr
          cases path with
          | nil =>
              obtain ⟨fuel, rfl⟩ : ∃ k, fuel = k + 1 := ⟨fuel - 1, by simp [plug] at hfuel; omega⟩
              exact destroyLoop_root hM fuel
          | cons f path =>
              have hsibling := hdone f (List.mem_cons_self ..)
              rcases destroyLoop_leaf hM hsibling fuel with ⟨T1, hleaf, hM1, hdestructed⟩
              rw [length_plug_leaf, plug, List.length_cons] at hfuel
              rcases ih (t := f.attach .nil) path hM1 (fun g hg => hdone g (List.mem_cons_of_mem _ hg))
                (Or.inl (RbTree.join_ne_nil _ _ _ _ _)) (by omega) with ⟨T', hloop, hM', hdestructed'⟩
              rw [Frame.attach, addr_join] at hloop
              refine ⟨T', hleaf.trans hloop, hM', ?_⟩
              rw [hdestructed', hdestructed, postorder_attach path hsibling, List.append_assoc]
              rfl

/-- `rbt_tree_destroy` gives every entry to the destructor once and leaves only the tree record. -/
theorem Contains.destroy (hT : Contains compare T elems) (hfuel : 2 * elems.length < fuel) :
    ∃ T' keys, T.rbtTreeDestroy fuel = some T' ∧ (∀ p, T'.nodes p ≠ none ↔ p = nil) ∧
      T'.destructed = T.destructed ++ keys ∧ keys.Perm (elems.map Prod.snd) := by
  rcases hT.exists_tree with ⟨sn, t, n, _, _, rfl, hM, hroot⟩
  rcases destroyLoop_spec [] hM (fun f hf => absurd hf List.not_mem_nil) (Or.inr rfl) hfuel with
    ⟨T', hloop, hM', hdestructed⟩
  rw [afterPlace, List.append_nil] at hdestructed
  refine ⟨T', postorder t, ?_, fun p => ?_, hdestructed, postorder_perm t⟩
  · rw [rbtTreeDestroy, hroot, hloop]
  · rw [Ne, hM'.eq_none_iff, not_not, Multiset.map_singleton, Multiset.mem_singleton]

end Destroy

end RbtTree

end SsrNative
