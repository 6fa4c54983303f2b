import Mathlib.Tactic.Abel
import Mathlib.Algebra.Order.Group.Multiset
import SsrNative.Lib.Cells
import SsrNative.RbTree

/-!
# RbTreeShape — which tree the nodes in memory stand for

`layout` lists the nodes of a tree, with the pointers that they hold.  A tree in memory is a root pointer, the
sentinel, these nodes and nothing else.  `Yields` says what memory and which root an operation leaves.
-/

namespace SsrNative

open Lib Lib.RedBlackTree

variable {κ : Type}

/-- The node whose child on the side `s` is `near`. -/
def RbtNode.cell (s : Side) (near far p : Ptr) (c : RbtColor) (k : κ) : RbtNode κ :=
  match s with
  | .left => ⟨near, far, p, c, some k⟩
  | .right => ⟨far, near, p, c, some k⟩

namespace RbtNode

variable (s : Side) (near far p q : Ptr) (c c' : RbtColor) (k : κ)

@[simp] theorem child_cell : (cell s near far p c k).child s = near := by cases s <;> rfl

@[simp] theorem child_other_cell : (cell s near far p c k).child s.other = far := by cases s <;> rfl

@[simp] theorem parent_cell : (cell s near far p c k).parent = p := by cases s <;> rfl

@[simp] theorem color_cell : (cell s near far p c k).color = c := by cases s <;> rfl

@[simp] theorem key_cell : (cell s near far p c k).key = some k := by cases s <;> rfl

@[simp] theorem setChild_cell : setChild s q (cell s near far p c k) = cell s q far p c k := by cases s <;> rfl

@[simp] theorem setChild_other_cell : setChild s.other q (cell s near far p c k) = cell s near q p c k := by
  cases s <;> rfl

@[simp] theorem setParent_cell : setParent q (cell s near far p c k) = cell s near far q c k := by cases s <;> rfl

@[simp] theorem setColor_cell : setColor c' (cell s near far p c k) = cell s near far p c' k := by cases s <;> rfl

end RbtNode

namespace RbtTree

open RbtNode Cells

abbrev Memory (κ : Type) := Multiset (Ptr × RbtNode κ)

/-- The pointer to a tree. -/
def addr : RbTree (Ptr × κ) → Ptr
  | .nil => nil
  | .node _ _ a _ => a.1

@[simp] theorem addr_nil : addr (.nil : RbTree (Ptr × κ)) = nil := rfl

@[simp] theorem addr_node (c : Color) (l : RbTree (Ptr × κ)) (a : Ptr × κ) (r : RbTree (Ptr × κ)) :
    addr (.node c l a r) = a.1 := rfl

@[simp] theorem addr_join (s : Side) (c : Color) (near : RbTree (Ptr × κ)) (a : Ptr × κ) (far : RbTree (Ptr × κ)) :
    addr (.join s c near a far) = a.1 := by
  cases s <;> rfl

@[simp] theorem addr_paint (c : Color) (t : RbTree (Ptr × κ)) : addr (t.paint c) = addr t := by cases t <;> rfl

/-- The nodes of a tree whose root has the parent pointer `p`. -/
def layout (p : Ptr) : RbTree (Ptr × κ) → Memory κ
  | .nil => 0
  | .node c l a r => {(a.1, cell .left (addr l) (addr r) p c a.2)} + (layout a.1 l + layout a.1 r)

theorem layout_join (p : Ptr) (s : Side) (c : Color) (near : RbTree (Ptr × κ)) (a : Ptr × κ) (far : RbTree (Ptr × κ)) :
    layout p (.join s c near a far) =
      {(a.1, cell s (addr near) (addr far) p c a.2)} + (layout a.1 near + layout a.1 far) := by
  cases s
  · rfl
  · exact congrArg (_ + ·) (add_comm _ _)

/-- The address of the node above a place. -/
def top : List (Frame (Ptr × κ)) → Ptr
  | [] => nil
  | f :: _ => f.elem.1

/-- The nodes around a place at which the pointer `hole` stands. -/
def pathLayout (hole : Ptr) : List (Frame (Ptr × κ)) → Memory κ
  | [] => 0
  | f :: path =>
      {(f.elem.1, cell f.side hole (addr f.sibling) (top path) f.color f.elem.2)} +
        (layout f.elem.1 f.sibling + pathLayout f.elem.1 path)

theorem layout_plug (t : RbTree (Ptr × κ)) (path : List (Frame (Ptr × κ))) :
    layout nil (plug t path) = layout (top path) t + pathLayout (addr t) path := by
  induction path generalizing t with
  | nil => exact (add_zero _).symm
  | cons f path ih =>
      rw [plug, ih, Frame.attach, layout_join, addr_join, pathLayout, top]
      abel

/-- The addresses in use are those of the elements. -/
theorem map_fst_layout (p : Ptr) (t : RbTree (Ptr × κ)) :
    (layout p t).map Prod.fst = (t.toList.map Prod.fst : Multiset Ptr) := by
  induction t generalizing p with
  | nil => rfl
  | node c l a r ihl ihr =>
      rw [layout, Multiset.map_add, Multiset.map_add, ihl, ihr, Multiset.map_singleton, RbTree.toList_node,
        List.map_append, List.map_cons, ← Multiset.coe_add, ← Multiset.cons_coe, ← Multiset.singleton_add]
      abel

theorem mem_layout_of_mem {a : Ptr × κ} {t : RbTree (Ptr × κ)} (h : a ∈ t.toList) (p : Ptr) :
    a.1 ∈ (layout p t).map Prod.fst := by
  rw [map_fst_layout]
  exact Multiset.mem_coe.2 (List.mem_map_of_mem h)

/-- The parent pointer of a root can be taken apart from the rest of the tree. -/
theorem exists_layout {t : RbTree (Ptr × κ)} (h : t ≠ .nil) :
    ∃ (n : RbtNode κ) (M : Memory κ), ∀ p, layout p t = {(addr t, n.setParent p)} + M := by
  cases t with
  | nil => exact absurd rfl h
  | node c l a r => exact ⟨cell .left (addr l) (addr r) nil c a.2, _, fun p => rfl⟩

/-- A node that can be the sentinel. -/
def IsSentinel (n : RbtNode κ) : Prop := n.left = nil ∧ n.color = .black

/-- All of memory: the sentinel, the nodes of the tree, and nodes that are not in the tree. -/
def shape (sentinel : RbtNode κ) (t : RbTree (Ptr × κ)) (rest : Memory κ) : Memory κ :=
  {(nil, sentinel)} + layout nil t + rest

/-- `o` is the tree record with the memory `M` and the root `r`; the other fields are those of `T`. -/
def Yields (T : RbtTree κ) (o : Option (RbtTree κ)) (M : Memory κ) (r : Ptr) : Prop :=
  ∃ h, o = some { T with nodes := h, root := r } ∧ Models h M

variable {T : RbtTree κ} {o : Option (RbtTree κ)} {M M' : Memory κ} {p q r r' : Ptr} {n : RbtNode κ}

theorem Yields.bind {f : RbtTree κ → Option (RbtTree κ)} (ho : Yields T o M r)
    (hf : ∀ T' : RbtTree κ, Models T'.nodes M → T'.root = r → Yields T' (f T') M' r') :
    Yields T (o >>= f) M' r' := by
  rcases ho with ⟨h, rfl, hM⟩
  exact hf { T with nodes := h, root := r } hM rfl

theorem Yields.of_eq (ho : Yields T o M r) (hM : M = M') (hr : r = r') : Yields T o M' r' := by
  subst hM hr
  exact ho

theorem yields_read {β : Type} {o : Option β} {b : β} {f : β → Option (RbtTree κ)} (ho : o = some b)
    (hf : Yields T (f b) M r) : Yields T (o >>= f) M r := by
  rw [ho]
  exact hf

theorem yields_self (hM : Models T.nodes M) : Yields T (some T) M T.root := ⟨T.nodes, rfl, hM⟩

/-! ## Reading and writing one node -/

section Access

variable {s : Side} {near far v : Ptr} {c c' : Color} {k : κ}

theorem child_eq (hM : Models T.nodes ({(p, cell s near far q c k)} + M)) : T.child s p = some near := by
  rw [child, hM.get, Option.map_some, child_cell]

theorem child_other_eq (hM : Models T.nodes ({(p, cell s near far q c k)} + M)) : T.child s.other p = some far := by
  rw [child, hM.get, Option.map_some, child_other_cell]

theorem parent_eq (hM : Models T.nodes ({(p, n)} + M)) : T.parent p = some n.parent := by
  rw [parent, hM.get, Option.map_some]

theorem color_eq (hM : Models T.nodes ({(p, n)} + M)) : T.color p = some n.color := by
  rw [color, hM.get, Option.map_some]

theorem key_eq (hM : Models T.nodes ({(p, n)} + M)) : T.key p = n.key := by
  rw [key, hM.get, Option.bind_some]

theorem write_yields (hM : Models T.nodes ({(p, n)} + M)) (f : RbtNode κ → RbtNode κ) :
    Yields T (T.write p f) ({(p, f n)} + M) T.root :=
  ⟨Function.update T.nodes p (some (f n)), by rw [write, hM.get, Option.map_some], hM.write (f n)⟩

theorem setParent_yields (hM : Models T.nodes ({(p, n)} + M)) (v : Ptr) :
    Yields T (T.setParent p v) ({(p, n.setParent v)} + M) T.root :=
  write_yields hM _

theorem setColor_yields (hM : Models T.nodes ({(p, n)} + M)) (c : Color) :
    Yields T (T.setColor p c) ({(p, n.setColor c)} + M) T.root :=
  write_yields hM _

theorem setChild_yields (hM : Models T.nodes ({(p, cell s near far q c k)} + M)) (v : Ptr) :
    Yields T (T.setChild s p v) ({(p, cell s v far q c k)} + M) T.root := by
  have hwrite := write_yields hM (RbtNode.setChild s v)
  rwa [setChild_cell] at hwrite

theorem setChild_other_yields (hM : Models T.nodes ({(p, cell s near far q c k)} + M)) (v : Ptr) :
    Yields T (T.setChild s.other p v) ({(p, cell s near v q c k)} + M) T.root := by
  have hwrite := write_yields hM (RbtNode.setChild s.other v)
  rwa [setChild_other_cell] at hwrite

end Access

/-! ## Subtrees and paths -/

section Parts

variable {sn : RbtNode κ} {t : RbTree (Ptr × κ)} {path : List (Frame (Ptr × κ))}

theorem addr_mem_layout (ht : t ≠ .nil) (p : Ptr) : addr t ∈ (layout p t).map Prod.fst := by
  rcases exists_layout ht with ⟨n, M, hlayout⟩
  rw [hlayout, Multiset.map_add, Multiset.map_singleton]
  exact Multiset.mem_add.2 (Or.inl (Multiset.mem_singleton_self _))

theorem addr_ne_nil (hM : Models T.nodes ({(nil, sn)} + (layout p t + M))) (ht : t ≠ .nil) : addr t ≠ nil := by
  refine hM.ne_of_mem ?_
  rw [Multiset.map_add]
  exact Multiset.mem_add.2 (Or.inl (addr_mem_layout ht p))

/-- What is elsewhere in memory is not the root of a subtree. -/
theorem ne_addr (hM : Models T.nodes ({(nil, sn)} + (layout p t + M))) (hq : q ∈ M.map Prod.fst) : q ≠ addr t := by
  by_cases ht : t = .nil
  · subst ht
    refine hM.ne_of_mem ?_
    rw [Multiset.map_add]
    exact Multiset.mem_add.2 (Or.inr hq)
  · rcases exists_layout ht with ⟨n, M', hlayout⟩
    rw [hlayout p] at hM
    have hM' : Models T.nodes ({(addr t, n.setParent p)} + ({(nil, sn)} + M' + M)) := hM.of_eq (by abel)
    refine hM'.ne_of_mem ?_
    rw [Multiset.map_add]
    exact Multiset.mem_add.2 (Or.inr hq)

/-- The parent pointer of a subtree is written when there is one. -/
theorem reparent_yields (hM : Models T.nodes ({(nil, sn)} + (layout p t + M))) (q : Ptr) :
    Yields T (if addr t = nil then some T else T.setParent (addr t) q) ({(nil, sn)} + (layout q t + M)) T.root := by
  by_cases ht : t = .nil
  · subst ht
    exact yields_self hM
  · rw [if_neg (addr_ne_nil hM ht)]
    rcases exists_layout ht with ⟨n, M', hlayout⟩
    rw [hlayout p] at hM
    have hM' : Models T.nodes ({(addr t, n.setParent p)} + ({(nil, sn)} + M' + M)) := hM.of_eq (by abel)
    refine (setParent_yields hM' q).of_eq ?_ rfl
    rw [hlayout q]
    simp only [RbtNode.setParent]
    abel

/-- The root of a tree with a pointer at a place. -/
def pathRoot (hole : Ptr) : List (Frame (Ptr × κ)) → Ptr
  | [] => hole
  | f :: path => pathRoot f.elem.1 path

theorem addr_plug (t : RbTree (Ptr × κ)) (path : List (Frame (Ptr × κ))) :
    addr (plug t path) = pathRoot (addr t) path := by
  induction path generalizing t with
  | nil => rfl
  | cons f path ih =>
      rw [plug, ih, Frame.attach, addr_join]
      rfl

/-- Another node takes its place below the parent of `u`. -/
theorem relink_yields {u : Ptr} (hM : Models T.nodes ({(nil, sn)} + (pathLayout u path + M)))
    (hu : u ∈ M.map Prod.fst) (hroot : T.root = pathRoot u path) (s : Side) (v : Ptr) :
    Yields T (T.relink s u (top path) v) ({(nil, sn)} + (pathLayout v path + M)) (pathRoot v path) := by
  cases path with
  | nil => exact ⟨T.nodes, rfl, hM⟩
  | cons f path =>
      rcases f with ⟨s', c, a, sib⟩
      have hcell : Models T.nodes ({(a.1, cell s' u (addr sib) (top path) c a.2)} +
          ({(nil, sn)} + (layout a.1 sib + (pathLayout a.1 path + M)))) :=
        hM.of_eq (by rw [pathLayout]; abel)
      have hne : a.1 ≠ nil := by
        refine hM.ne_of_mem ?_
        rw [pathLayout, Multiset.map_add, Multiset.map_add, Multiset.map_singleton]
        exact Multiset.mem_add.2 (Or.inl (Multiset.mem_add.2 (Or.inl (Multiset.mem_singleton_self _))))
      have hsib : u ≠ addr sib := by
        have hM' : Models T.nodes ({(nil, sn)} + (layout a.1 sib +
            ({(a.1, cell s' u (addr sib) (top path) c a.2)} + (pathLayout a.1 path + M)))) := hcell.of_eq (by abel)
        refine ne_addr hM' ?_
        rw [Multiset.map_add, Multiset.map_add]
        exact Multiset.mem_add.2 (Or.inr (Multiset.mem_add.2 (Or.inr hu)))
      have hwritten : Yields T (T.setChild s' a.1 v) ({(nil, sn)} + (pathLayout v (⟨s', c, a, sib⟩ :: path) + M))
          (pathRoot v (⟨s', c, a, sib⟩ :: path)) :=
        (setChild_yields hcell v).of_eq (by rw [pathLayout]; abel) hroot
      rw [relink, top, if_neg hne]
      rcases Side.eq_or_eq_other s s' with rfl | rfl
      · refine yields_read (child_eq hcell) ?_
        rwa [if_pos rfl]
      · have hcell' := child_other_eq hcell
        rw [Side.other_other] at hcell'
        refine yields_read hcell' ?_
        rwa [if_neg hsib]

end Parts

/-! ## Rotation -/

theorem rotate_yields {sn : RbtNode κ} {path : List (Frame (Ptr × κ))} {rest : Memory κ} (s : Side) {c c' : Color}
    {X Y Z : RbTree (Ptr × κ)} {x y : Ptr × κ}
    (hM : Models T.nodes (shape sn (plug (.join s c X x (.join s c' Y y Z)) path) rest))
    (hroot : T.root = addr (plug (.join s c X x (.join s c' Y y Z)) path)) :
    Yields T (T.rotate s x.1) (shape sn (plug (.join s c' (.join s c X x Y) y Z) path) rest)
      (addr (plug (.join s c' (.join s c X x Y) y Z) path)) := by
  have hM0 : Models T.nodes ({(x.1, cell s (addr X) y.1 (top path) c x.2)} +
      ({(y.1, cell s (addr Y) (addr Z) x.1 c' y.2)} +
        ({(nil, sn)} + (layout x.1 X + layout y.1 Y + layout y.1 Z + pathLayout x.1 path + rest)))) :=
    hM.of_eq (by rw [shape, layout_plug, layout_join, layout_join, addr_join, addr_join]; abel)
  rw [addr_plug, addr_join] at hroot
  rw [rotate]
  refine yields_read (child_other_eq hM0) (yields_read (child_eq (hM0.of_eq (add_left_comm _ _ _))) ?_)
  refine (setChild_other_yields hM0 (addr Y)).bind fun T1 hM1 hr1 => ?_
  -- the subtree between the two nodes gets another parent
  refine (reparent_yields (p := y.1) (M := {(x.1, cell s (addr X) (addr Y) (top path) c x.2)} +
    ({(y.1, cell s (addr Y) (addr Z) x.1 c' y.2)} + (layout x.1 X + layout y.1 Z + pathLayout x.1 path + rest)))
    (hM1.of_eq (by abel)) x.1).bind fun T2 hM2 hr2 => ?_
  have hx2 : Models T2.nodes ({(x.1, cell s (addr X) (addr Y) (top path) c x.2)} +
      ({(y.1, cell s (addr Y) (addr Z) x.1 c' y.2)} +
        ({(nil, sn)} + (layout x.1 X + layout x.1 Y + layout y.1 Z + pathLayout x.1 path + rest)))) :=
    hM2.of_eq (by abel)
  refine yields_read ((parent_eq hx2).trans (congrArg some (parent_cell _ _ _ _ _ _))) ?_
  refine (setParent_yields (hx2.of_eq (add_left_comm _ _ _)) (top path)).bind fun T3 hM3 hr3 => ?_
  rw [setParent_cell] at hM3
  -- the two nodes change places below the node above
  refine (relink_yields (u := x.1) (M := {(x.1, cell s (addr X) (addr Y) (top path) c x.2)} +
    ({(y.1, cell s (addr Y) (addr Z) (top path) c' y.2)} + (layout x.1 X + layout x.1 Y + layout y.1 Z + rest)))
    (hM3.of_eq (by abel)) ?_ ?_ s y.1).bind fun T4 hM4 hr4 => ?_
  · rw [Multiset.map_add, Multiset.map_singleton]
    exact Multiset.mem_add.2 (Or.inl (Multiset.mem_singleton_self _))
  · rw [hr3, hr2, hr1, hroot]
  have hy4 : Models T4.nodes ({(y.1, cell s (addr Y) (addr Z) (top path) c' y.2)} +
      ({(x.1, cell s (addr X) (addr Y) (top path) c x.2)} +
        ({(nil, sn)} + (layout x.1 X + layout x.1 Y + layout y.1 Z + pathLayout y.1 path + rest)))) :=
    hM4.of_eq (by abel)
  refine (setChild_yields hy4 x.1).bind fun T5 hM5 hr5 => ?_
  refine (setParent_yields (hM5.of_eq (add_left_comm _ _ _)) y.1).of_eq ?_ ?_
  · rw [setParent_cell, shape, layout_plug, layout_join, layout_join, addr_join, addr_join]
    abel
  · rw [hr5, hr4, addr_plug, addr_join]

/-! ## Places -/

section Places

variable {sn : RbtNode κ} {s : Side} {c : Color} {near far t : RbTree (Ptr × κ)} {a : Ptr × κ} {f : Frame (Ptr × κ)}
variable {path : List (Frame (Ptr × κ))} {rest : Memory κ}

/-- The node at a place. -/
theorem exists_cell (hM : Models T.nodes (shape sn (plug (.join s c near a far) path) rest)) :
    ∃ M, Models T.nodes ({(a.1, cell s (addr near) (addr far) (top path) c a.2)} + M) := by
  refine ⟨{(nil, sn)} + (layout a.1 near + layout a.1 far + pathLayout a.1 path + rest), hM.of_eq ?_⟩
  rw [shape, layout_plug, layout_join, addr_join]
  abel

theorem child_at (path : List (Frame (Ptr × κ)))
    (hM : Models T.nodes (shape sn (plug (.join s c near a far) path) rest)) :
    T.child s a.1 = some (addr near) := by
  rcases exists_cell hM with ⟨M, hcell⟩
  exact child_eq hcell

theorem child_other_at (path : List (Frame (Ptr × κ)))
    (hM : Models T.nodes (shape sn (plug (.join s c near a far) path) rest)) :
    T.child s.other a.1 = some (addr far) := by
  rcases exists_cell hM with ⟨M, hcell⟩
  exact child_other_eq hcell

theorem parent_at (path : List (Frame (Ptr × κ)))
    (hM : Models T.nodes (shape sn (plug t path) rest)) (ht : t ≠ .nil) :
    T.parent (addr t) = some (top path) := by
  rcases RbTree.exists_join .left ht with ⟨near, a, far, heq⟩
  rw [heq] at hM ⊢
  rcases exists_cell hM with ⟨M, hcell⟩
  rw [addr_join, parent_eq hcell, parent_cell]

theorem key_at (hM : Models T.nodes (shape sn (plug (.join s c near a far) path) rest)) : T.key a.1 = some a.2 := by
  rcases exists_cell hM with ⟨M, hcell⟩
  rw [key_eq hcell, key_cell]

theorem color_nil (hM : Models T.nodes (shape sn t rest)) (hsn : sn.color = .black) : T.color nil = some .black := by
  have hcell : Models T.nodes ({(nil, sn)} + (layout nil t + rest)) := hM.of_eq (add_assoc _ _ _)
  rw [color_eq hcell, hsn]

theorem color_at (path : List (Frame (Ptr × κ)))
    (hM : Models T.nodes (shape sn (plug t path) rest)) (hsn : sn.color = .black) :
    T.color (addr t) = some t.color := by
  by_cases ht : t = .nil
  · rw [ht] at hM ⊢
    exact color_nil hM hsn
  · rcases RbTree.exists_join .left ht with ⟨near, a, far, heq⟩
    rw [heq] at hM ⊢
    rcases exists_cell hM with ⟨M, hcell⟩
    rw [addr_join, color_eq hcell, color_cell, RbTree.color_join]

/-- The parts of memory at a place below another node. -/
theorem models_cons (hM : Models T.nodes (shape sn (plug t (f :: path)) rest)) :
    Models T.nodes ({(nil, sn)} + (layout f.elem.1 t + (layout f.elem.1 f.sibling +
      ({(f.elem.1, cell f.side (addr t) (addr f.sibling) (top path) f.color f.elem.2)} +
        (pathLayout f.elem.1 path + rest))))) := by
  refine hM.of_eq ?_
  rw [shape, layout_plug, pathLayout, top]
  abel

/-- Two brothers are different nodes. -/
theorem addr_ne_sibling (hM : Models T.nodes (shape sn (plug t (f :: path)) rest)) (h : t ≠ .nil ∨ f.sibling ≠ .nil) :
    addr t ≠ addr f.sibling := by
  have hparts := models_cons hM
  rcases h with ht | hsib
  · refine ne_addr (p := f.elem.1) (t := f.sibling) (M := layout f.elem.1 t +
      ({(f.elem.1, cell f.side (addr t) (addr f.sibling) (top path) f.color f.elem.2)} +
        (pathLayout f.elem.1 path + rest))) (hparts.of_eq (by abel)) ?_
    rw [Multiset.map_add]
    exact Multiset.mem_add.2 (Or.inl (addr_mem_layout ht _))
  · refine (ne_addr hparts ?_).symm
    rw [Multiset.map_add]
    exact Multiset.mem_add.2 (Or.inl (addr_mem_layout hsib _))

theorem sideOf_at (path : List (Frame (Ptr × κ)))
    (hM : Models T.nodes (shape sn (plug t (f :: path)) rest)) (h : t ≠ .nil ∨ f.sibling ≠ .nil) :
    T.sideOf (addr t) f.elem.1 = some f.side := by
  have hne := addr_ne_sibling hM h
  rcases f with ⟨s, c, a, sib⟩
  cases s with
  | left =>
      have hchild : T.child .left a.1 = some (addr t) := child_at _ hM
      rw [sideOf, hchild]
      exact congrArg some (if_pos rfl)
  | right =>
      have hchild : T.child .left a.1 = some (addr sib) := child_other_at _ hM
      rw [sideOf, hchild]
      exact congrArg some (if_neg hne)

theorem pathRoot_mem (hole : Ptr) (f : Frame (Ptr × κ)) (path : List (Frame (Ptr × κ))) :
    pathRoot hole (f :: path) ∈ (pathLayout hole (f :: path)).map Prod.fst := by
  induction path generalizing hole f with
  | nil =>
      rw [pathLayout, Multiset.map_add, Multiset.map_singleton]
      exact Multiset.mem_add.2 (Or.inl (Multiset.mem_singleton_self _))
  | cons g path ih =>
      rw [pathLayout, Multiset.map_add, Multiset.map_add]
      exact Multiset.mem_add.2 (Or.inr (Multiset.mem_add.2 (Or.inr (ih f.elem.1 g))))

/-- Below another node there is no root. -/
theorem addr_ne_root (hM : Models T.nodes (shape sn (plug t (f :: path)) rest))
    (hroot : T.root = addr (plug t (f :: path))) : addr t ≠ T.root := by
  rw [hroot, addr_plug]
  have hparts : Models T.nodes ({(nil, sn)} + (layout f.elem.1 t + (pathLayout (addr t) (f :: path) + rest))) := by
    refine hM.of_eq ?_
    rw [shape, layout_plug, top]
    abel
  refine (ne_addr hparts ?_).symm
  rw [Multiset.map_add]
  exact Multiset.mem_add.2 (Or.inl (pathRoot_mem _ _ _))

theorem paint_yields (path : List (Frame (Ptr × κ)))
    (hM : Models T.nodes (shape sn (plug t path) rest)) (hroot : T.root = addr (plug t path))
    (ht : t ≠ .nil) (c' : Color) :
    Yields T (T.setColor (addr t) c') (shape sn (plug (t.paint c') path) rest) (addr (plug (t.paint c') path)) := by
  rcases RbTree.exists_join .left ht with ⟨near, a, far, heq⟩
  rw [heq, RbTree.paint_join, addr_join]
  rw [heq] at hM hroot
  have hcell : Models T.nodes ({(a.1, cell .left (addr near) (addr far) (top path) t.color a.2)} +
      ({(nil, sn)} + (layout a.1 near + layout a.1 far + pathLayout a.1 path + rest))) := by
    refine hM.of_eq ?_
    rw [shape, layout_plug, layout_join, addr_join]
    abel
  refine (setColor_yields hcell c').of_eq ?_ ?_
  · rw [setColor_cell, shape, layout_plug, layout_join, addr_join]
    abel
  · rw [hroot, addr_plug, addr_plug, addr_join, addr_join]

/-- The sentinel may be painted black, as it is black. -/
theorem paint_black_yields (path : List (Frame (Ptr × κ)))
    (hM : Models T.nodes (shape sn (plug t path) rest)) (hroot : T.root = addr (plug t path))
    (hsn : sn.color = .black) :
    Yields T (T.setColor (addr t) .black) (shape sn (plug (t.paint .black) path) rest)
      (addr (plug (t.paint .black) path)) := by
  by_cases ht : t = .nil
  · subst ht
    have hcell : Models T.nodes ({(nil, sn)} + (layout nil (plug .nil path) + rest)) := hM.of_eq (add_assoc _ _ _)
    refine (setColor_yields hcell .black).of_eq ?_ hroot
    rw [RbtNode.setColor, ← hsn]
    exact (add_assoc _ _ _).symm
  · exact paint_yields _ hM hroot ht .black

end Places

end RbtTree

end SsrNative
