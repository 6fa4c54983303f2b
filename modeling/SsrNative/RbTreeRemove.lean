import SsrNative.RbTreeSearch

/-!
# RbTreeRemove — a node leaves the tree

`__rb_delete_fixup` repairs a tree in which the subtree at one place is short by a black node.  The place may
be empty; then its parent is found through the sentinel, whose parent pointer `__rb_delete` has set.
-/

namespace SsrNative

open Lib Lib.RedBlackTree

namespace RbtTree

open RbtNode Cells

variable {κ : Type} {T : RbtTree κ} {sn : RbtNode κ} {rest : Memory κ} {x : RbTree (Ptr × κ)}
variable {path : List (Frame (Ptr × κ))} {s : Side} {cp c : Color} {a : Ptr × κ}

/-! ## Repair -/

/-- One black node is missing: the subtree is balanced with one less, or painting its root mends it. -/
def Short (x : RbTree (Ptr × κ)) (n : ℕ) : Prop :=
  Balanced x .black n ∨ x.color = .red ∧ Balanced (x.paint .black) .black (n + 1)

theorem plug_far (t t' : RbTree (Ptr × κ)) (path : List (Frame (Ptr × κ))) :
    plug (.join s cp t a t') path = plug t' (⟨s.other, cp, a, t⟩ :: path) := by
  rw [plug, Frame.attach, RbTree.join_other]

theorem parent_of_short (path : List (Frame (Ptr × κ)))
    (hM : Models T.nodes (shape sn (plug x path) rest))
    (hup : x = .nil → sn.parent = top path) : T.parent (addr x) = some (top path) := by
  by_cases hx : x = .nil
  · have hcell : Models T.nodes ({(nil, sn)} + (layout nil (plug x path) + rest)) := hM.of_eq (add_assoc _ _ _)
    rw [hx, addr_nil, parent_eq hcell, hup hx]
  · exact parent_at _ hM hx

/-- The loop ends at the root and at a red node. -/
theorem deleteFixup_exit {n : ℕ} (path : List (Frame (Ptr × κ)))
    (hM : Models T.nodes (shape sn (plug x path) rest))
    (hroot : T.root = addr (plug x path)) (hsn : sn.color = .black) (hx : Short x n)
    (hpath : BalancedPath path .black (n + 1)) (hend : path = [] ∨ x.color = .red) (fuel : ℕ) :
    Repaired T (T.rbDeleteFixup (fuel + 1) (addr x)) sn (plug x path).toList rest := by
  have hbalanced : ∃ m, Balanced (plug (x.paint .black) path) .black m := by
    rcases hx with hblack | ⟨_, hpainted⟩
    · rcases hend with rfl | hred
      · exact hblack.exists_paint_black
      · rw [hblack.color_eq] at hred
        cases hred
    · exact hpath.plug hpainted
  have hstop : ¬ (addr x ≠ T.root ∧ x.color = .black) := by
    rintro ⟨hne, hblack⟩
    rcases hend with rfl | hred
    · exact hne hroot.symm
    · rw [hblack] at hred
      cases hred
  rcases hbalanced with ⟨m, hm⟩
  rw [rbDeleteFixup]
  refine repaired_read (color_at _ hM hsn) ?_
  rw [if_neg hstop]
  exact ⟨_, m, toList_plug_congr (RbTree.toList_paint _ _) _, hm, paint_black_yields _ hM hroot hsn⟩

/-- A red sibling goes up, and one of its children becomes the sibling. -/
theorem deleteRedSibling_red {v f : RbTree (Ptr × κ)} {e : Ptr × κ}
    (hM : Models T.nodes (shape sn (plug x (⟨s, .black, a, .join s .red v e f⟩ :: path)) rest))
    (hroot : T.root = addr (plug x (⟨s, .black, a, .join s .red v e f⟩ :: path))) (hsn : sn.color = .black)
    (hup : x = .nil → sn.parent = a.1) :
    Yields T (T.deleteRedSibling s (addr x) e.1) (shape sn (plug x (⟨s, .red, a, v⟩ :: ⟨s, .black, e, f⟩ :: path)) rest)
      (addr (plug x (⟨s, .red, a, v⟩ :: ⟨s, .black, e, f⟩ :: path))) := by
  rw [plug, Frame.attach, plug_far] at hM hroot
  have hcolor := color_at _ hM hsn
  rw [addr_join, RbTree.color_join] at hcolor
  rw [deleteRedSibling]
  refine yields_read hcolor ?_
  rw [if_pos rfl]
  have hpaint := paint_yields _ hM hroot (RbTree.join_ne_nil _ _ _ _ _) .black
  rw [addr_join, RbTree.paint_join, ← plug_far] at hpaint
  refine Yields.bind hpaint fun T1 hM1 hr1 => ?_
  have hup1 : T1.parent (addr x) = some a.1 :=
    parent_of_short (⟨s, .black, a, .join s .black v e f⟩ :: path) hM1 hup
  have hpaint1 := paint_yields _ hM1 hr1 (RbTree.join_ne_nil _ _ _ _ _) .red
  rw [addr_join, RbTree.paint_join] at hpaint1
  refine yields_read hup1 (Yields.bind hpaint1 fun T2 hM2 hr2 => ?_)
  have hup2 : T2.parent (addr x) = some a.1 :=
    parent_of_short (⟨s, .red, a, .join s .black v e f⟩ :: path) hM2 hup
  exact yields_read hup2 (rotate_yields s hM2 hr2)

theorem deleteRedSibling_black {w : RbTree (Ptr × κ)}
    (hM : Models T.nodes (shape sn (plug x (⟨s, cp, a, w⟩ :: path)) rest)) (hsn : sn.color = .black)
    (hw : w.color = .black) : T.deleteRedSibling s (addr x) (addr w) = some T := by
  rw [plug, Frame.attach, plug_far] at hM
  rw [deleteRedSibling, color_at _ hM hsn, hw]
  rfl

/-- A red near nephew is turned outwards. -/
theorem deleteInner_yields {g i f : RbTree (Ptr × κ)} {h e : Ptr × κ}
    (hM : Models T.nodes (shape sn (plug x (⟨s, cp, a, .join s .black (.join s .red g h i) e f⟩ :: path)) rest))
    (hroot : T.root = addr (plug x (⟨s, cp, a, .join s .black (.join s .red g h i) e f⟩ :: path)))
    (hsn : sn.color = .black) (hf : f.color = .black) :
    Yields T (T.deleteInner s e.1) (shape sn (plug x (⟨s, cp, a, .join s .black g h (.join s .red i e f)⟩ :: path)) rest)
      (addr (plug x (⟨s, cp, a, .join s .black g h (.join s .red i e f)⟩ :: path))) := by
  rw [plug, Frame.attach, plug_far] at hM hroot ⊢
  have hfar : T.child s.other e.1 = some (addr f) := child_other_at _ hM
  have hcolor : T.color (addr f) = some .black := by
    rw [plug_far] at hM
    rw [color_at _ hM hsn, hf]
  have hnear : T.child s e.1 = some h.1 := by
    have hchild := child_at _ hM
    rwa [addr_join] at hchild
  rw [deleteInner]
  refine yields_read hfar (yields_read hcolor ?_)
  rw [if_pos rfl]
  refine yields_read hnear ?_
  have hpaint := paint_yields (⟨s, .black, e, f⟩ :: ⟨s.other, cp, a, x⟩ :: path) hM hroot
    (RbTree.join_ne_nil _ _ _ _ _) .black
  rw [addr_join, RbTree.paint_join] at hpaint
  refine Yields.bind hpaint fun T1 hM1 hr1 => ?_
  have hpaint1 := paint_yields (⟨s.other, cp, a, x⟩ :: path) hM1 hr1 (RbTree.join_ne_nil _ _ _ _ _) .red
  rw [Frame.attach, addr_join, RbTree.paint_join] at hpaint1
  refine Yields.bind hpaint1 fun T2 hM2 hr2 => ?_
  have hturn : RbTree.join s .red (.join s .black g h i) e f = .join s.other .red f e (.join s.other .black i h g) := by
    rw [RbTree.join_other, RbTree.join_other]
  have hturned : RbTree.join s.other .black (.join s.other .red f e i) h g = .join s .black g h (.join s .red i e f) := by
    rw [RbTree.join_other, RbTree.join_other]
  rw [hturn] at hM2 hr2
  have hrotate := rotate_yields s.other hM2 hr2
  rwa [hturned] at hrotate

theorem deleteInner_outer {v f : RbTree (Ptr × κ)} {e : Ptr × κ}
    (hM : Models T.nodes (shape sn (plug x (⟨s, cp, a, .join s .black v e f⟩ :: path)) rest)) (hsn : sn.color = .black)
    (hf : f.color = .red) : T.deleteInner s e.1 = some T := by
  rw [plug, Frame.attach, plug_far] at hM
  have hfar : T.child s.other e.1 = some (addr f) := child_other_at _ hM
  rw [plug_far] at hM
  rw [deleteInner, hfar, Option.bind_eq_bind, Option.bind_some, color_at _ hM hsn, hf]
  rfl

/-- A red far nephew gives the missing black node. -/
theorem deleteOuter_yields {v f : RbTree (Ptr × κ)} {e : Ptr × κ}
    (hM : Models T.nodes (shape sn (plug x (⟨s, cp, a, .join s .black v e f⟩ :: path)) rest))
    (hroot : T.root = addr (plug x (⟨s, cp, a, .join s .black v e f⟩ :: path))) (hf : f ≠ .nil)
    (hup : x = .nil → sn.parent = a.1) :
    Yields T (T.deleteOuter s (addr x)) (shape sn (plug (.join s cp (.join s .black x a v) e (f.paint .black)) path) rest)
      (addr (plug (.join s cp (.join s .black x a v) e (f.paint .black)) path)) := by
  have hup0 : T.parent (addr x) = some a.1 := parent_of_short _ hM hup
  rw [plug, Frame.attach] at hM hroot
  have hchild : T.child s.other a.1 = some e.1 := by
    have hfar := child_other_at _ hM
    rwa [addr_join] at hfar
  have hcolor : T.color a.1 = some cp := by
    rcases exists_cell hM with ⟨M, hcell⟩
    rw [color_eq hcell, color_cell]
  rw [deleteOuter]
  refine yields_read hup0 (yields_read hchild (yields_read hcolor ?_))
  rw [plug_far] at hM hroot
  have hpaint := paint_yields _ hM hroot (RbTree.join_ne_nil _ _ _ _ _) cp
  rw [addr_join, RbTree.paint_join, ← plug_far] at hpaint
  refine Yields.bind hpaint fun T1 hM1 hr1 => ?_
  have hpaint1 := paint_yields _ hM1 hr1 (RbTree.join_ne_nil _ _ _ _ _) .black
  rw [addr_join, RbTree.paint_join] at hpaint1
  refine Yields.bind hpaint1 fun T2 hM2 hr2 => ?_
  rw [plug_far] at hM2 hr2
  have hfar : T2.child s.other e.1 = some (addr f) := child_other_at _ hM2
  refine yields_read hfar ?_
  rw [plug_far] at hM2 hr2
  refine Yields.bind (paint_yields _ hM2 hr2 hf .black) fun T3 hM3 hr3 => ?_
  rw [← plug_far, ← plug_far] at hM3 hr3
  have hup3 : T3.parent (addr x) = some a.1 :=
    parent_of_short (⟨s, .black, a, .join s cp v e (f.paint .black)⟩ :: path) hM3 hup
  exact yields_read hup3 (rotate_yields s hM3 hr3)

/-- With a red nephew the round mends the tree, and the next one ends at the root. -/
theorem repaired_outer {v f : RbTree (Ptr × κ)} {e : Ptr × κ} {n : ℕ}
    (hM : Models T.nodes (shape sn (plug x (⟨s, cp, a, .join s .black v e f⟩ :: path)) rest))
    (hroot : T.root = addr (plug x (⟨s, cp, a, .join s .black v e f⟩ :: path))) (hsn : sn.color = .black)
    (hup : x = .nil → sn.parent = a.1) (hx : Balanced x .black n) (hv : Balanced v c n) (hf : Balanced f .red n)
    (hpath : BalancedPath (⟨s, cp, a, .join s .black v e f⟩ :: path) .black (n + 1)) (fuel : ℕ) :
    Repaired T (T.deleteOuter s (addr x) >>= fun T => T.rbDeleteFixup (fuel + 1) T.root) sn
      (plug x (⟨s, cp, a, .join s .black v e f⟩ :: path)).toList rest := by
  have hlist : (plug x (⟨s, cp, a, .join s .black v e f⟩ :: path)).toList =
      (plug (.join s cp (.join s .black x a v) e (f.paint .black)) path).toList := by
    rw [plug, Frame.attach]
    refine (toList_plug_congr ?_ path).symm
    rw [RbTree.toList_rotate s cp .black cp .black]
    exact RbTree.toList_join_congr _ _ _ rfl (RbTree.toList_join_congr _ _ _ rfl (RbTree.toList_paint _ _))
  have hbalanced : ∃ m, Balanced (plug (.join s cp (.join s .black x a v) e (f.paint .black)) path) .black m := by
    have hnear := hx.join_black s a hv
    cases cp with
    | red => exact hpath.of_parent_red.2.plug (hnear.join_red s e hf.paint_black)
    | black => exact hpath.of_parent_black.2.plug (hnear.join_black s e hf.paint_black)
  rcases hbalanced with ⟨m, hm⟩
  rw [hlist]
  refine Repaired.bind (deleteOuter_yields hM hroot hf.ne_nil_of_red hup) fun T1 hM1 hr1 => ?_
  rw [hr1]
  exact deleteFixup_exit [] hM1 hr1 hsn (Or.inl hm) (.root _) (Or.inl rfl) fuel

/-- With a black far nephew and a red near one the rotation makes the far one red. -/
theorem repaired_nearRed {v f : RbTree (Ptr × κ)} {e : Ptr × κ} {n : ℕ}
    (hM : Models T.nodes (shape sn (plug x (⟨s, cp, a, .join s .black v e f⟩ :: path)) rest))
    (hroot : T.root = addr (plug x (⟨s, cp, a, .join s .black v e f⟩ :: path))) (hsn : sn.color = .black)
    (hup : x = .nil → sn.parent = a.1) (hx : Balanced x .black n) (hv : Balanced v .red n) (hf : Balanced f .black n)
    (hpath : BalancedPath (⟨s, cp, a, .join s .black v e f⟩ :: path) .black (n + 1)) (fuel : ℕ) :
    Repaired T
      (T.deleteInner s e.1 >>= fun T => T.deleteOuter s (addr x) >>= fun T => T.rbDeleteFixup (fuel + 1) T.root) sn
      (plug x (⟨s, cp, a, .join s .black v e f⟩ :: path)).toList rest := by
  rcases RbTree.exists_join s hv.ne_nil_of_red with ⟨g, h, i, heq⟩
  rw [hv.color_eq] at heq
  subst heq
  have hparts := hv.of_join_red
  have hlist : (plug x (⟨s, cp, a, .join s .black (.join s .red g h i) e f⟩ :: path)).toList =
      (plug x (⟨s, cp, a, .join s .black g h (.join s .red i e f)⟩ :: path)).toList := by
    rw [plug, plug, Frame.attach, Frame.attach]
    exact toList_plug_congr (RbTree.toList_join_congr _ _ _ rfl (RbTree.toList_rotate _ _ _ _ _ _ _ _ _ _)) _
  have hinner := hparts.2.join_red s e hf
  have hpath' : BalancedPath (⟨s, cp, a, .join s .black g h (.join s .red i e f)⟩ :: path) .black (n + 1) := by
    cases cp with
    | red => exact .red (hparts.1.join_black s h hinner) hpath.of_parent_red.2
    | black => exact .black (hparts.1.join_black s h hinner) hpath.of_parent_black.2
  rw [hlist]
  refine Repaired.bind (deleteInner_yields hM hroot hsn hf.color_eq) fun T1 hM1 hr1 => ?_
  exact repaired_outer hM1 hr1 hsn hup hx hparts.1 hinner hpath' fuel

/-- One round with a black sibling: with black nephews the parent is short instead. -/
theorem repaired_blackSibling {w : RbTree (Ptr × κ)} {n fuel : ℕ}
    (hM : Models T.nodes (shape sn (plug x (⟨s, cp, a, w⟩ :: path)) rest))
    (hroot : T.root = addr (plug x (⟨s, cp, a, w⟩ :: path))) (hsn : sn.color = .black)
    (hup : x = .nil → sn.parent = a.1) (hx : Balanced x .black n) (hw : Balanced w .black (n + 1))
    (hpath : BalancedPath (⟨s, cp, a, w⟩ :: path) .black (n + 1))
    (hloop : ∀ T' : RbtTree κ, Models T'.nodes (shape sn (plug (.join s cp x a (w.paint .red)) path) rest) →
      T'.root = addr (plug (.join s cp x a (w.paint .red)) path) → Balanced (w.paint .red) .red n →
      Repaired T' (T'.rbDeleteFixup (fuel + 1) a.1) sn (plug (.join s cp x a (w.paint .red)) path).toList rest) :
    Repaired T
      (do
        let p ← T.parent (addr x)
        let w ← T.child s.other p
        let cnear ← T.color (← T.child s w)
        let cfar ← T.color (← T.child s.other w)
        if cnear = .black ∧ cfar = .black then
          let T ← T.setColor w .red
          T.rbDeleteFixup (fuel + 1) p
        else
          let T ← T.deleteInner s w
          let T ← T.deleteOuter s (addr x)
          T.rbDeleteFixup (fuel + 1) T.root)
      sn (plug x (⟨s, cp, a, w⟩ :: path)).toList rest := by
  rcases RbTree.exists_join s hw.ne_nil_of_succ with ⟨v, e, f, heq⟩
  rw [hw.color_eq] at heq
  subst heq
  rcases hw.of_join_black with ⟨m, hm, hv, hf⟩
  obtain rfl : n = m := Nat.succ.inj hm
  have hfocus := hM
  rw [plug, Frame.attach, plug_far] at hfocus
  have hparent : T.parent (addr x) = some a.1 := parent_of_short _ hM hup
  have hsibling : T.child s.other a.1 = some e.1 := by
    have hchild : T.child s.other a.1 = some (addr (.join s .black v e f)) := child_other_at path hM
    rwa [addr_join] at hchild
  have hnear : T.child s e.1 = some (addr v) := child_at _ hfocus
  have hfar : T.child s.other e.1 = some (addr f) := child_other_at _ hfocus
  have hcnear : T.color (addr v) = some v.color :=
    color_at (⟨s, .black, e, f⟩ :: ⟨s.other, cp, a, x⟩ :: path) hfocus hsn
  have hcfar : T.color (addr f) = some f.color := by
    rw [plug_far] at hfocus
    exact color_at _ hfocus hsn
  refine repaired_read hparent (repaired_read hsibling (repaired_read hnear (repaired_read hcnear
    (repaired_read hfar (repaired_read hcfar ?_)))))
  by_cases hboth : v.color = .black ∧ f.color = .black
  · rw [if_pos hboth]
    rw [hboth.1] at hv
    rw [hboth.2] at hf
    have hlist : (plug x (⟨s, cp, a, .join s .black v e f⟩ :: path)).toList =
        (plug (.join s cp x a (.join s .red v e f)) path).toList := by
      rw [plug, Frame.attach]
      refine toList_plug_congr (RbTree.toList_join_congr _ _ _ rfl ?_) _
      exact RbTree.toList_join_congr _ _ _ rfl rfl
    rw [RbTree.paint_join] at hloop
    rw [plug, Frame.attach, plug_far] at hroot
    have hpaint := paint_yields _ hfocus hroot (RbTree.join_ne_nil _ _ _ _ _) .red
    rw [addr_join, RbTree.paint_join, ← plug_far] at hpaint
    rw [hlist]
    exact Repaired.bind hpaint fun T1 hM1 hr1 => hloop T1 hM1 hr1 (hv.join_red s e hf)
  · rw [if_neg hboth]
    by_cases hfred : f.color = .red
    · rw [hfred] at hf
      refine repaired_read (deleteInner_outer hM hsn hfred) ?_
      exact repaired_outer hM hroot hsn hup hx hv hf hpath fuel
    · have hfblack : f.color = .black := by cases hc : f.color <;> simp_all
      have hvred : v.color = .red := by cases hc : v.color <;> simp_all
      rw [hvred] at hv
      rw [hfblack] at hf
      exact repaired_nearRed hM hroot hsn hup hx hv hf hpath fuel

/-- The painted sibling leaves the red parent short, and the loop ends there. -/
theorem repaired_redParent {w : RbTree (Ptr × κ)} {n : ℕ}
    (hM : Models T.nodes (shape sn (plug (.join s .red x a (w.paint .red)) path) rest))
    (hroot : T.root = addr (plug (.join s .red x a (w.paint .red)) path)) (hsn : sn.color = .black)
    (hx : Balanced x .black n) (hw : Balanced (w.paint .red) .red n) (hpath : BalancedPath path .black (n + 1))
    (fuel : ℕ) :
    Repaired T (T.rbDeleteFixup (fuel + 1) a.1) sn (plug (.join s .red x a (w.paint .red)) path).toList rest := by
  have hshort : Short (.join s .red x a (w.paint .red)) n := by
    refine Or.inr ⟨RbTree.color_join _ _ _ _ _, ?_⟩
    rw [RbTree.paint_join]
    exact hx.join_black s a hw
  have hexit := deleteFixup_exit _ hM hroot hsn hshort hpath (Or.inr (RbTree.color_join _ _ _ _ _)) fuel
  rwa [addr_join] at hexit

theorem rbDeleteFixup_repaired {n : ℕ} (hM : Models T.nodes (shape sn (plug x path) rest))
    (hroot : T.root = addr (plug x path)) (hsn : sn.color = .black) (hup : x = .nil → sn.parent = top path)
    (hx : Short x n) (hpath : BalancedPath path .black (n + 1)) {fuel : ℕ} (hfuel : path.length < fuel) :
    Repaired T (T.rbDeleteFixup (fuel + 1) (addr x)) sn (plug x path).toList rest := by
  induction fuel generalizing T x path n with
  | zero => exact absurd hfuel (Nat.not_lt_zero _)
  | succ fuel ih =>
      by_cases hend : path = [] ∨ x.color = .red
      · exact deleteFixup_exit _ hM hroot hsn hx hpath hend (fuel + 1)
      rw [not_or] at hend
      have hxblack : Balanced x .black n := by
        rcases hx with hblack | ⟨hred, _⟩
        · exact hblack
        · exact absurd hred hend.2
      cases path with
      | nil => exact absurd rfl hend.1
      | cons p path =>
          rcases p with ⟨s, cp, a, w⟩
          have hne := addr_ne_root hM hroot
          have hw : Balanced w w.color (n + 1) := by
            cases cp with
            | red => exact hpath.of_parent_red.1.self
            | black => exact hpath.of_parent_black.1
          have hparent : T.parent (addr x) = some a.1 := parent_of_short _ hM hup
          have hside := sideOf_at _ hM (Or.inr hw.ne_nil_of_succ)
          have hsibling : T.child s.other a.1 = some (addr w) := child_other_at path hM
          rw [rbDeleteFixup]
          refine repaired_read (color_at _ hM hsn) ?_
          rw [if_pos ⟨hne, hxblack.color_eq⟩]
          refine repaired_read hparent (repaired_read hside (repaired_read hsibling ?_))
          by_cases hwred : w.color = .red
          · -- then the parent is black, and one more round ends at it
            have hcp : cp = .black := by
              cases cp with
              | black => rfl
              | red =>
                  rw [hpath.of_parent_red.1.color_eq] at hwred
                  cases hwred
            subst hcp
            rcases RbTree.exists_join s (hw.ne_nil_of_succ) with ⟨v, e, f, heq⟩
            rw [hwred] at heq
            subst heq
            rw [hwred] at hw
            have hparts := hw.of_join_red
            have hpath' : BalancedPath (⟨s, .red, a, v⟩ :: ⟨s, .black, e, f⟩ :: path) .black (n + 1) :=
              .red hparts.1 (.black hparts.2 hpath.of_parent_black.2)
            have hlist : (plug x (⟨s, .black, a, .join s .red v e f⟩ :: path)).toList =
                (plug x (⟨s, .red, a, v⟩ :: ⟨s, .black, e, f⟩ :: path)).toList := by
              simp only [plug, Frame.attach]
              exact (toList_plug_congr (RbTree.toList_rotate _ _ _ _ _ _ _ _ _ _) _).symm
            rw [hlist, addr_join]
            refine Repaired.bind (deleteRedSibling_red hM hroot hsn hup) fun T1 hM1 hr1 => ?_
            obtain ⟨fuel, rfl⟩ : ∃ k, fuel = k + 1 := ⟨fuel - 1, by simp only [List.length_cons] at hfuel; omega⟩
            refine repaired_blackSibling hM1 hr1 hsn hup hxblack hparts.1 hpath' fun T2 hM2 hr2 hpainted => ?_
            exact repaired_redParent hM2 hr2 hsn hxblack hpainted (.black hparts.2 hpath.of_parent_black.2) (fuel + 1)
          · have hwblack : w.color = .black := by cases hc : w.color <;> simp_all
            rw [hwblack] at hw
            refine repaired_read (deleteRedSibling_black hM hsn hwblack) ?_
            refine repaired_blackSibling hM hroot hsn hup hxblack hw hpath fun T1 hM1 hr1 hpainted => ?_
            cases cp with
            | red => exact repaired_redParent hM1 hr1 hsn hxblack hpainted hpath.of_parent_red.2.of_red fuel
            | black =>
                -- the parent is short
                have hloop := ih hM1 hr1 (fun hnil => absurd hnil (RbTree.join_ne_nil _ _ _ _ _))
                  (Or.inl (hxblack.join_black s a hpainted)) hpath.of_parent_black.2
                  (Nat.lt_of_succ_lt_succ hfuel)
                rwa [addr_join] at hloop

/-! ## Taking a node out -/

section Detach

variable {M M' : Memory κ} {u v r' : Ptr} {nu : RbtNode κ}

theorem rbTransplant_yields (hM : Models T.nodes ({(nil, sn)} + (pathLayout u path + ({(u, nu)} + M))))
    (hparent : nu.parent = top path) (hroot : T.root = pathRoot u path)
    (hset : ∀ T' : RbtTree κ, Models T'.nodes ({(nil, sn)} + (pathLayout v path + ({(u, nu)} + M))) →
      T'.root = pathRoot v path → Yields T' (T'.setParent v (top path)) M' r') :
    Yields T (T.rbTransplant u v) M' r' := by
  have hcell : Models T.nodes ({(u, nu)} + ({(nil, sn)} + (pathLayout u path + M))) := hM.of_eq (by abel)
  have hup := parent_eq hcell
  rw [hparent] at hup
  rw [rbTransplant]
  refine yields_read hup ?_
  refine (relink_yields hM ?_ hroot .left v).bind fun T1 hM1 hr1 => ?_
  · rw [Multiset.map_add, Multiset.map_singleton]
    exact Multiset.mem_add.2 (Or.inl (Multiset.mem_singleton_self _))
  have hcell1 : Models T1.nodes ({(u, nu)} + ({(nil, sn)} + (pathLayout v path + M))) := hM1.of_eq (by abel)
  have hup1 := parent_eq hcell1
  rw [hparent] at hup1
  exact yields_read hup1 (hset T1 hM1 hr1)

/-- The sentinel after the parent pointer of a subtree was written, which is its own for an empty one. -/
def adopt (sn : RbtNode κ) (t : RbTree (Ptr × κ)) (q : Ptr) : RbtNode κ :=
  match t with
  | .nil => sn.setParent q
  | .node _ _ _ _ => sn

@[simp] theorem adopt_color (sn : RbtNode κ) (t : RbTree (Ptr × κ)) (q : Ptr) : (adopt sn t q).color = sn.color := by
  cases t <;> rfl

theorem IsSentinel.adopt (h : IsSentinel sn) (t : RbTree (Ptr × κ)) (q : Ptr) : IsSentinel (adopt sn t q) := by
  cases t
  · exact h
  · exact h

theorem adopt_parent {t : RbTree (Ptr × κ)} (h : t = .nil) (sn : RbtNode κ) (q : Ptr) : (adopt sn t q).parent = q := by
  rw [h]
  rfl

theorem adopt_of_ne_nil {t : RbTree (Ptr × κ)} (h : t ≠ .nil) (sn : RbtNode κ) (q : Ptr) : adopt sn t q = sn := by
  cases t with
  | nil => exact absurd rfl h
  | node _ _ _ _ => rfl

theorem setParent_addr_yields {t : RbTree (Ptr × κ)} {p : Ptr}
    (hM : Models T.nodes ({(nil, sn)} + (layout p t + M))) (q : Ptr) :
    Yields T (T.setParent (addr t) q) ({(nil, adopt sn t q)} + (layout q t + M)) T.root := by
  by_cases ht : t = .nil
  · subst ht
    exact setParent_yields hM q
  · have hreparent := reparent_yields hM q
    rw [if_neg (addr_ne_nil hM ht)] at hreparent
    rwa [adopt_of_ne_nil ht]

/-- A subtree takes the place of a node. -/
theorem transplant_subtree {t : RbTree (Ptr × κ)} {p : Ptr}
    (hM : Models T.nodes ({(nil, sn)} + (layout p t + (pathLayout u path + ({(u, nu)} + M)))))
    (hparent : nu.parent = top path) (hroot : T.root = pathRoot u path) :
    Yields T (T.rbTransplant u (addr t))
      ({(nil, adopt sn t (top path))} + (layout (top path) t + (pathLayout (addr t) path + ({(u, nu)} + M))))
      (pathRoot (addr t) path) := by
  refine rbTransplant_yields (M := layout p t + M) (hM.of_eq (by abel)) hparent hroot fun T1 hM1 hr1 => ?_
  exact (setParent_addr_yields (hM1.of_eq (by abel)) (top path)).of_eq rfl hr1

variable {z y : Ptr × κ} {cz cy : Color} {l r yr : RbTree (Ptr × κ)} {way : List (Frame (Ptr × κ))} {ny : RbtNode κ}

/-- `replaceNode` puts a node that was taken out at the place of `z`. -/
theorem replaceNode_yields {p rz : Ptr} (hl : l ≠ .nil)
    (hM : Models T.nodes ({(nil, sn)} + (layout z.1 l + (layout y.1 r + (pathLayout z.1 path +
      ({(z.1, cell .left (addr l) rz (top path) cz z.2)} +
        ({(y.1, cell .left nil (addr r) p cy y.2)} + rest)))))))
    (hroot : T.root = pathRoot z.1 path) :
    Yields T (T.replaceNode z.1 y.1)
      (shape sn (plug (.node cz l y r) path) ({(z.1, cell .left (addr l) rz (top path) cz z.2)} + rest))
      (addr (plug (.node cz l y r) path)) := by
  rw [replaceNode]
  refine Yields.bind (M := {(nil, sn)} + (pathLayout y.1 path +
      ({(z.1, cell .left (addr l) rz (top path) cz z.2)} +
        ({(y.1, cell .left nil (addr r) (top path) cy y.2)} + (layout z.1 l + layout y.1 r + rest)))))
    (r := pathRoot y.1 path) ?_ fun T1 hM1 hr1 => ?_
  · refine rbTransplant_yields (M := {(y.1, cell .left nil (addr r) p cy y.2)} + (layout z.1 l + layout y.1 r + rest))
      (hM.of_eq (by abel)) (parent_cell _ _ _ _ _ _) hroot fun T' hM' hr' => ?_
    refine (setParent_yields (M := {(nil, sn)} + (pathLayout y.1 path +
      ({(z.1, cell .left (addr l) rz (top path) cz z.2)} + (layout z.1 l + layout y.1 r + rest))))
      (hM'.of_eq (by abel)) _).of_eq ?_ hr'
    rw [setParent_cell]
    abel
  have hz1 : Models T1.nodes ({(z.1, cell .left (addr l) rz (top path) cz z.2)} +
      ({(y.1, cell .left nil (addr r) (top path) cy y.2)} +
        ({(nil, sn)} + (layout z.1 l + layout y.1 r + pathLayout y.1 path + rest)))) := hM1.of_eq (by abel)
  refine yields_read (child_eq hz1) ((setChild_yields (hz1.of_eq (add_left_comm _ _ _)) (addr l)).bind
    fun T2 hM2 hr2 => ?_)
  refine yields_read (child_eq hM2) ?_
  -- the left side of `z` is not empty, so the sentinel keeps its parent pointer
  refine (setParent_addr_yields (p := z.1) (M := {(y.1, cell .left (addr l) (addr r) (top path) cy y.2)} +
    ({(z.1, cell .left (addr l) rz (top path) cz z.2)} + (layout y.1 r + pathLayout y.1 path + rest)))
    (hM2.of_eq (by abel)) y.1).bind fun T3 hM3 hr3 => ?_
  rw [adopt_of_ne_nil hl] at hM3
  have hz3 : Models T3.nodes ({(z.1, cell .left (addr l) rz (top path) cz z.2)} +
      ({(y.1, cell .left (addr l) (addr r) (top path) cy y.2)} +
        ({(nil, sn)} + (layout y.1 l + layout y.1 r + pathLayout y.1 path + rest)))) := hM3.of_eq (by abel)
  refine yields_read ((color_eq hz3).trans (congrArg some (color_cell _ _ _ _ _ _))) ?_
  refine (setColor_yields (hz3.of_eq (add_left_comm _ _ _)) cz).of_eq ?_ ?_
  · rw [setColor_cell, shape, layout_plug, layout, addr_node]
    abel
  · rw [hr3, hr2, hr1, addr_plug, addr_node]

theorem plug_cons_ne_nil (t : RbTree (Ptr × κ)) (f : Frame (Ptr × κ)) (path : List (Frame (Ptr × κ))) :
    plug t (f :: path) ≠ .nil := by
  rw [plug, Ne, ← RbTree.toList_eq_nil, toList_plug, Frame.toList_attach]
  rcases f with ⟨s, c, b, t'⟩
  cases s <;> simp [Frame.before, Frame.after]

/-- A frame further down the way has another node. -/
theorem elem_ne_below {t : RbTree (Ptr × κ)} {f : Frame (Ptr × κ)}
    (hM : Models T.nodes (shape sn (plug t (f :: way ++ ⟨.right, cz, z, l⟩ :: path)) rest)) : f.elem.1 ≠ z.1 := by
  rw [plug_append] at hM
  have hz : Models T.nodes ({(z.1, cell .right (addr (plug t (f :: way))) (addr l) (top path) cz z.2)} +
      ({(nil, sn)} + (layout z.1 (plug t (f :: way)) + (layout z.1 l + (pathLayout z.1 path + rest))))) :=
    (models_cons hM).of_eq (by abel)
  refine hz.ne_of_mem ?_
  rw [Multiset.map_add, Multiset.map_add]
  refine Multiset.mem_add.2 (Or.inr (Multiset.mem_add.2 (Or.inl (mem_layout_of_mem ?_ _))))
  rw [plug, toList_plug, Frame.toList_attach]
  rcases f with ⟨s, c, b, t'⟩
  cases s <;> simp [Frame.before, Frame.after]

/-- `detachMinimum` takes the next node out of the right side of `z` and gives it that side. -/
theorem detachMinimum_yields (hM : Models T.nodes (shape sn (plug (.node cy .nil y yr) (way ++ ⟨.right, cz, z, l⟩ :: path)) rest))
    (hroot : T.root = addr (plug (.node cy .nil y yr) (way ++ ⟨.right, cz, z, l⟩ :: path))) :
    ∃ p rz, Yields T (T.detachMinimum z.1 y.1 (addr yr))
      ({(nil, adopt sn yr (top (way ++ ⟨.right, cz, y, l⟩ :: path)))} + (layout z.1 l +
        (layout y.1 (plug yr way) + (pathLayout z.1 path +
          ({(z.1, cell .left (addr l) rz (top path) cz z.2)} +
            ({(y.1, cell .left nil (addr (plug yr way)) p cy y.2)} + rest))))))
      (pathRoot z.1 path) := by
  have hparent : T.parent y.1 = some (top (way ++ ⟨.right, cz, z, l⟩ :: path)) :=
    parent_at _ hM (RbTree.node_ne_nil _ _ _ _)
  cases way with
  | nil =>
      -- the next node is the right child of `z`
      refine ⟨z.1, y.1, ?_⟩
      rw [detachMinimum]
      refine yields_read hparent ?_
      have hparts : Models T.nodes ({(nil, sn)} + (layout y.1 yr + (layout z.1 l + (pathLayout z.1 path +
          ({(z.1, cell .left (addr l) y.1 (top path) cz z.2)} +
            ({(y.1, cell .left nil (addr yr) z.1 cy y.2)} + rest)))))) := by
        refine (models_cons hM).of_eq ?_
        simp only [layout, addr_nil, addr_node, RbtNode.cell]
        abel
      rw [List.nil_append, top, if_pos rfl]
      refine (setParent_addr_yields hparts y.1).of_eq ?_ ?_
      · simp only [plug, List.nil_append, top]
        abel
      · rw [hroot, addr_plug, List.nil_append, pathRoot]
  | cons f way =>
      refine ⟨top (f :: way ++ ⟨.right, cz, z, l⟩ :: path), addr (plug yr (f :: way)), ?_⟩
      rw [detachMinimum]
      refine yields_read hparent ?_
      have hne : f.elem.1 ≠ z.1 := elem_ne_below hM
      have hcell : Models T.nodes ({(nil, sn)} + (layout y.1 yr +
          (pathLayout y.1 (f :: way ++ ⟨.right, cz, z, l⟩ :: path) +
            ({(y.1, cell .left nil (addr yr) (top (f :: way ++ ⟨.right, cz, z, l⟩ :: path)) cy y.2)} + rest)))) := by
        refine hM.of_eq ?_
        rw [shape, layout_plug, layout, layout, addr_nil, addr_node]
        abel
      rw [addr_plug] at hroot
      rw [List.cons_append, top, if_neg hne]
      have hchild : T.child .right y.1 = some (addr yr) := child_other_at (s := .left) _ hM
      refine yields_read hchild ((transplant_subtree hcell (parent_cell _ _ _ _ _ _) hroot).bind fun T1 hM1 hr1 => ?_)
      have hshape1 : Models T1.nodes (shape (adopt sn yr f.elem.1)
          (plug (plug yr (f :: way)) (⟨.right, cz, z, l⟩ :: path))
          ({(y.1, cell .left nil (addr yr) f.elem.1 cy y.2)} + rest)) := by
        refine hM1.of_eq ?_
        rw [shape, ← plug_append, layout_plug]
        simp only [List.cons_append, top]
        abel
      have hright : plug yr (f :: way) ≠ .nil := plug_cons_ne_nil _ _ _
      have hz1 : T1.child .right z.1 = some (addr (plug yr (f :: way))) := child_at (s := .right) path hshape1
      have hy1 : Models T1.nodes ({(y.1, cell .left nil (addr yr) f.elem.1 cy y.2)} +
          ({(nil, adopt sn yr f.elem.1)} + (layout z.1 (plug yr (f :: way)) + (layout z.1 l + (pathLayout z.1 path +
            ({(z.1, cell .left (addr l) (addr (plug yr (f :: way))) (top path) cz z.2)} + rest)))))) := by
        refine (models_cons hshape1).of_eq ?_
        simp only [RbtNode.cell]
        abel
      refine yields_read hz1 ((setChild_other_yields hy1 _).bind fun T2 hM2 hr2 => ?_)
      refine yields_read (child_other_eq hM2) ?_
      refine (setParent_addr_yields (p := z.1) (M := layout z.1 l + (pathLayout z.1 path +
        ({(z.1, cell .left (addr l) (addr (plug yr (f :: way))) (top path) cz z.2)} +
          ({(y.1, cell .left nil (addr (plug yr (f :: way))) f.elem.1 cy y.2)} + rest))))
        (hM2.of_eq (by abel)) y.1).of_eq ?_ ?_
      · rw [adopt_of_ne_nil hright]
        simp only [List.cons_append, top]
        abel
      · rw [hr2, hr1, ← addr_plug, plug_append, addr_plug, pathRoot]

end Detach

/-- The subtree that takes the place of a removed node of the colour `c` is short when the node was black. -/
theorem repaired_finish {n fuel : ℕ} (hM : Models T.nodes (shape sn (plug x path) rest))
    (hroot : T.root = addr (plug x path)) (hsn : sn.color = .black) (hup : x = .nil → sn.parent = top path)
    (hx : Balanced (.join s c .nil a x) c n) (hpath : BalancedPath path c n) (hfuel : path.length + 1 < fuel) :
    Repaired T (if c = .black then T.rbDeleteFixup fuel (addr x) else some T) sn (plug x path).toList rest := by
  cases c with
  | red =>
      rcases hpath.of_red.plug hx.of_join_red.2 with ⟨m, hm⟩
      refine ⟨_, m, rfl, hm, ?_⟩
      rw [if_neg Color.noConfusion, ← hroot]
      exact yields_self hM
  | black =>
      rcases hx.of_join_black with ⟨m, rfl, _, hx⟩
      have hshort : Short x m := by
        cases hc : x.color with
        | black => exact Or.inl (hc ▸ hx)
        | red =>
            rw [hc] at hx
            exact Or.inr ⟨hc, hx.paint_black⟩
      obtain ⟨fuel, rfl⟩ : ∃ k, fuel = k + 1 := ⟨fuel - 1, by omega⟩
      rw [if_pos rfl]
      exact rbDeleteFixup_repaired hM hroot hsn hup hshort hpath (by omega)

section Delete

variable {cz : Color} {l r : RbTree (Ptr × κ)} {z : Ptr × κ} {n m fuel : ℕ}

/-- A node with at most one child gives its place to that child. -/
theorem repaired_oneChild (hM : Models T.nodes (shape sn (plug (.join s cz .nil z x) path) rest))
    (hroot : T.root = addr (plug (.join s cz .nil z x) path)) (hsn : sn.color = .black)
    (hnode : Balanced (.join s cz .nil z x) cz n) (hpath : BalancedPath path cz n) (hfuel : path.length + 1 < fuel) :
    Repaired T
      (T.rbTransplant z.1 (addr x) >>= fun T => if cz = .black then T.rbDeleteFixup fuel (addr x) else some T)
      (adopt sn x (top path)) (plug x path).toList ({(z.1, cell s nil (addr x) (top path) cz z.2)} + rest) := by
  have hparts : Models T.nodes ({(nil, sn)} + (layout z.1 x + (pathLayout z.1 path +
      ({(z.1, cell s nil (addr x) (top path) cz z.2)} + rest)))) := by
    refine hM.of_eq ?_
    rw [shape, layout_plug, layout_join, addr_join, layout, addr_nil]
    abel
  rw [addr_plug, addr_join] at hroot
  refine Repaired.bind (transplant_subtree hparts (parent_cell _ _ _ _ _ _) hroot) fun T1 hM1 hr1 => ?_
  refine repaired_finish (hM1.of_eq ?_) (hr1.trans (addr_plug _ _).symm) ((adopt_color _ _ _).trans hsn)
    (fun hnil => adopt_parent hnil _ _) hnode hpath hfuel
  rw [shape, layout_plug]
  abel

/-- A node with two children gives its place to the next node, whose place its right child takes. -/
theorem repaired_twoChildren {cy : Color} {y : Ptr × κ} {yr : RbTree (Ptr × κ)} {way : List (Frame (Ptr × κ))}
    (hM : Models T.nodes (shape sn (plug (.node cy .nil y yr) (way ++ ⟨.right, cz, z, l⟩ :: path)) rest))
    (hroot : T.root = addr (plug (.node cy .nil y yr) (way ++ ⟨.right, cz, z, l⟩ :: path))) (hsn : IsSentinel sn)
    (hl : l ≠ .nil) (hnode : Balanced (.node cy .nil y yr) cy n)
    (hpath : BalancedPath (way ++ ⟨.right, cz, z, l⟩ :: path) cy n)
    (hfuel : (way ++ ⟨.right, cz, z, l⟩ :: path).length + 1 < fuel) :
    ∃ sn' nz, IsSentinel sn' ∧ nz.key = some z.2 ∧
      Repaired T
        (T.detachMinimum z.1 y.1 (addr yr) >>= fun T => T.replaceNode z.1 y.1 >>= fun T =>
          if cy = .black then T.rbDeleteFixup fuel (addr yr) else some T)
        sn' (plug yr (way ++ ⟨.right, cz, y, l⟩ :: path)).toList ({(z.1, nz)} + rest) := by
  rcases detachMinimum_yields hM hroot with ⟨p, rz, hdetach⟩
  refine ⟨adopt sn yr (top (way ++ ⟨.right, cz, y, l⟩ :: path)), cell .left (addr l) rz (top path) cz z.2,
    hsn.adopt _ _, key_cell _ _ _ _ _ _, Repaired.bind hdetach fun T1 hM1 hr1 => ?_⟩
  refine Repaired.bind (replaceNode_yields hl hM1 hr1) fun T2 hM2 hr2 => ?_
  have hplace : plug (.node cz l y (plug yr way)) path = plug yr (way ++ ⟨.right, cz, y, l⟩ :: path) := by
    rw [plug_append]
    rfl
  rw [hplace] at hM2 hr2
  refine repaired_finish (s := .left) hM2 hr2 (hsn.adopt _ _).2 (fun hnil => adopt_parent hnil _ _) hnode
    (hpath.replace_elem y) ?_
  simpa using hfuel

/-- `__rb_delete` leaves a tree without the node, and the node beside it. -/
theorem rbDelete_repaired (hM : Models T.nodes (shape sn (plug (.node cz l z r) path) rest))
    (hroot : T.root = addr (plug (.node cz l z r) path)) (hsn : IsSentinel sn)
    (hb : Balanced (plug (.node cz l z r) path) .black m) (hfuel : height (plug (.node cz l z r) path) + 1 < fuel) :
    ∃ sn' nz, IsSentinel sn' ∧ nz.key = some z.2 ∧
      Repaired T (T.rbDelete fuel z.1) sn' (before path ++ (l.toList ++ r.toList) ++ after path)
        ({(z.1, nz)} + rest) := by
  have hdepth := height_add_length_le (.node cz l z r) path
  rcases BalancedPath.of_plug hb with ⟨c, n, hnode, hpath⟩
  obtain rfl : cz = c := hnode.color_eq
  have hchildl : T.child .left z.1 = some (addr l) := child_at (s := .left) _ hM
  have hchildr : T.child .right z.1 = some (addr r) := child_other_at (s := .left) _ hM
  have hcolor : T.color z.1 = some cz := color_at _ hM hsn.2
  rw [height] at hdepth
  have hdelete : ∀ {sn' elems rest'}, Repaired T _ sn' elems rest' → Repaired T (T.rbDelete fuel z.1) sn' elems rest' :=
    fun h => repaired_read hchildl (repaired_read hchildr (repaired_read hcolor h))
  by_cases hlnil : l = .nil
  · subst hlnil
    have hone := repaired_oneChild (s := .left) hM hroot hsn.2 hnode hpath (show path.length + 1 < fuel by omega)
    rw [toList_plug] at hone
    refine ⟨adopt sn r (top path), cell .left nil (addr r) (top path) cz z.2, hsn.adopt _ _,
      key_cell _ _ _ _ _ _, hdelete ?_⟩
    rw [addr_nil, if_pos rfl]
    exact hone
  · have hlne : addr l ≠ nil := addr_ne_nil_at (⟨.left, cz, z, r⟩ :: path) hM hlnil
    by_cases hrnil : r = .nil
    · subst hrnil
      have hone := repaired_oneChild (s := .right) hM hroot hsn.2 hnode hpath (show path.length + 1 < fuel by omega)
      rw [toList_plug, ← List.append_nil l.toList] at hone
      refine ⟨adopt sn l (top path), cell .right nil (addr l) (top path) cz z.2, hsn.adopt _ _,
        key_cell _ _ _ _ _ _, hdelete ?_⟩
      rw [if_neg hlne, addr_nil, if_pos rfl]
      exact hone
    · have hM' : Models T.nodes (shape sn (plug r (⟨.right, cz, z, l⟩ :: path)) rest) := hM
      have hrne := addr_ne_nil_at _ hM' hrnil
      rcases treeMinimum_spec _ hM' hrnil (show height r ≤ fuel by omega) with ⟨cy, y, yr, way, rfl, hway, hmin⟩
      rw [← plug_append] at hM'
      have hb' : Balanced (plug (.node cy .nil y yr) (way ++ ⟨.right, cz, z, l⟩ :: path)) .black m := by
        rw [plug_append]
        exact hb
      have hroot' : T.root = addr (plug (.node cy .nil y yr) (way ++ ⟨.right, cz, z, l⟩ :: path)) := by
        rw [plug_append]
        exact hroot
      have hlength : (way ++ ⟨.right, cz, z, l⟩ :: path).length + 1 < fuel := by
        have hdeep := height_add_length_le (.node cy .nil y yr) (way ++ ⟨.right, cz, z, l⟩ :: path)
        rw [plug_append] at hdeep
        exact (Nat.succ_le_succ ((Nat.le_add_left _ _).trans hdeep)).trans_lt hfuel
      rcases BalancedPath.of_plug hb' with ⟨c', n', hnode', hpath'⟩
      obtain rfl : cy = c' := hnode'.color_eq
      rcases repaired_twoChildren hM' hroot' hsn hlnil hnode' hpath' hlength with ⟨sn', nz, hsn', hkey, hrepaired⟩
      have hlist : (plug yr (way ++ ⟨.right, cz, y, l⟩ :: path)).toList =
          before path ++ (l.toList ++ (plug (.node cy .nil y yr) way).toList) ++ after path := by
        simp [toList_plug, before_append, after_append, hway, before, after, Frame.before, Frame.after]
      have hcy : T.color y.1 = some cy := color_at _ hM' hsn.2
      have hyr : T.child .right y.1 = some (addr yr) := child_other_at (s := .left) _ hM'
      rw [hlist] at hrepaired
      refine ⟨sn', nz, hsn', hkey, hdelete ?_⟩
      rw [if_neg hlne, if_neg hrne]
      exact repaired_read hmin (repaired_read hcy (repaired_read hyr hrepaired))

end Delete

end RbtTree

end SsrNative
