import SsrNative.RbTreeShape

/-!
# RbTreeInsert — a node comes into the tree

The loop of `__rb_insert_fixup` moves a red node with a red parent towards the root until a rotation or the
root ends it.  What is invariant: the subtree at the place is red and balanced, and a black one would fit there.
-/

namespace SsrNative

open Lib Lib.RedBlackTree

namespace RbtTree

open RbtNode Cells

variable {κ : Type} {T : RbtTree κ} {sn : RbtNode κ} {rest : Memory κ}

/-! ## Repair -/

/-- The colour of the node above a place. -/
theorem color_top {t : RbTree (Ptr × κ)} {path : List (Frame (Ptr × κ))}
    (hM : Models T.nodes (shape sn (plug t path) rest)) (hsn : sn.color = .black) :
    T.color (top path) = some ((path.head?.map Frame.color).getD .black) := by
  cases path with
  | nil => exact color_nil hM hsn
  | cons f path =>
      have hcolor := color_at (t := f.attach t) _ hM hsn
      rwa [Frame.attach, addr_join, RbTree.color_join] at hcolor

/-- The loop ends below a black node and at the root. -/
theorem insertFixup_exit {z : RbTree (Ptr × κ)} {path : List (Frame (Ptr × κ))} (hz : z ≠ .nil)
    (hM : Models T.nodes (shape sn (plug z path) rest)) (hroot : T.root = addr (plug z path))
    (hsn : sn.color = .black) (htop : (path.head?.map Frame.color).getD .black = .black) (fuel : ℕ) :
    Yields T (T.rbInsertFixup (fuel + 1) (addr z)) (shape sn ((plug z path).paint .black) rest)
      (addr ((plug z path).paint .black)) := by
  have hcolor := color_top hM hsn
  rw [htop] at hcolor
  rw [rbInsertFixup]
  refine yields_read (parent_at _ hM hz) (yields_read hcolor ?_)
  rw [if_neg Color.noConfusion, hroot]
  exact paint_black_yields [] hM hroot hsn

/-- The rotation that ends the loop. -/
theorem insertRotate_yields {s : Side} {z u y : RbTree (Ptr × κ)} {a b : Ptr × κ} {path : List (Frame (Ptr × κ))}
    (hz : z ≠ .nil) (hM : Models T.nodes (shape sn (plug z (⟨s, .red, a, u⟩ :: ⟨s, .black, b, y⟩ :: path)) rest))
    (hroot : T.root = addr (plug z (⟨s, .red, a, u⟩ :: ⟨s, .black, b, y⟩ :: path))) :
    Yields T (T.insertRotate s (addr z)) (shape sn (plug z (⟨s, .black, a, .join s .red u b y⟩ :: path)) rest)
      (addr (plug z (⟨s, .black, a, .join s .red u b y⟩ :: path))) := by
  rw [insertRotate]
  refine yields_read (parent_at _ hM hz) ?_
  refine Yields.bind (M := shape sn (plug z (⟨s, .black, a, u⟩ :: ⟨s, .black, b, y⟩ :: path)) rest)
    (r := addr (plug z (⟨s, .black, a, u⟩ :: ⟨s, .black, b, y⟩ :: path))) ?_ fun T1 hM1 hr1 => ?_
  · have hpaint := paint_yields (⟨s, .black, b, y⟩ :: path) hM hroot (RbTree.join_ne_nil _ _ _ _ _) .black
    rwa [Frame.attach, addr_join, RbTree.paint_join] at hpaint
  have hgrand1 : T1.parent a.1 = some b.1 := by
    have hparent := parent_at (⟨s, .black, b, y⟩ :: path) hM1 (RbTree.join_ne_nil _ _ _ _ _)
    rwa [Frame.attach, addr_join] at hparent
  refine yields_read (parent_at _ hM1 hz) (yields_read hgrand1 ?_)
  refine Yields.bind (M := shape sn (plug z (⟨s, .black, a, u⟩ :: ⟨s, .red, b, y⟩ :: path)) rest)
    (r := addr (plug z (⟨s, .black, a, u⟩ :: ⟨s, .red, b, y⟩ :: path))) ?_ fun T2 hM2 hr2 => ?_
  · have hpaint := paint_yields path hM1 hr1 (RbTree.join_ne_nil _ _ _ _ _) .red
    rwa [Frame.attach, addr_join, RbTree.paint_join] at hpaint
  have hgrand2 : T2.parent a.1 = some b.1 := by
    have hparent := parent_at (⟨s, .red, b, y⟩ :: path) hM2 (RbTree.join_ne_nil _ _ _ _ _)
    rwa [Frame.attach, addr_join] at hparent
  refine yields_read (parent_at _ hM2 hz) (yields_read hgrand2 ?_)
  have hturn : RbTree.join s .red (.join s .black z a u) b y = .join s.other .red y b (.join s.other .black u a z) := by
    rw [RbTree.join_other, RbTree.join_other]
  have hturned : RbTree.join s.other .black (.join s.other .red y b u) a z = .join s .black z a (.join s .red u b y) := by
    rw [RbTree.join_other, RbTree.join_other]
  simp only [plug, Frame.attach, hturn] at hM2 hr2
  have hrotate := rotate_yields s.other hM2 hr2
  rwa [hturned] at hrotate

variable {z : RbTree (Ptr × κ)} {path : List (Frame (Ptr × κ))}

/-- What `__rb_insert_fixup` leaves. -/
def Repaired (T : RbtTree κ) (o : Option (RbtTree κ)) (sn : RbtNode κ) (elems : List (Ptr × κ)) (rest : Memory κ) : Prop :=
  ∃ t n, t.toList = elems ∧ Balanced t .black n ∧ Yields T o (shape sn t rest) (addr t)

theorem Repaired.bind {o : Option (RbtTree κ)} {M : Memory κ} {r : Ptr} {elems : List (Ptr × κ)}
    {f : RbtTree κ → Option (RbtTree κ)} (ho : Yields T o M r)
    (hf : ∀ T' : RbtTree κ, Models T'.nodes M → T'.root = r → Repaired T' (f T') sn elems rest) :
    Repaired T (o >>= f) sn elems rest := by
  rcases ho with ⟨h, rfl, hM⟩
  exact hf { T with nodes := h, root := r } hM rfl

theorem repaired_read {β : Type} {o : Option β} {b : β} {elems : List (Ptr × κ)} {f : β → Option (RbtTree κ)}
    (ho : o = some b) (hf : Repaired T (f b) sn elems rest) : Repaired T (o >>= f) sn elems rest := by
  rw [ho]
  exact hf

/-- Below a black node the tree is already balanced. -/
theorem repaired_exit {n : ℕ} (hM : Models T.nodes (shape sn (plug z path) rest))
    (hroot : T.root = addr (plug z path)) (hsn : sn.color = .black)
    (htop : (path.head?.map Frame.color).getD .black = .black) (hz : Balanced z .red n)
    (hpath : BalancedPath path .black n) (fuel : ℕ) :
    Repaired T (T.rbInsertFixup (fuel + 1) (addr z)) sn (plug z path).toList rest := by
  have hbalanced : ∃ c m, Balanced (plug z path) c m := by
    cases path with
    | nil => exact ⟨.red, n, hz⟩
    | cons f path =>
        rcases (hpath.of_black_parent htop .red).plug hz with ⟨m, hm⟩
        exact ⟨.black, m, hm⟩
  rcases hbalanced with ⟨c, m, hm⟩
  rcases hm.exists_paint_black with ⟨m', hm'⟩
  exact ⟨_, m', RbTree.toList_paint _ _, hm', insertFixup_exit hz.ne_nil_of_red hM hroot hsn htop fuel⟩

/-- The rotations at the end of the loop, and the round that finds nothing more to do. -/
theorem repaired_rotate {s : Side} {u y : RbTree (Ptr × κ)} {a b : Ptr × κ} {n : ℕ}
    (hM : Models T.nodes (shape sn (plug z (⟨s, .red, a, u⟩ :: ⟨s, .black, b, y⟩ :: path)) rest))
    (hroot : T.root = addr (plug z (⟨s, .red, a, u⟩ :: ⟨s, .black, b, y⟩ :: path))) (hsn : sn.color = .black)
    (hz : Balanced z .red n) (hu : Balanced u .black n) (hy : Balanced y .black n)
    (hpath : BalancedPath path .black (n + 1)) (fuel : ℕ) :
    Repaired T (T.insertRotate s (addr z) >>= fun T => T.rbInsertFixup (fuel + 1) (addr z)) sn
      (plug z (⟨s, .red, a, u⟩ :: ⟨s, .black, b, y⟩ :: path)).toList rest := by
  have hlist : (plug z (⟨s, .red, a, u⟩ :: ⟨s, .black, b, y⟩ :: path)).toList =
      (plug z (⟨s, .black, a, .join s .red u b y⟩ :: path)).toList := by
    simp only [plug, Frame.attach]
    exact toList_plug_congr (RbTree.toList_rotate _ _ _ _ _ _ _ _ _ _) _
  rw [hlist]
  refine Repaired.bind (insertRotate_yields hz.ne_nil_of_red hM hroot) fun T1 hM1 hr1 => ?_
  exact repaired_exit hM1 hr1 hsn rfl hz (.black (hu.join_red s b hy) hpath) fuel

/-- Parent and uncle take the blackness of the grandparent. -/
theorem repaired_recolor {sp s : Side} {u y : RbTree (Ptr × κ)} {a b : Ptr × κ} {elems : List (Ptr × κ)}
    {f : RbtTree κ → Option (RbtTree κ)}
    (hM : Models T.nodes (shape sn (plug z (⟨sp, .red, a, u⟩ :: ⟨s, .black, b, y⟩ :: path)) rest))
    (hroot : T.root = addr (plug z (⟨sp, .red, a, u⟩ :: ⟨s, .black, b, y⟩ :: path))) (hy : y ≠ .nil)
    (hf : ∀ T' : RbtTree κ,
      Models T'.nodes (shape sn (plug (.join s .red (.join sp .black z a u) b (y.paint .black)) path) rest) →
      T'.root = addr (plug (.join s .red (.join sp .black z a u) b (y.paint .black)) path) →
      Repaired T' (f T') sn elems rest) :
    Repaired T (T.setColor a.1 .black >>= fun T => T.setColor (addr y) .black >>= fun T =>
      T.setColor b.1 .red >>= f) sn elems rest := by
  refine Repaired.bind (M := shape sn (plug (.join sp .black z a u) (⟨s, .black, b, y⟩ :: path)) rest)
    (r := addr (plug (.join sp .black z a u) (⟨s, .black, b, y⟩ :: path))) ?_ fun T1 hM1 hr1 => ?_
  · have hpaint := paint_yields (⟨s, .black, b, y⟩ :: path) hM hroot (RbTree.join_ne_nil _ _ _ _ _) .black
    rwa [Frame.attach, addr_join, RbTree.paint_join] at hpaint
  -- the uncle is at a place of its own
  have hplace : ∀ y', plug (.join sp .black z a u) (⟨s, .black, b, y'⟩ :: path) =
      plug y' (⟨s.other, .black, b, .join sp .black z a u⟩ :: path) := by
    intro y'
    rw [plug, plug, Frame.attach, Frame.attach, RbTree.join_other]
  rw [hplace] at hM1 hr1
  refine Repaired.bind (paint_yields _ hM1 hr1 hy .black) fun T2 hM2 hr2 => ?_
  rw [← hplace] at hM2 hr2
  refine Repaired.bind ?_ hf
  have hpaint := paint_yields path hM2 hr2 (RbTree.join_ne_nil _ _ _ _ _) .red
  rwa [Frame.attach, addr_join, RbTree.paint_join] at hpaint

/-- The inner grandchild is turned outwards first. -/
theorem repaired_inner {s : Side} {u y : RbTree (Ptr × κ)} {a b : Ptr × κ} {n : ℕ}
    (hM : Models T.nodes (shape sn (plug z (⟨s.other, .red, a, u⟩ :: ⟨s, .black, b, y⟩ :: path)) rest))
    (hroot : T.root = addr (plug z (⟨s.other, .red, a, u⟩ :: ⟨s, .black, b, y⟩ :: path))) (hsn : sn.color = .black)
    (hz : Balanced z .red n) (hu : Balanced u .black n) (hy : Balanced y .black n)
    (hpath : BalancedPath path .black (n + 1)) (fuel : ℕ) :
    Repaired T (T.rotate s a.1 >>= fun T => T.insertRotate s a.1 >>= fun T => T.rbInsertFixup (fuel + 1) a.1) sn
      (plug z (⟨s.other, .red, a, u⟩ :: ⟨s, .black, b, y⟩ :: path)).toList rest := by
  rcases RbTree.exists_join s hz.ne_nil_of_red with ⟨v, e, w, hjoin⟩
  rw [hz.color_eq] at hjoin
  have hparts : Balanced v .black n ∧ Balanced w .black n := by
    rw [hjoin] at hz
    exact hz.of_join_red
  have hturn : plug z (⟨s.other, .red, a, u⟩ :: ⟨s, .black, b, y⟩ :: path) =
      plug (.join s .red u a (.join s .red v e w)) (⟨s, .black, b, y⟩ :: path) := by
    rw [plug, Frame.attach, RbTree.join_other, ← hjoin]
  have hlist : (plug z (⟨s.other, .red, a, u⟩ :: ⟨s, .black, b, y⟩ :: path)).toList =
      (plug (.join s .red u a v) (⟨s, .red, e, w⟩ :: ⟨s, .black, b, y⟩ :: path)).toList := by
    rw [hturn]
    exact (toList_plug_congr (RbTree.toList_rotate _ _ _ _ _ _ _ _ _ _) _).symm
  rw [hturn] at hM hroot
  rw [hlist]
  refine Repaired.bind (rotate_yields s hM hroot) fun T1 hM1 hr1 => ?_
  have hrotated := repaired_rotate (z := .join s .red u a v) hM1 hr1 hsn (hu.join_red s a hparts.1) hparts.2 hy
    hpath fuel
  rwa [addr_join] at hrotated

theorem rbInsertFixup_repaired (hsn : sn.color = .black) {n : ℕ} (hM : Models T.nodes (shape sn (plug z path) rest))
    (hroot : T.root = addr (plug z path)) (hz : Balanced z .red n) (hpath : BalancedPath path .black n) {fuel : ℕ}
    (hfuel : path.length < fuel) :
    Repaired T (T.rbInsertFixup fuel (addr z)) sn (plug z path).toList rest := by
  induction fuel generalizing T z path n with
  | zero => exact absurd hfuel (Nat.not_lt_zero _)
  | succ fuel ih =>
      by_cases htop : (path.head?.map Frame.color).getD .black = .black
      · exact repaired_exit hM hroot hsn htop hz hpath fuel
      -- the parent is red, so there is a black grandparent
      cases path with
      | nil => exact absurd rfl htop
      | cons p path =>
          rcases p with ⟨sp, cp, a, u⟩
          cases cp with
          | black => exact absurd rfl htop
          | red =>
              have hparent := hpath.of_parent_red
              rcases hparent.2.exists_cons_of_red with ⟨g, path', rfl, hblack, hy, hpath'⟩
              rcases g with ⟨s, cg, b, y⟩
              obtain rfl : cg = .black := hblack
              have hup : T.parent (addr z) = some a.1 := parent_at _ hM hz.ne_nil_of_red
              have hcolor : T.color a.1 = some .red := color_top hM hsn
              have hgrand : T.parent a.1 = some b.1 := by
                have hparent := parent_at (⟨s, .black, b, y⟩ :: path') hM (RbTree.join_ne_nil _ _ _ _ _)
                rwa [Frame.attach, addr_join] at hparent
              have hside : T.sideOf a.1 b.1 = some s := by
                have hplace := sideOf_at (t := Frame.attach ⟨sp, .red, a, u⟩ z) (f := ⟨s, .black, b, y⟩) path' hM
                  (Or.inl (RbTree.join_ne_nil _ _ _ _ _))
                rwa [Frame.attach, addr_join] at hplace
              have huncle : T.child s.other b.1 = some (addr y) := child_other_at path' hM
              have hcuncle : T.color (addr y) = some y.color := by
                have hfocus : Models T.nodes (shape sn (plug y (⟨s.other, .black, b, .join sp .red z a u⟩ :: path')) rest) := by
                  rwa [plug, Frame.attach, RbTree.join_other]
                exact color_at _ hfocus hsn
              rw [rbInsertFixup]
              refine repaired_read hup (repaired_read hcolor ?_)
              rw [if_pos rfl]
              refine repaired_read hgrand (repaired_read hside (repaired_read huncle (repaired_read hcuncle ?_)))
              by_cases hred : y.color = .red
              · rw [if_pos hred]
                rw [hred] at hy
                have hlist : (plug z (⟨sp, .red, a, u⟩ :: ⟨s, .black, b, y⟩ :: path')).toList =
                    (plug (.join s .red (.join sp .black z a u) b (y.paint .black)) path').toList := by
                  simp only [plug, Frame.attach]
                  refine toList_plug_congr (RbTree.toList_join_congr _ _ _ ?_ (RbTree.toList_paint _ _).symm) _
                  exact RbTree.toList_join_congr _ _ _ rfl rfl
                rw [hlist]
                refine repaired_recolor hM hroot hy.ne_nil_of_red fun T' hM' hr' => ?_
                have hloop := ih hM' hr' ((hz.join_black sp a hparent.1).join_red s b hy.paint_black) hpath'
                  (by simp only [List.length_cons] at hfuel; omega)
                rwa [addr_join] at hloop
              · rw [if_neg hred]
                rw [show y.color = .black by cases hc : y.color <;> simp_all] at hy
                -- the round after the rotation
                obtain ⟨fuel, rfl⟩ : ∃ k, fuel = k + 1 := ⟨fuel - 1, by simp only [List.length_cons] at hfuel; omega⟩
                rcases Side.eq_or_eq_other s sp with rfl | rfl
                · have hchild : T.child sp.other a.1 = some (addr u) :=
                    child_other_at (⟨sp, .black, b, y⟩ :: path') hM
                  refine repaired_read hchild ?_
                  rw [if_neg (addr_ne_sibling hM (Or.inl hz.ne_nil_of_red))]
                  exact repaired_rotate hM hroot hsn hz hparent.1 hy hpath' fuel
                · have hchild : T.child s.other a.1 = some (addr z) :=
                    child_at (⟨s, .black, b, y⟩ :: path') hM
                  refine repaired_read hchild ?_
                  rw [if_pos rfl]
                  exact repaired_inner hM hroot hsn hz hparent.1 hy hpath' fuel

end RbtTree

end SsrNative
