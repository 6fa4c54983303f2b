import Mathlib.Data.List.Basic
import Mathlib.Data.Nat.Log
import Mathlib.Tactic.Common
import Mathlib.Tactic.Ring

/-!
# RedBlackTree — red-black trees seen from a place inside

A place in a tree is the subtree there and the path up to the root, nearest ancestor first.  Repair after an
insertion or a removal walks up such a path; the lemmas here say what a subtree may be at a place
(`BalancedPath`) and which local changes keep the tree balanced.  The two sides of a node are mirror images,
and everything is said of a side `s` and its other side.
-/

namespace SsrNative
namespace Lib
namespace RedBlackTree

inductive Side where
  | left
  | right
  deriving DecidableEq, Repr

def Side.other : Side → Side
  | .left => .right
  | .right => .left

@[simp] theorem Side.other_other (s : Side) : s.other.other = s := by cases s <;> rfl

@[simp] theorem Side.other_ne (s : Side) : s.other ≠ s := by cases s <;> decide

theorem Side.eq_or_eq_other (s s' : Side) : s' = s ∨ s' = s.other := by cases s <;> cases s' <;> decide

inductive Color where
  | red
  | black
  deriving DecidableEq, Repr

inductive RbTree (α : Type*) where
  | nil : RbTree α
  | node (color : Color) (l : RbTree α) (a : α) (r : RbTree α) : RbTree α

variable {α : Type*}

namespace RbTree

/-- The node whose child on the side `s` is `near`. -/
def join (s : Side) (c : Color) (near : RbTree α) (a : α) (far : RbTree α) : RbTree α :=
  match s with
  | .left => node c near a far
  | .right => node c far a near

theorem join_other (s : Side) (c : Color) (near : RbTree α) (a : α) (far : RbTree α) :
    join s.other c near a far = join s c far a near := by
  cases s <;> rfl

/-- A missing node counts as black. -/
def color : RbTree α → Color
  | nil => .black
  | node c _ _ _ => c

def paint (c : Color) : RbTree α → RbTree α
  | nil => nil
  | node _ l a r => node c l a r

@[simp] theorem color_join (s : Side) (c : Color) (near : RbTree α) (a : α) (far : RbTree α) :
    (join s c near a far).color = c := by
  cases s <;> rfl

@[simp] theorem paint_join (s : Side) (c c' : Color) (near : RbTree α) (a : α) (far : RbTree α) :
    (join s c near a far).paint c' = join s c' near a far := by
  cases s <;> rfl

theorem join_ne_nil (s : Side) (c : Color) (near : RbTree α) (a : α) (far : RbTree α) : join s c near a far ≠ nil := by
  cases s <;> simp [join]

theorem node_ne_nil (c : Color) (l : RbTree α) (a : α) (r : RbTree α) : node c l a r ≠ nil := by
  intro h
  cases h

theorem exists_join (s : Side) {t : RbTree α} (h : t ≠ nil) : ∃ near a far, t = join s t.color near a far := by
  cases t with
  | nil => exact absurd rfl h
  | node c l a r =>
      cases s with
      | left => exact ⟨l, a, r, rfl⟩
      | right => exact ⟨r, a, l, rfl⟩

/-! ## In-order lists -/

def toList : RbTree α → List α
  | nil => []
  | node _ l a r => l.toList ++ a :: r.toList

@[simp] theorem toList_nil : (nil : RbTree α).toList = [] := rfl

@[simp] theorem toList_node (c : Color) (l : RbTree α) (a : α) (r : RbTree α) :
    (node c l a r).toList = l.toList ++ a :: r.toList := rfl

@[simp] theorem toList_paint (c : Color) (t : RbTree α) : (t.paint c).toList = t.toList := by cases t <;> rfl

@[simp] theorem toList_eq_nil {t : RbTree α} : t.toList = [] ↔ t = nil := by
  cases t <;> simp

/-- Both ways to nest two nodes that a rotation turns into each other. -/
theorem toList_rotate (s : Side) (c c' d d' : Color) (x y z : RbTree α) (a b : α) :
    (join s d (join s d' x a y) b z).toList = (join s c x a (join s c' y b z)).toList := by
  cases s <;> simp [join]

theorem toList_join_congr {s : Side} (c c' : Color) {near near' : RbTree α} (a : α) {far far' : RbTree α}
    (hnear : near.toList = near'.toList) (hfar : far.toList = far'.toList) :
    (join s c near a far).toList = (join s c' near' a far').toList := by
  cases s <;> simp [join, hnear, hfar]

end RbTree

open RbTree

/-! ## Places -/

/-- An ancestor: the side on which the place hangs, and what is not on the way. -/
structure Frame (α : Type*) where
  side : Side
  color : Color
  elem : α
  sibling : RbTree α

namespace Frame

def attach (f : Frame α) (t : RbTree α) : RbTree α := join f.side f.color t f.elem f.sibling

/-- The elements in front of the place that the ancestor contributes. -/
def before (f : Frame α) : List α :=
  match f.side with
  | .left => []
  | .right => f.sibling.toList ++ [f.elem]

def after (f : Frame α) : List α :=
  match f.side with
  | .left => f.elem :: f.sibling.toList
  | .right => []

theorem toList_attach (f : Frame α) (t : RbTree α) : (f.attach t).toList = f.before ++ t.toList ++ f.after := by
  rcases f with ⟨s, c, a, t'⟩
  cases s <;> simp [attach, join, before, after]

end Frame

/-- The whole tree. -/
def plug : RbTree α → List (Frame α) → RbTree α
  | t, [] => t
  | t, f :: path => plug (f.attach t) path

def before : List (Frame α) → List α
  | [] => []
  | f :: path => before path ++ f.before

def after : List (Frame α) → List α
  | [] => []
  | f :: path => f.after ++ after path

theorem toList_plug (t : RbTree α) (path : List (Frame α)) :
    (plug t path).toList = before path ++ t.toList ++ after path := by
  induction path generalizing t with
  | nil => simp [plug, before, after]
  | cons f path ih =>
      rw [plug, ih, Frame.toList_attach]
      simp [before, after]

theorem plug_append (t : RbTree α) (path path' : List (Frame α)) :
    plug t (path ++ path') = plug (plug t path) path' := by
  induction path generalizing t with
  | nil => rfl
  | cons f path ih => exact ih (f.attach t)

theorem before_append (path path' : List (Frame α)) : before (path ++ path') = before path' ++ before path := by
  induction path with
  | nil => simp [before]
  | cons f path ih => simp [before, ih]

theorem after_append (path path' : List (Frame α)) : after (path ++ path') = after path ++ after path' := by
  induction path with
  | nil => simp [after]
  | cons f path ih => simp [after, ih]

theorem toList_plug_congr {t t' : RbTree α} (h : t.toList = t'.toList) (path : List (Frame α)) :
    (plug t path).toList = (plug t' path).toList := by
  rw [toList_plug, toList_plug, h]

theorem length_add_le (t : RbTree α) (path : List (Frame α)) :
    path.length + t.toList.length ≤ (plug t path).toList.length := by
  induction path generalizing t with
  | nil => exact (Nat.zero_add _).le
  | cons f path ih =>
      have hattach : t.toList.length + 1 ≤ (f.attach t).toList.length := by
        rcases f with ⟨s, c, a, t'⟩
        cases s <;> simp [Frame.attach, join]
      calc path.length + 1 + t.toList.length ≤ path.length + (f.attach t).toList.length := by omega
        _ ≤ (plug t (f :: path)).toList.length := ih _

/-- Every element has a place. -/
theorem exists_place {t : RbTree α} {pre post : List α} {a : α} (h : t.toList = pre ++ a :: post)
    (path : List (Frame α)) :
    ∃ c l r path', plug (node c l a r) path' = plug t path ∧
      before path' ++ l.toList = before path ++ pre ∧ r.toList ++ after path' = post ++ after path := by
  induction t generalizing pre post path with
  | nil => simp at h
  | node c l b r ihl ihr =>
      rw [toList_node, List.append_eq_append_iff] at h
      rcases h with ⟨rest, hpre, hpost⟩ | ⟨rest, hl, hrest⟩
      · cases rest with
        | nil =>
            obtain ⟨rfl, rfl⟩ := List.cons_eq_cons.1 hpost
            refine ⟨c, l, r, path, rfl, ?_, rfl⟩
            rw [hpre, List.append_nil]
        | cons b' rest =>
            obtain ⟨rfl, hr⟩ := List.cons_eq_cons.1 hpost
            rcases ihr hr (⟨.right, c, b, l⟩ :: path) with ⟨c', l', r', path', hplug, hbefore, hafter⟩
            refine ⟨c', l', r', path', hplug, ?_, ?_⟩
            · rw [hbefore, hpre]
              simp [before, Frame.before]
            · rw [hafter]
              simp [after, Frame.after]
      · cases rest with
        | nil =>
            obtain ⟨rfl, rfl⟩ := List.cons_eq_cons.1 hrest
            refine ⟨c, l, r, path, rfl, ?_, rfl⟩
            rw [hl, List.append_nil]
        | cons a' rest =>
            obtain ⟨rfl, hr⟩ := List.cons_eq_cons.1 hrest
            rcases ihl hl (⟨.left, c, b, r⟩ :: path) with ⟨c', l', r', path', hplug, hbefore, hafter⟩
            refine ⟨c', l', r', path', hplug, ?_, ?_⟩
            · rw [hbefore]
              simp [before, Frame.before]
            · rw [hafter, hr]
              simp [after, Frame.after]

/-! ## Height -/

def height : RbTree α → ℕ
  | nil => 0
  | node _ l _ r => max (height l) (height r) + 1

theorem height_lt_join (s : Side) (c : Color) (near : RbTree α) (a : α) (far : RbTree α) :
    height near < height (join s c near a far) := by
  cases s
  · exact Nat.lt_succ_of_le (le_max_left _ _)
  · exact Nat.lt_succ_of_le (le_max_right _ _)

theorem height_add_length_le (t : RbTree α) (path : List (Frame α)) :
    height t + path.length ≤ height (plug t path) := by
  induction path generalizing t with
  | nil => exact Nat.le_refl _
  | cons f path ih =>
      calc height t + (path.length + 1) = height t + 1 + path.length := by omega
        _ ≤ height (f.attach t) + path.length := Nat.add_le_add_right (height_lt_join _ _ _ _ _) _
        _ ≤ height (plug t (f :: path)) := ih _

/-! ## Balance -/

/-- `n` black nodes on every way down, and no red node has a red child. -/
inductive Balanced : RbTree α → Color → ℕ → Prop where
  | nil : Balanced RbTree.nil .black 0
  | red {l r : RbTree α} {a : α} {n : ℕ} :
      Balanced l .black n → Balanced r .black n → Balanced (node .red l a r) .red n
  | black {l r : RbTree α} {a : α} {c c' : Color} {n : ℕ} :
      Balanced l c n → Balanced r c' n → Balanced (node .black l a r) .black (n + 1)

namespace Balanced

variable {t near far : RbTree α} {a : α} {c c' : Color} {n : ℕ}

theorem color_eq (h : Balanced t c n) : t.color = c := by
  cases h <;> rfl

theorem self (h : Balanced t c n) : Balanced t t.color n := by rwa [h.color_eq]

theorem join_red (s : Side) (a : α) (hnear : Balanced near .black n) (hfar : Balanced far .black n) :
    Balanced (join s .red near a far) .red n := by
  cases s
  · exact .red hnear hfar
  · exact .red hfar hnear

theorem join_black (s : Side) (a : α) (hnear : Balanced near c n) (hfar : Balanced far c' n) :
    Balanced (join s .black near a far) .black (n + 1) := by
  cases s
  · exact .black hnear hfar
  · exact .black hfar hnear

theorem of_join_red {s : Side} (h : Balanced (join s .red near a far) c n) :
    Balanced near .black n ∧ Balanced far .black n := by
  cases s <;> cases h <;> exact ⟨by assumption, by assumption⟩

theorem of_join_black {s : Side} (h : Balanced (join s .black near a far) c n) :
    ∃ m, n = m + 1 ∧ Balanced near near.color m ∧ Balanced far far.color m := by
  cases s
  · rcases h with _ | _ | ⟨hl, hr⟩
    exact ⟨_, rfl, hl.self, hr.self⟩
  · rcases h with _ | _ | ⟨hl, hr⟩
    exact ⟨_, rfl, hr.self, hl.self⟩

theorem ne_nil_of_succ (h : Balanced t c (n + 1)) : t ≠ RbTree.nil := by
  rintro rfl
  cases h

theorem ne_nil_of_red (h : Balanced t .red n) : t ≠ RbTree.nil := by
  rintro rfl
  cases h

theorem paint_black (h : Balanced t .red n) : Balanced (t.paint .black) .black (n + 1) := by
  cases h with
  | red hl hr => exact .black hl hr

/-- The root may always be painted black. -/
theorem exists_paint_black (h : Balanced t c n) : ∃ m, Balanced (t.paint .black) .black m := by
  cases h with
  | nil => exact ⟨0, .nil⟩
  | red hl hr => exact ⟨_, .black hl hr⟩
  | black hl hr => exact ⟨_, .black hl hr⟩

theorem le_height (h : Balanced t c n) : height t ≤ 2 * n + if c = .red then 1 else 0 := by
  induction h with
  | nil => exact Nat.le_refl _
  | red _ _ ihl ihr => simpa [height] using ⟨ihl, ihr⟩
  | @black l r _ c c' n _ _ ihl ihr =>
      have hl : height l ≤ 2 * n + 1 := ihl.trans (Nat.add_le_add_left (by split_ifs <;> decide) _)
      have hr : height r ≤ 2 * n + 1 := ihr.trans (Nat.add_le_add_left (by split_ifs <;> decide) _)
      calc max (height l) (height r) + 1 ≤ 2 * n + 1 + 1 := Nat.succ_le_succ (max_le hl hr)
        _ = 2 * (n + 1) + 0 := by ring

theorem pow_le (h : Balanced t c n) : 2 ^ n ≤ t.toList.length + 1 := by
  induction h with
  | nil => exact Nat.le_refl _
  | red _ _ ihl _ =>
      rw [toList_node, List.length_append, List.length_cons]
      omega
  | black _ _ ihl ihr =>
      rw [toList_node, List.length_append, List.length_cons, pow_succ]
      omega

/-- A way down is at most twice as long as the shortest one. -/
theorem height_le_log (h : Balanced t .black n) : height t ≤ 2 * Nat.log 2 (t.toList.length + 1) := by
  have hlog : n ≤ Nat.log 2 (t.toList.length + 1) := Nat.le_log_of_pow_le (by decide) h.pow_le
  exact h.le_height.trans (Nat.mul_le_mul_left 2 hlog)

end Balanced

/-- A place at which a balanced tree of that colour and black height fits. -/
inductive BalancedPath : List (Frame α) → Color → ℕ → Prop where
  | root (n : ℕ) : BalancedPath [] .black n
  | red {s : Side} {a : α} {t : RbTree α} {n : ℕ} {path : List (Frame α)} :
      Balanced t .black n → BalancedPath path .red n → BalancedPath (⟨s, .red, a, t⟩ :: path) .black n
  | black {s : Side} {a : α} {t : RbTree α} {c c' : Color} {n : ℕ} {path : List (Frame α)} :
      Balanced t c' n → BalancedPath path .black (n + 1) → BalancedPath (⟨s, .black, a, t⟩ :: path) c n

namespace BalancedPath

variable {path : List (Frame α)} {c : Color} {n : ℕ}

theorem plug {t : RbTree α} (hpath : BalancedPath path c n) (h : Balanced t c n) :
    ∃ m, Balanced (plug t path) .black m := by
  induction hpath generalizing t with
  | root n => exact ⟨n, h⟩
  | red hsib _ ih => exact ih (h.join_red _ _ hsib)
  | black hsib _ ih => exact ih (h.join_black _ _ hsib)

theorem of_plug {t : RbTree α} {m : ℕ} (h : Balanced (RedBlackTree.plug t path) .black m) :
    ∃ c n, Balanced t c n ∧ BalancedPath path c n := by
  induction path generalizing t with
  | nil => exact ⟨.black, m, h, .root m⟩
  | cons f path ih =>
      rcases ih h with ⟨c, n, hnode, hpath⟩
      rcases f with ⟨s, cf, a, t'⟩
      have hcolor : cf = c := by simpa [Frame.attach] using hnode.color_eq
      subst hcolor
      cases cf with
      | red =>
          have hparts := Balanced.of_join_red hnode
          exact ⟨.black, n, hparts.1, .red hparts.2 hpath⟩
      | black =>
          rcases Balanced.of_join_black hnode with ⟨m, rfl, hnear, hfar⟩
          exact ⟨_, m, hnear, .black hfar hpath⟩

/-- Where a red tree fits, so does a black one. -/
theorem of_red (h : BalancedPath path .red n) : BalancedPath path .black n := by
  cases h with
  | black hsib hpath => exact .black hsib hpath

/-- Below a black node a tree of any colour fits. -/
theorem of_black_parent {f : Frame α} (hf : f.color = .black) (h : BalancedPath (f :: path) c n) (c' : Color) :
    BalancedPath (f :: path) c' n := by
  cases h with
  | red _ _ => cases hf
  | black hsib hpath => exact .black hsib hpath

/-- A red node is not the root, and its parent is black. -/
theorem exists_cons_of_red (h : BalancedPath path .red n) :
    ∃ f path', path = f :: path' ∧ f.color = .black ∧ Balanced f.sibling f.sibling.color n ∧
      BalancedPath path' .black (n + 1) := by
  cases h with
  | black hsib hpath => exact ⟨_, _, rfl, rfl, hsib.self, hpath⟩

theorem of_parent_red {s : Side} {a : α} {t : RbTree α} (h : BalancedPath (⟨s, .red, a, t⟩ :: path) c n) :
    Balanced t .black n ∧ BalancedPath path .red n := by
  cases h with
  | red hsib hpath => exact ⟨hsib, hpath⟩

theorem of_parent_black {s : Side} {a : α} {t : RbTree α} (h : BalancedPath (⟨s, .black, a, t⟩ :: path) c n) :
    Balanced t t.color n ∧ BalancedPath path .black (n + 1) := by
  cases h with
  | black hsib hpath => exact ⟨hsib.self, hpath⟩

/-- The elements on the way do not matter. -/
theorem replace_elem {way : List (Frame α)} {s : Side} {c' : Color} {a : α} {t : RbTree α}
    (h : BalancedPath (way ++ ⟨s, c', a, t⟩ :: path) c n) (b : α) :
    BalancedPath (way ++ ⟨s, c', b, t⟩ :: path) c n := by
  induction way generalizing c n with
  | nil =>
      cases h with
      | red hsib hpath => exact .red hsib hpath
      | black hsib hpath => exact .black hsib hpath
  | cons f way ih =>
      cases h with
      | red hsib hpath => exact .red hsib (ih hpath)
      | black hsib hpath => exact .black hsib (ih hpath)

end BalancedPath

end RedBlackTree
end Lib
end SsrNative
