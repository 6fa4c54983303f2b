import SsrNative.Lib.RedBlackTree

/-!
# RbTree — the red-black tree of the container library

The functions of `rb-tree.c` with the pointers that they follow and write.  A missing child and the parent of
the root point to the sentinel, which is a node inside of the tree record; its parent pointer is written
while a node is taken out.  There is no result when memory is touched that is not a node, when an assertion
fails, and when the steps that a loop or a recursion may take are used up.

`__left_rotate` and `__right_rotate`, and the two halves of each repair loop, are mirror images of each other.
They are one definition with the side as an argument.
-/

namespace SsrNative

open Lib.RedBlackTree

abbrev Ptr := ℕ

abbrev RbtColor := Color

/-- `struct rbt_node`.  The sentinel has no key. -/
structure RbtNode (κ : Type) where
  left : Ptr
  right : Ptr
  parent : Ptr
  color : RbtColor
  key : Option κ

inductive RbtStatus where
  | success
  | memoryOut
  | keyDuplicate
  | keyNotExist
  deriving DecidableEq, Repr

/-- `struct rbt_tree`, the nodes that are allocated, and the keys that `node_destruct` was called with. -/
structure RbtTree (κ : Type) where
  root : Ptr
  nodes : Ptr → Option (RbtNode κ)
  allowDup : Bool
  destructed : List κ

variable {κ : Type}

namespace RbtNode

def child (s : Side) (n : RbtNode κ) : Ptr :=
  match s with
  | .left => n.left
  | .right => n.right

def setChild (s : Side) (p : Ptr) (n : RbtNode κ) : RbtNode κ :=
  match s with
  | .left => { n with left := p }
  | .right => { n with right := p }

def setParent (p : Ptr) (n : RbtNode κ) : RbtNode κ := { n with parent := p }

def setColor (c : RbtColor) (n : RbtNode κ) : RbtNode κ := { n with color := c }

end RbtNode

namespace RbtTree

/-- The address of the sentinel. -/
def nil : Ptr := 0

/-! ## Access to a node -/

def child (T : RbtTree κ) (s : Side) (p : Ptr) : Option Ptr := (T.nodes p).map (RbtNode.child s)

def parent (T : RbtTree κ) (p : Ptr) : Option Ptr := (T.nodes p).map RbtNode.parent

def color (T : RbtTree κ) (p : Ptr) : Option RbtColor := (T.nodes p).map RbtNode.color

def key (T : RbtTree κ) (p : Ptr) : Option κ := (T.nodes p).bind RbtNode.key

/-- `rbt_node_get_key`: the sentinel has none. -/
def rbtNodeGetKey (T : RbtTree κ) (p : Ptr) : Option (Option κ) :=
  if p = nil then some none else (T.nodes p).map RbtNode.key

/-- A node is changed in place. -/
def write (T : RbtTree κ) (p : Ptr) (f : RbtNode κ → RbtNode κ) : Option (RbtTree κ) :=
  (T.nodes p).map fun n => { T with nodes := Function.update T.nodes p (some (f n)) }

def setChild (T : RbtTree κ) (s : Side) (p q : Ptr) : Option (RbtTree κ) := T.write p (RbtNode.setChild s q)

def setParent (T : RbtTree κ) (p q : Ptr) : Option (RbtTree κ) := T.write p (RbtNode.setParent q)

def setColor (T : RbtTree κ) (p : Ptr) (c : RbtColor) : Option (RbtTree κ) := T.write p (RbtNode.setColor c)

/-- The side on which `p` hangs below `q`, as the code asks for it: everything that is not the left child is
taken for the right one. -/
def sideOf (T : RbtTree κ) (p q : Ptr) : Option Side := do
  let l ← T.child .left q
  return if p = l then .left else .right

/-- `v` takes the place of `u` below the parent `p` of `u`; the side `s` is looked at first. -/
def relink (T : RbtTree κ) (s : Side) (u p v : Ptr) : Option (RbtTree κ) :=
  if p = nil then
    some { T with root := v }
  else do
    let c ← T.child s p
    T.setChild (if u = c then s else s.other) p v

/-! ## Rotations -/

/-- `__left_rotate` and `__right_rotate`: the child of `x` on the other side goes up. -/
def rotate (T : RbtTree κ) (s : Side) (x : Ptr) : Option (RbtTree κ) := do
  let y ← T.child s.other x
  let b ← T.child s y
  let T ← T.setChild s.other x b
  let T ← (if b = nil then some T else T.setParent b x)
  let p ← T.parent x
  let T ← T.setParent y p
  let T ← T.relink s x p y
  let T ← T.setChild s y x
  T.setParent x y

def leftRotate (T : RbtTree κ) (x : Ptr) : Option (RbtTree κ) := T.rotate .left x

def rightRotate (T : RbtTree κ) (x : Ptr) : Option (RbtTree κ) := T.rotate .right x

/-- `rbt_tree_create` -/
def rbtTreeCreate (allowDup : Bool) : RbtTree κ where
  root := nil
  nodes := fun p => if p = nil then some ⟨nil, nil, nil, .black, none⟩ else none
  allowDup := allowDup
  destructed := []

/-! ## Search -/

/-- The loop of `rbt_tree_find`. -/
def findLoop (compare : κ → κ → ℤ) (T : RbtTree κ) (key : κ) : ℕ → Ptr → Option Ptr
  | 0, _ => none
  | fuel + 1, x =>
    if x = nil then
      some x
    else do
      let k ← T.key x
      if compare key k = 0 then
        return x
      else
        let next ← T.child (if compare key k < 0 then .left else .right) x
        findLoop compare T key fuel next

/-- `rbt_tree_find` -/
def rbtTreeFind (compare : κ → κ → ℤ) (fuel : ℕ) (T : RbtTree κ) (key : κ) : Option Ptr :=
  findLoop compare T key fuel T.root

/-- `__tree_minimum` -/
def treeMinimum (T : RbtTree κ) : ℕ → Ptr → Option Ptr
  | 0, _ => none
  | fuel + 1, x => do
    let l ← T.child .left x
    if l = nil then
      return x
    else
      treeMinimum T fuel l

/-- The loop of `__tree_maximum`. -/
def maximumLoop (T : RbtTree κ) : ℕ → Ptr → Option Ptr
  | 0, _ => none
  | fuel + 1, x => do
    let r ← T.child .right x
    if r = nil then
      return x
    else
      maximumLoop T fuel r

/-- `__tree_maximum` -/
def treeMaximum (T : RbtTree κ) (fuel : ℕ) (x : Ptr) : Option Ptr :=
  if x = nil then some x else T.maximumLoop fuel x

/-- The way up in `rbt_tree_successor`: from a right child to its parent. -/
def successorUp (T : RbtTree κ) : ℕ → Ptr → Ptr → Option Ptr
  | 0, _, _ => none
  | fuel + 1, x, y =>
    if y = nil then
      some y
    else do
      let r ← T.child .right y
      if x = r then
        let y' ← T.parent y
        successorUp T fuel y y'
      else
        return y

/-- `rbt_tree_successor` -/
def rbtTreeSuccessor (fuel : ℕ) (T : RbtTree κ) (x : Ptr) : Option Ptr := do
  let r ← T.child .right x
  if r ≠ nil then
    T.treeMinimum fuel r
  else
    let last ← T.treeMaximum fuel T.root
    if x = last then
      return nil
    else
      let y ← T.parent x
      T.successorUp fuel x y

/-! ## Insertion -/

/-- The way down in `__rb_insert`; `y` is the node above `x`. -/
def insertDescend (compare : κ → κ → ℤ) (T : RbtTree κ) (key : κ) : ℕ → Ptr → Ptr → Option Ptr
  | 0, _, _ => none
  | fuel + 1, y, x =>
    if x = nil then
      some y
    else do
      let k ← T.key x
      let next ← T.child (if compare key k < 0 then .left else .right) x
      insertDescend compare T key fuel x next

/-- The last rotation of `__rb_insert_fixup`, below a grandparent whose child on the side `s` is the parent. -/
def insertRotate (T : RbtTree κ) (s : Side) (z : Ptr) : Option (RbtTree κ) := do
  let p ← T.parent z
  let T ← T.setColor p .black
  let p ← T.parent z
  let g ← T.parent p
  let T ← T.setColor g .red
  let p ← T.parent z
  let g ← T.parent p
  T.rotate s.other g

/-- `__rb_insert_fixup` -/
def rbInsertFixup : ℕ → RbtTree κ → Ptr → Option (RbtTree κ)
  | 0, _, _ => none
  | fuel + 1, T, z => do
    let p ← T.parent z
    let cp ← T.color p
    if cp = .red then
      let g ← T.parent p
      let s ← T.sideOf p g
      let y ← T.child s.other g
      let cy ← T.color y
      if cy = .red then
        let T ← T.setColor p .black
        let T ← T.setColor y .black
        let T ← T.setColor g .red
        rbInsertFixup fuel T g
      else
        let c ← T.child s.other p
        if z = c then
          let T ← T.rotate s p
          let T ← T.insertRotate s p
          rbInsertFixup fuel T p
        else
          let T ← T.insertRotate s z
          rbInsertFixup fuel T z
    else
      T.setColor T.root .black

/-- `_create_node`; `mem` is what the allocator answers. -/
def createNode (T : RbtTree κ) (key : κ) (mem : Ptr) : RbtTree κ :=
  { T with nodes := Function.update T.nodes mem (some ⟨nil, nil, nil, .red, some key⟩) }

/-- `__rb_insert` -/
def rbInsert (compare : κ → κ → ℤ) (fuel : ℕ) (T : RbtTree κ) (z : Ptr) : Option (RbtTree κ) := do
  let kz ← T.key z
  let y ← T.insertDescend compare kz fuel nil T.root
  let T ← T.setParent z y
  let T ← (if y = nil then
      some { T with root := z }
    else do
      let ky ← T.key y
      T.setChild (if compare kz ky < 0 then .left else .right) y z)
  let T ← T.setChild .left z nil
  let T ← T.setChild .right z nil
  let T ← T.setColor z .red
  rbInsertFixup fuel T z

/-! ## The checks of a debug build -/

/-- `debug_verify_property_1`: the recursion reaches every node. -/
def debugVerifyProperty1 (T : RbtTree κ) : ℕ → Ptr → Option Unit
  | 0, _ => none
  | fuel + 1, n =>
    if n = nil then
      some ()
    else do
      let c ← T.color n
      guard (c = .red ∨ c = .black)
      debugVerifyProperty1 T fuel (← T.child .left n)
      debugVerifyProperty1 T fuel (← T.child .right n)

/-- `debug_node_color` -/
def debugNodeColor (T : RbtTree κ) (n : Ptr) : Option RbtColor :=
  if n = nil then some .black else T.color n

/-- `debug_verify_property_2` -/
def debugVerifyProperty2 (T : RbtTree κ) (root : Ptr) : Option Unit := do
  let c ← T.debugNodeColor root
  guard (c = .black)

/-- What `debug_verify_property_4` asks of one node. -/
def debugVerifyRed (T : RbtTree κ) (n : Ptr) : Option Unit := do
  let c ← T.debugNodeColor n
  if c = .red then
    let cl ← T.debugNodeColor (← T.child .left n)
    guard (cl = .black)
    let cr ← T.debugNodeColor (← T.child .right n)
    guard (cr = .black)
    let cp ← T.debugNodeColor (← T.parent n)
    guard (cp = .black)
  else
    return ()

/-- `debug_verify_property_4` -/
def debugVerifyProperty4 (T : RbtTree κ) : ℕ → Ptr → Option Unit
  | 0, _ => none
  | fuel + 1, n => do
    T.debugVerifyRed n
    if n = nil then
      return ()
    else
      debugVerifyProperty4 T fuel (← T.child .left n)
      debugVerifyProperty4 T fuel (← T.child .right n)

/-- `debug_verify_property_5_helper`; a count of -1 is `none`. -/
def debugVerifyProperty5Helper (T : RbtTree κ) : ℕ → Ptr → ℕ → Option ℕ → Option (Option ℕ)
  | 0, _, _, _ => none
  | fuel + 1, n, blackCount, pathCount => do
    let c ← T.debugNodeColor n
    let blackCount := if c = .black then blackCount + 1 else blackCount
    if n = nil then
      if pathCount = none then
        return some blackCount
      else
        guard (pathCount = some blackCount)
        return pathCount
    else
      let pathCount ← debugVerifyProperty5Helper T fuel (← T.child .left n) blackCount pathCount
      debugVerifyProperty5Helper T fuel (← T.child .right n) blackCount pathCount

/-- `debug_verify_properties` -/
def debugVerifyProperties (fuel : ℕ) (T : RbtTree κ) : Option Unit := do
  T.debugVerifyProperty1 fuel T.root
  T.debugVerifyProperty2 T.root
  T.debugVerifyProperty4 fuel T.root
  let _ ← T.debugVerifyProperty5Helper fuel T.root 0 none
  return ()

/-- `rbt_tree_insert`; the allocator answers `mem`.  The properties are verified as in a debug build.  The
status for no memory is that of a release build; in the other one `_create_node` asserts that there is. -/
def rbtTreeInsert (compare : κ → κ → ℤ) (fuel : ℕ) (T : RbtTree κ) (key : κ) (mem : Option Ptr) :
    Option (RbtTree κ × RbtStatus) := do
  let x ← (if T.allowDup then some nil else T.rbtTreeFind compare fuel key)
  if x ≠ nil then
    return (T, .keyDuplicate)
  else
    match mem with
    | none => return (T, .memoryOut)
    | some z => do
      let T ← (T.createNode key z).rbInsert compare fuel z
      T.debugVerifyProperties fuel
      return (T, .success)

/-! ## Removal -/

/-- The case of a red sibling in `__rb_delete_fixup`. -/
def deleteRedSibling (T : RbtTree κ) (s : Side) (x w : Ptr) : Option (RbtTree κ) := do
  let cw ← T.color w
  if cw = .red then
    let T ← T.setColor w .black
    let p ← T.parent x
    let T ← T.setColor p .red
    let p ← T.parent x
    T.rotate s p
  else
    return T

/-- The case of a black far nephew in `__rb_delete_fixup`. -/
def deleteInner (T : RbtTree κ) (s : Side) (w : Ptr) : Option (RbtTree κ) := do
  let far ← T.child s.other w
  let cfar ← T.color far
  if cfar = .black then
    let near ← T.child s w
    let T ← T.setColor near .black
    let T ← T.setColor w .red
    T.rotate s.other w
  else
    return T

/-- The last rotation of `__rb_delete_fixup`. -/
def deleteOuter (T : RbtTree κ) (s : Side) (x : Ptr) : Option (RbtTree κ) := do
  let p ← T.parent x
  let w ← T.child s.other p
  let cp ← T.color p
  let T ← T.setColor w cp
  let T ← T.setColor p .black
  let far ← T.child s.other w
  let T ← T.setColor far .black
  let p ← T.parent x
  T.rotate s p

/-- `__rb_delete_fixup` -/
def rbDeleteFixup : ℕ → RbtTree κ → Ptr → Option (RbtTree κ)
  | 0, _, _ => none
  | fuel + 1, T, x => do
    let cx ← T.color x
    if x ≠ T.root ∧ cx = .black then
      let p ← T.parent x
      let s ← T.sideOf x p
      let w ← T.child s.other p
      let T ← T.deleteRedSibling s x w
      let p ← T.parent x
      let w ← T.child s.other p
      let cnear ← T.color (← T.child s w)
      let cfar ← T.color (← T.child s.other w)
      if cnear = .black ∧ cfar = .black then
        let T ← T.setColor w .red
        rbDeleteFixup fuel T p
      else
        let T ← T.deleteInner s w
        let T ← T.deleteOuter s x
        rbDeleteFixup fuel T T.root
    else
      T.setColor x .black

/-- `__rb_transplant` -/
def rbTransplant (T : RbtTree κ) (u v : Ptr) : Option (RbtTree κ) := do
  let p ← T.parent u
  let T ← T.relink .left u p v
  let p ← T.parent u
  T.setParent v p

/-- In `__rb_delete`, the next node `y` leaves its place, where `x` follows it, and gets the right side of `z`. -/
def detachMinimum (T : RbtTree κ) (z y x : Ptr) : Option (RbtTree κ) := do
  let p ← T.parent y
  if p = z then
    T.setParent x y
  else
    let r ← T.child .right y
    let T ← T.rbTransplant y r
    let r ← T.child .right z
    let T ← T.setChild .right y r
    let r ← T.child .right y
    T.setParent r y

/-- In `__rb_delete`, `y` takes the place of `z`, its left side and its colour. -/
def replaceNode (T : RbtTree κ) (z y : Ptr) : Option (RbtTree κ) := do
  let T ← T.rbTransplant z y
  let l ← T.child .left z
  let T ← T.setChild .left y l
  let l ← T.child .left y
  let T ← T.setParent l y
  let c ← T.color z
  T.setColor y c

/-- `__rb_delete` -/
def rbDelete (fuel : ℕ) (T : RbtTree κ) (z : Ptr) : Option (RbtTree κ) := do
  let l ← T.child .left z
  let r ← T.child .right z
  let cz ← T.color z
  if l = nil then
    let T ← T.rbTransplant z r
    if cz = .black then T.rbDeleteFixup fuel r else return T
  else if r = nil then
    let T ← T.rbTransplant z l
    if cz = .black then T.rbDeleteFixup fuel l else return T
  else
    let y ← T.treeMinimum fuel r
    let cy ← T.color y
    let x ← T.child .right y
    let T ← T.detachMinimum z y x
    let T ← T.replaceNode z y
    if cy = .black then T.rbDeleteFixup fuel x else return T

/-- `_node_destroy`; `_do_node_destruct` asserts that the node is not the sentinel. -/
def nodeDestroy (T : RbtTree κ) (node : Ptr) : Option (RbtTree κ) := do
  guard (node ≠ nil)
  let k ← T.key node
  return { T with
    nodes := Function.update T.nodes node none
    destructed := T.destructed ++ [k] }

/-- `rbt_tree_remove_node` -/
def rbtTreeRemoveNode (compare : κ → κ → ℤ) (fuel : ℕ) (T : RbtTree κ) (key : κ) :
    Option (RbtTree κ × RbtStatus) := do
  let z ← T.rbtTreeFind compare fuel key
  if z = nil then
    return (T, .keyNotExist)
  else
    let T ← T.rbDelete fuel z
    let T ← T.nodeDestroy z
    T.debugVerifyProperties fuel
    return (T, .success)

/-! ## Destruction -/

/-- In `rbt_tree_destroy`, the child of `z` that is a leaf is given back, the left one first. -/
def destroyChild (T : RbtTree κ) (z : Ptr) : Option (RbtTree κ) := do
  let l ← T.child .left z
  if l ≠ nil then
    let T ← T.nodeDestroy l
    T.setChild .left z nil
  else
    let r ← T.child .right z
    if r ≠ nil then
      let T ← T.nodeDestroy r
      T.setChild .right z nil
    else
      return T

/-- The loop of `rbt_tree_destroy`; the root pointer still holds the address of the node that was the root. -/
def destroyLoop : ℕ → RbtTree κ → Ptr → Option (RbtTree κ)
  | 0, _, _ => none
  | fuel + 1, T, z =>
    if z = nil then
      some T
    else do
      let l ← T.child .left z
      let r ← T.child .right z
      if l ≠ nil then
        destroyLoop fuel T l
      else if r ≠ nil then
        destroyLoop fuel T r
      else
        let p ← T.parent z
        if p ≠ nil then
          let T ← T.destroyChild p
          destroyLoop fuel T p
        else
          let T ← T.nodeDestroy z
          destroyLoop fuel T nil

/-- `rbt_tree_destroy`, up to the release of the tree record with the sentinel. -/
def rbtTreeDestroy (fuel : ℕ) (T : RbtTree κ) : Option (RbtTree κ) := T.destroyLoop fuel T.root

end RbtTree

end SsrNative
