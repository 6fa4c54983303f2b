import SsrNative.CstlSet

/-!
# CstlMap — the maps of the container library

A map is a red-black tree of items, which are compared by their keys.  An insertion and a removal set a flag, at which
`cstl_map_traverse` starts from the beginning again: a callback may take the current item out (`traverse_sweep`), as it
may not in a set.
-/

namespace SsrNative

open Lib Lib.RedBlackTree RbtTree

/-- `struct cstl_map_item`; the value is missing where none was given. -/
structure MapItem (κ ν : Type) where
  key : κ
  value : Option ν

structure CstlMap (κ ν : Type) where
  tree : RbtTree (MapItem κ ν)
  mapChanged : Bool

inductive CstlError where
  | success
  | keyDuplicate
  deriving DecidableEq, Repr

namespace CstlMap

variable {κ ν : Type}

/-! ## The functions -/

section Code

/-- `_item_compare` -/
def itemCompare (compare : κ → κ → ℤ) (lhs rhs : MapItem κ ν) : ℤ := compare lhs.key rhs.key

variable (compare : κ → κ → ℤ) (fuel : ℕ)

def cstlMapNew : CstlMap κ ν := ⟨rbtTreeCreate false, false⟩

def cstlMapIsKeyExists (M : CstlMap κ ν) (key : κ) : Option Bool := do
  let node ← M.tree.rbtTreeFind (itemCompare compare) fuel ⟨key, none⟩
  return node ≠ nil

/-- `cstl_map_insert`, with the assertion that the tree takes a new key. -/
def cstlMapInsert (M : CstlMap κ ν) (key : κ) (value : Option ν) (mem : Option Ptr) :
    Option (CstlMap κ ν × CstlError) := do
  let found ← M.cstlMapIsKeyExists compare fuel key
  if found then return (M, .keyDuplicate)
  else do
    let r ← M.tree.rbtTreeInsert (itemCompare compare) fuel ⟨key, value⟩ mem
    guard (r.2 = .success)
    return (⟨r.1, true⟩, .success)

def cstlMapRemove (M : CstlMap κ ν) (key : κ) : Option (CstlMap κ ν) := do
  let r ← M.tree.rbtTreeRemoveNode (itemCompare compare) fuel ⟨key, none⟩
  return ⟨r.1, M.mapChanged || r.2 = .success⟩

/-- `cstl_map_find`: the value of the item that is found. -/
def cstlMapFind (M : CstlMap κ ν) (key : κ) : Option (Option ν) := do
  let node ← M.tree.rbtTreeFind (itemCompare compare) fuel ⟨key, none⟩
  let item ← M.tree.rbtNodeGetKey node
  return item.bind MapItem.value

/-- `cstl_map_delete` -/
def cstlMapDelete (M : CstlMap κ ν) : Option (RbtTree (MapItem κ ν)) := M.tree.rbtTreeDestroy fuel

/-- `cstl_map_iter_get_next` is `cstl_set_get_next` on the tree of the map. -/
def cstlMapIterGetNext (M : CstlMap κ ν) (current : Option Ptr) : Option Ptr :=
  CstlSet.cstlSetGetNext fuel ⟨M.tree⟩ current

variable {σ : Type} (cb : κ → Option ν → CstlMap κ ν × σ → Option ((CstlMap κ ν × σ) × Bool))

/-- The loop of `cstl_map_traverse`.  The state is the map and what `p` points to. -/
def traverseLoop : ℕ → Option Ptr → CstlMap κ ν × σ → Option (CstlMap κ ν × σ)
  | 0, _, _ => none
  | steps + 1, current, s => do
      let node ← s.1.cstlMapIterGetNext fuel current
      let item ← s.1.tree.rbtNodeGetKey node
      match item with
      | none => return s
      | some item => do
          let r ← cb item.key item.value s
          if r.2 then return r.1
          else if r.1.1.mapChanged then traverseLoop steps none ({ r.1.1 with mapChanged := false }, r.1.2)
          else traverseLoop steps (some node) r.1

def cstlMapTraverse (steps : ℕ) (s : CstlMap κ ν × σ) : Option (CstlMap κ ν × σ) :=
  traverseLoop fuel cb steps none ({ s.1 with mapChanged := false }, s.2)

end Code

/-! ## What is in a map -/

variable {compare : κ → κ → ℤ} {M : CstlMap κ ν} {elems : List (Ptr × MapItem κ ν)} {fuel : ℕ}

theorem lawful_itemCompare (hcmp : Comparison.Lawful compare) :
    Comparison.Lawful (itemCompare (ν := ν) compare) where
  neg_iff_pos l r := hcmp.neg_iff_pos l.key r.key
  le_trans l m r := hcmp.le_trans l.key m.key r.key

/-- The map has these nodes, with their items in the order of the keys. -/
def Stores (compare : κ → κ → ℤ) (M : CstlMap κ ν) (elems : List (Ptr × MapItem κ ν)) : Prop :=
  CstlSet.Stores (itemCompare compare) ⟨M.tree⟩ elems

theorem stores_new (compare : κ → κ → ℤ) : Stores compare (cstlMapNew : CstlMap κ ν) [] := CstlSet.stores_new _

namespace Stores

/-- What a search finds. -/
theorem find_cases (hcmp : Comparison.Lawful compare) (hM : Stores compare M elems)
    (hfuel : stepBound elems.length ≤ fuel) (key : κ) :
    (∃ a ∈ elems, compare key a.2.key = 0 ∧ M.cstlMapIsKeyExists compare fuel key = some true ∧
      M.cstlMapFind compare fuel key = some a.2.value) ∨
      ((∀ a ∈ elems, compare key a.2.key ≠ 0) ∧ M.cstlMapIsKeyExists compare fuel key = some false ∧
        M.cstlMapFind compare fuel key = some none) := by
  rcases hM.contains.find (lawful_itemCompare hcmp) ⟨key, none⟩ hfuel with ⟨a, ha, hzero, hfind⟩ | ⟨hnone, hnil⟩
  · refine Or.inl ⟨a, ha, hzero, ?_, ?_⟩
    · rw [cstlMapIsKeyExists, hfind, Option.bind_eq_bind, Option.bind_some, decide_eq_true (hM.contains.ne_nil ha)]
      rfl
    · rw [cstlMapFind, hfind, Option.bind_eq_bind, Option.bind_some, hM.contains.getKey ha]
      rfl
  · refine Or.inr ⟨hnone, ?_, ?_⟩
    · rw [cstlMapIsKeyExists, hnil]
      rfl
    · rw [cstlMapFind, hnil]
      rfl

theorem forall_ne_of_not_exists (hcmp : Comparison.Lawful compare) (hM : Stores compare M elems)
    (hfuel : stepBound elems.length ≤ fuel) {key : κ} (hno : M.cstlMapIsKeyExists compare fuel key = some false) :
    ∀ a ∈ elems, compare key a.2.key ≠ 0 := by
  rcases hM.find_cases hcmp hfuel key with ⟨_, _, _, hexists, _⟩ | ⟨hnone, _, _⟩
  · exact absurd (hexists.symm.trans hno) (by decide)
  · exact hnone

theorem exists_eq_of_exists (hcmp : Comparison.Lawful compare) (hM : Stores compare M elems)
    (hfuel : stepBound elems.length ≤ fuel) {key : κ} (hyes : M.cstlMapIsKeyExists compare fuel key = some true) :
    ∃ a ∈ elems, compare key a.2.key = 0 := by
  rcases hM.find_cases hcmp hfuel key with ⟨a, ha, hzero, _⟩ | ⟨_, hexists, _⟩
  · exact ⟨a, ha, hzero⟩
  · exact absurd (hexists.symm.trans hyes) (by decide)

theorem insert_duplicate (hcmp : Comparison.Lawful compare) (hM : Stores compare M elems)
    (hfuel : stepBound elems.length ≤ fuel) {key : κ} (hmem : ∃ a ∈ elems, compare key a.2.key = 0)
    (value : Option ν) (mem : Option Ptr) :
    M.cstlMapInsert compare fuel key value mem = some (M, .keyDuplicate) := by
  rcases hM.find_cases hcmp hfuel key with ⟨_, _, _, hexists, _⟩ | ⟨hnone, _, _⟩
  · rw [cstlMapInsert, hexists]
    rfl
  · rcases hmem with ⟨a, ha, hzero⟩
    exact absurd hzero (hnone a ha)

theorem insert_new (hcmp : Comparison.Lawful compare) (hM : Stores compare M elems)
    (hfuel : stepBound (elems.length + 1) ≤ fuel) {key : κ} (hnew : ∀ a ∈ elems, compare key a.2.key ≠ 0)
    (value : Option ν) {z : Ptr} (hz : M.tree.nodes z = none) :
    ∃ pre post T', elems = pre ++ post ∧
      M.cstlMapInsert compare fuel key value (some z) = some (⟨T', true⟩, .success) ∧
      Stores compare ⟨T', true⟩ (pre ++ (z, ⟨key, value⟩) :: post) := by
  have hfuel' : stepBound elems.length ≤ fuel := (stepBound_mono (Nat.le_succ _)).trans hfuel
  rcases hM.find_cases hcmp hfuel' key with ⟨a, ha, hzero, _⟩ | ⟨_, hexists, _⟩
  · exact absurd hzero (hnew a ha)
  · have hnew' : ∀ a ∈ elems, itemCompare compare ⟨key, value⟩ a.2 ≠ 0 := hnew
    rcases hM.contains.insert_new (lawful_itemCompare hcmp) hfuel (fun _ => hnew') hz with
      ⟨pre, post, T', hlist, _, _, hinsert, hT', hdup, _⟩
    refine ⟨pre, post, T', hlist, ?_, hT', hdup.trans hM.allowDup_eq⟩
    rw [cstlMapInsert, hexists, Option.bind_eq_bind, Option.bind_some, if_neg Bool.false_ne_true, hinsert]
    rfl

/-- The item with the key is taken out, and the flag is set. -/
theorem remove (hcmp : Comparison.Lawful compare) (hM : Stores compare M elems)
    (hfuel : stepBound elems.length ≤ fuel) {key : κ} (hmem : ∃ a ∈ elems, compare key a.2.key = 0) :
    ∃ pre a post T', elems = pre ++ a :: post ∧ compare key a.2.key = 0 ∧
      M.cstlMapRemove compare fuel key = some ⟨T', true⟩ ∧ Stores compare ⟨T', true⟩ (pre ++ post) ∧
      ∀ b, b ∈ pre ++ post ↔ b ∈ elems ∧ compare key b.2.key ≠ 0 := by
  have hmem' : ∃ a ∈ elems, itemCompare compare ⟨key, none⟩ a.2 = 0 := hmem
  rcases hM.contains.remove_present (lawful_itemCompare hcmp) hfuel hmem' with
    ⟨pre, a, post, T', hlist, hzero, hremove, hT', hdup, _⟩
  refine ⟨pre, a, post, T', hlist, hzero, ?_, ⟨hT', hdup.trans hM.allowDup_eq⟩, fun b => ?_⟩
  · rw [cstlMapRemove, hremove, Option.bind_eq_bind, Option.bind_some]
    simp
  · subst hlist
    exact hM.mem_erase_iff (lawful_itemCompare hcmp) hzero

theorem remove_absent (hcmp : Comparison.Lawful compare) (hM : Stores compare M elems)
    (hfuel : stepBound elems.length ≤ fuel) {key : κ} (hnone : ∀ a ∈ elems, compare key a.2.key ≠ 0) :
    M.cstlMapRemove compare fuel key = some M := by
  have hnone' : ∀ a ∈ elems, itemCompare compare ⟨key, none⟩ a.2 ≠ 0 := hnone
  rw [cstlMapRemove, hM.contains.remove_absent (lawful_itemCompare hcmp) hfuel hnone']
  simp

end Stores

/-! ## Traversal -/

section Sweep

variable {σ : Type} [Preorder σ] {drops : MapItem κ ν → σ → Bool} {next : MapItem κ ν → σ → σ}

/-- A callback that takes an item out or leaves the map alone.  Its own state never goes back. -/
def sweepCb (compare : κ → κ → ℤ) (fuel : ℕ) (drops : MapItem κ ν → σ → Bool) (next : MapItem κ ν → σ → σ) (key : κ)
    (value : Option ν) (s : CstlMap κ ν × σ) : Option ((CstlMap κ ν × σ) × Bool) :=
  if drops ⟨key, value⟩ s.2 then do
    let M ← s.1.cstlMapRemove compare fuel key
    return ((M, next ⟨key, value⟩ s.2), false)
  else
    some ((s.1, next ⟨key, value⟩ s.2), false)

/-- The callback has been asked about the item in a state between two others, with this answer. -/
def Asked (drops : MapItem κ ν → σ → Bool) (s s' : σ) (item : MapItem κ ν) (b : Bool) : Prop :=
  ∃ t, s ≤ t ∧ t ≤ s' ∧ drops item t = b

theorem Asked.mono {s₀ s s' s₁ : σ} {item : MapItem κ ν} {b : Bool} (h : Asked drops s s' item b) (h₀ : s₀ ≤ s)
    (h₁ : s' ≤ s₁) : Asked drops s₀ s₁ item b := by
  rcases h with ⟨t, hst, hts', hb⟩
  exact ⟨t, h₀.trans hst, hts'.trans h₁, hb⟩

/-- What is left of `elems` after the callback has been asked about all of them. -/
structure Swept (compare : κ → κ → ℤ) (drops : MapItem κ ν → σ → Bool) (elems : List (Ptr × MapItem κ ν)) (s : σ)
    (M' : CstlMap κ ν) (s' : σ) (elems' : List (Ptr × MapItem κ ν)) : Prop where
  stores : Stores compare M' elems'
  sublist : elems'.Sublist elems
  le : s ≤ s'
  kept : ∀ a ∈ elems', Asked drops s s' a.2 false
  dropped : ∀ a ∈ elems, a ∉ elems' → Asked drops s s' a.2 true

/-- Enough rounds for `n` items, of which the last `m` have not been visited since the last change. -/
def roundBound (n m : ℕ) : ℕ := n * (n + 1) + m

theorem roundBound_mono {n n' m m' : ℕ} (hn : n ≤ n') (hm : m ≤ m') : roundBound n m ≤ roundBound n' m' :=
  Nat.add_le_add (Nat.mul_le_mul hn (Nat.succ_le_succ hn)) hm

theorem roundBound_restart {n m steps : ℕ} (h : roundBound (n + 1) (m + 1) < steps + 1) : roundBound n n < steps := by
  have hsquare : (n + 1) * (n + 1 + 1) = n * (n + 1) + 2 * (n + 1) := by ring
  rw [roundBound, hsquare] at h
  rw [roundBound]
  omega

/-- An item that has been taken out before the others. -/
theorem Swept.cons {elems pre post elems' : List (Ptr × MapItem κ ν)} {a : Ptr × MapItem κ ν} {M' : CstlMap κ ν}
    {s₀ s s' : σ} (h : Swept compare drops (pre ++ post) s₀ M' s' elems') (hlist : elems = pre ++ a :: post)
    (hle : s₀ ≤ s) (hle' : s ≤ s') (hdrop : drops a.2 s = true) : Swept compare drops elems s₀ M' s' elems' := by
  subst hlist
  refine ⟨h.stores, h.sublist.trans ?_, h.le, h.kept, fun b hb hno => ?_⟩
  · exact (List.Sublist.refl pre).append (List.sublist_cons_self a post)
  · by_cases hmem : b ∈ pre ++ post
    · exact h.dropped b hmem hno
    · have heq : b = a := by
        rw [List.mem_append, List.mem_cons] at hb
        rw [List.mem_append] at hmem
        tauto
      exact ⟨s, hle, hle', heq ▸ hdrop⟩

theorem traverseLoop_sweep (hcmp : Comparison.Lawful compare) (hnext : ∀ item s, s ≤ next item s) {s₀ s : σ}
    {pre post : List (Ptr × MapItem κ ν)} (hM : Stores compare M (pre ++ post)) (hchanged : M.mapChanged = false)
    (hle : s₀ ≤ s) (hpre : ∀ a ∈ pre, Asked drops s₀ s a.2 false) (hfuel : stepBound (pre ++ post).length ≤ fuel)
    {steps : ℕ} (hsteps : roundBound (pre ++ post).length post.length < steps) :
    ∃ M' s' elems', traverseLoop fuel (sweepCb compare fuel drops next) steps (pre.getLast?.map Prod.fst) (M, s) =
      some (M', s') ∧ s ≤ s' ∧ Swept compare drops (pre ++ post) s₀ M' s' elems' := by
  induction steps generalizing M s pre post with
  | zero => exact absurd hsteps (Nat.not_lt_zero _)
  | succ steps ih =>
      have hget : M.cstlMapIterGetNext fuel (pre.getLast?.map Prod.fst) = some (headAddr post) :=
        CstlSet.getNext_eq hM hfuel
      rw [traverseLoop, hget, Option.bind_eq_bind, Option.bind_some]
      cases post with
      | nil =>
          rw [List.append_nil] at hM ⊢
          exact ⟨M, s, pre, rfl, le_rfl, hM, List.Sublist.refl _, hle, hpre, fun a ha hno => absurd ha hno⟩
      | cons a post =>
          have hkey := hM.contains.getKey (List.mem_append_right pre (List.mem_cons_self (a := a) (l := post)))
          have hself : s ≤ next a.2 s := hnext a.2 s
          rw [headAddr, hkey]
          simp only [Option.bind_eq_bind, Option.bind_some, sweepCb]
          by_cases hdrop : drops a.2 s = true
          · -- the item goes, and the traversal starts again
            rcases hM.remove hcmp hfuel ⟨a, List.mem_append_right _ (List.mem_cons_self ..), hcmp.self_eq_zero _⟩ with
              ⟨pre', b, post', T', hlist, hzero, hremove, hM', _⟩
            have hb : b ∈ pre ++ a :: post := hlist ▸ List.mem_append_right _ (List.mem_cons_self ..)
            obtain rfl : a = b := hM.eq_of_compare (lawful_itemCompare hcmp)
              (List.mem_append_right _ (List.mem_cons_self ..)) hb hzero
            have hlength : (pre ++ a :: post).length = (pre' ++ post').length + 1 := by
              rw [hlist]
              simp only [List.length_append, List.length_cons]
              omega
            rw [hlength] at hfuel hsteps
            have hrest : Stores compare ⟨T', false⟩ ([] ++ (pre' ++ post')) := hM'
            rcases ih hrest rfl (hle.trans hself) (fun c hc => absurd hc List.not_mem_nil)
              ((stepBound_mono (Nat.le_succ _)).trans hfuel) (roundBound_restart hsteps) with
              ⟨M', s', elems', hloop, hle', hswept⟩
            rw [List.nil_append] at hswept
            refine ⟨M', s', elems', ?_, hself.trans hle', hswept.cons hlist hle (hself.trans hle') hdrop⟩
            rw [if_pos hdrop, hremove]
            exact hloop
          · have hkept : ∀ b ∈ pre ++ [a], Asked drops s₀ (next a.2 s) b.2 false := by
              intro b hb
              rcases List.mem_append.1 hb with hb | hb
              · exact (hpre b hb).mono le_rfl hself
              · obtain rfl := List.mem_singleton.1 hb
                exact ⟨s, hle, hself, by simpa using hdrop⟩
            have hlist : (pre ++ [a]) ++ post = pre ++ a :: post := by simp
            rw [← hlist] at hM hfuel hsteps
            rcases ih hM hchanged (hle.trans hself) hkept hfuel (Nat.lt_of_succ_lt_succ hsteps) with
              ⟨M', s', elems', hloop, hle', hswept⟩
            rw [hlist] at hswept
            rw [List.getLast?_concat] at hloop
            refine ⟨M', s', elems', ?_, hself.trans hle', hswept⟩
            rw [if_neg hdrop, Option.bind_some]
            simp only [Bool.false_eq_true, if_false, hchanged]
            exact hloop

/-- The traversal asks about every item, and takes out what is to go. -/
theorem traverse_sweep (hcmp : Comparison.Lawful compare) (hnext : ∀ item s, s ≤ next item s) (s : σ)
    (hM : Stores compare M elems) (hfuel : stepBound elems.length ≤ fuel) {steps : ℕ}
    (hsteps : roundBound elems.length elems.length < steps) :
    ∃ M' s' elems', cstlMapTraverse fuel (sweepCb compare fuel drops next) steps (M, s) = some (M', s') ∧
      Swept compare drops elems s M' s' elems' := by
  have hstart : Stores compare { M with mapChanged := false } ([] ++ elems) := hM
  rcases traverseLoop_sweep hcmp hnext hstart rfl le_rfl (fun a ha => absurd ha List.not_mem_nil) hfuel hsteps with
    ⟨M', s', elems', hloop, _, hswept⟩
  exact ⟨M', s', elems', hloop, hswept⟩

end Sweep

end CstlMap

end SsrNative
