import Mathlib.Data.Multiset.ZeroCons
import Mathlib.Data.Multiset.MapFold
import Mathlib.Data.Multiset.AddSub
import Mathlib.Data.Multiset.UnionInter
import Mathlib.Logic.Function.Basic
import Mathlib.Tactic.Common

/-!
# Cells — a memory as the multiset of its cells

`Models h M` says that the memory `h` has the cells `M` and no others, each at an address of its own.  As the
order in which the cells are listed does not matter, a piece of memory is the sum of its parts, and a write
to one cell leaves the other summands alone.
-/

namespace SsrNative
namespace Lib
namespace Cells

variable {β ν : Type*}

structure Models (h : β → Option ν) (M : Multiset (β × ν)) : Prop where
  nodup : (M.map Prod.fst).Nodup
  eq_some_iff : ∀ p n, h p = some n ↔ (p, n) ∈ M

namespace Models

variable {h : β → Option ν} {M M' : Multiset (β × ν)} {p q : β} {n n' : ν}

theorem of_eq (hM : Models h M) (heq : M = M') : Models h M' := heq ▸ hM

theorem get (hM : Models h ({(p, n)} + M)) : h p = some n := by
  rw [hM.eq_some_iff, Multiset.singleton_add]
  exact Multiset.mem_cons_self _ _

theorem nodup_cons (hM : Models h ({(p, n)} + M)) : p ∉ M.map Prod.fst ∧ (M.map Prod.fst).Nodup := by
  have hnodup := hM.nodup
  rwa [Multiset.singleton_add, Multiset.map_cons, Multiset.nodup_cons] at hnodup

theorem ne_of_mem (hM : Models h ({(p, n)} + M)) (hq : q ∈ M.map Prod.fst) : q ≠ p := by
  rintro rfl
  exact hM.nodup_cons.1 hq

theorem ne (hM : Models h ({(p, n)} + ({(q, n')} + M))) : q ≠ p := by
  refine hM.ne_of_mem ?_
  rw [Multiset.singleton_add, Multiset.map_cons]
  exact Multiset.mem_cons_self _ _

theorem eq_none_iff (hM : Models h M) : h p = none ↔ p ∉ M.map Prod.fst := by
  rw [Option.eq_none_iff_forall_ne_some]
  constructor
  · intro hnone hp
    rcases Multiset.mem_map.1 hp with ⟨⟨p', n⟩, hmem, rfl⟩
    exact hnone n ((hM.eq_some_iff _ n).2 hmem)
  · intro hp n hn
    exact hp (Multiset.mem_map_of_mem Prod.fst ((hM.eq_some_iff p n).1 hn))

variable [DecidableEq β]

/-- A cell is given back. -/
theorem free (hM : Models h ({(p, n)} + M)) : Models (Function.update h p none) M := by
  refine ⟨hM.nodup_cons.2, fun q m => ?_⟩
  by_cases hq : q = p
  · subst hq
    rw [Function.update_self]
    refine iff_of_false (Option.some_ne_none m).symm fun hmem => ?_
    exact hM.nodup_cons.1 (Multiset.mem_map_of_mem Prod.fst hmem)
  · rw [Function.update_of_ne hq, hM.eq_some_iff, Multiset.singleton_add, Multiset.mem_cons]
    exact or_iff_right fun heq => hq (congrArg Prod.fst heq)

/-- A cell at a new address. -/
theorem alloc (hM : Models h M) (hp : h p = none) (n : ν) :
    Models (Function.update h p (some n)) ({(p, n)} + M) := by
  rw [Multiset.singleton_add]
  refine ⟨?_, fun q m => ?_⟩
  · rw [Multiset.map_cons, Multiset.nodup_cons]
    exact ⟨hM.eq_none_iff.1 hp, hM.nodup⟩
  · by_cases hq : q = p
    · subst hq
      rw [Function.update_self, Option.some_inj, Multiset.mem_cons, Prod.mk_right_inj]
      refine ⟨fun heq => Or.inl heq.symm, fun hmem => hmem.elim Eq.symm fun hmem => ?_⟩
      rw [(hM.eq_some_iff q m).2 hmem] at hp
      cases hp
    · rw [Function.update_of_ne hq, hM.eq_some_iff, Multiset.mem_cons]
      exact (or_iff_right fun heq => hq (congrArg Prod.fst heq)).symm

/-- A cell is written. -/
theorem write (hM : Models h ({(p, n)} + M)) (n' : ν) :
    Models (Function.update h p (some n')) ({(p, n')} + M) := by
  have hwritten := hM.free.alloc (Function.update_self p none h) n'
  rwa [Function.update_idem] at hwritten

end Models

end Cells
end Lib
end SsrNative
