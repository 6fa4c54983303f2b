import SsrNative.CString
import SsrNative.CstlMap
import SsrNative.Lib.Transition

/-!
# IpAddrCache — the addresses that a server remembers

`ip_addr_cache.c`, and the places in the server that call it: a lookup in `do_parse`, an insertion when a name has been
resolved, a removal when no connection can be started.  Names may be resolved for several tunnels at a time.

An entry is too old when more than the interval has gone by on `clock()`.  Old entries are not taken out until a lookup
meets one of them; then all of them are, while `clock()` goes on.
-/

namespace SsrNative
namespace IpAddrCache

open Bytes CString
open Lib Lib.Transition RbtTree CstlMap

/-! ## Data -/

/-- `struct address_timestamp`; `α` is `union sockaddr_universal`. -/
structure AddressTimestamp (α : Type) where
  address : α
  timestamp : ℤ

structure Cache (α : Type) where
  resolvedIps : CstlMap Bytes (AddressTimestamp α)
  expireInterval : ℤ

/-- The cache, the number of times that `clock()` was called, and the answers of the lookups. -/
structure State (α : Type) where
  cache : Cache α
  readings : ℕ
  answers : List (Option α)

def IP_CACHE_EXPIRE_INTERVAL_MIN : ℕ := 3600

def CLOCKS_PER_SEC : ℕ := 1000000

/-- `ip_addr_cache_create`, with a `clock_t` of 64 bits. -/
def ipAddrCacheCreate {α : Type} (expireIntervalSeconds : ℕ) : Cache α :=
  let seconds := if expireIntervalSeconds < IP_CACHE_EXPIRE_INTERVAL_MIN then IP_CACHE_EXPIRE_INTERVAL_MIN
    else expireIntervalSeconds
  ⟨cstlMapNew, Int.bmod (seconds * CLOCKS_PER_SEC) 18446744073709551616⟩

variable {α : Type}

/-! ## The functions -/

section Code

-- `clock` has the answers of `clock()`, one after the other
variable (clock : ℕ → ℤ) (fuel : ℕ)

def isAddressExist (c : Cache α) (host : Bytes) : Option Bool := do
  let value ← c.resolvedIps.cstlMapFind strcmp fuel host
  return value.isSome

/-- `ip_addr_cache_add_address`, which asserts that the name is new. -/
def addAddress (s : State α) (host : Bytes) (address : α) (mem : Option Ptr) : Option (State α) := do
  let found ← s.cache.resolvedIps.cstlMapIsKeyExists strcmp fuel host
  guard (found = false)
  let r ← s.cache.resolvedIps.cstlMapInsert strcmp fuel host (some ⟨address, clock s.readings⟩) mem
  return { s with cache := { s.cache with resolvedIps := r.1 }, readings := s.readings + 1 }

/-- `ip_addr_cache_remove_address`, which asserts that the name is there. -/
def removeAddress (s : State α) (host : Bytes) : Option (State α) := do
  let found ← s.cache.resolvedIps.cstlMapIsKeyExists strcmp fuel host
  guard found
  let map ← s.cache.resolvedIps.cstlMapRemove strcmp fuel host
  return { s with cache := { s.cache with resolvedIps := map } }

/-- `expire_ip_remove_cb` -/
def expireIpRemoveCb (interval : ℤ) (key : Bytes) (value : Option (AddressTimestamp α))
    (s : CstlMap Bytes (AddressTimestamp α) × ℕ) : Option ((CstlMap Bytes (AddressTimestamp α) × ℕ) × Bool) :=
  match value with
  | none => some (s, false)
  | some addr =>
      if clock s.2 - addr.timestamp > interval then do
        let map ← s.1.cstlMapRemove strcmp fuel key
        return ((map, s.2 + 1), false)
      else
        some ((s.1, s.2 + 1), false)

/-- `ip_addr_cache_retrieve_address`; `mem` tells whether there is memory for the answer. -/
def retrieveAddress (steps : ℕ) (s : State α) (host : Bytes) (mem : Bool) : Option (State α × Option α) := do
  let value ← s.cache.resolvedIps.cstlMapFind strcmp fuel host
  match value with
  | none => return (s, none)
  | some addr =>
      if clock s.readings - addr.timestamp > s.cache.expireInterval then do
        let r ← cstlMapTraverse fuel (expireIpRemoveCb clock fuel s.cache.expireInterval) steps
          (s.cache.resolvedIps, s.readings + 1)
        return ({ s with cache := { s.cache with resolvedIps := r.1 }, readings := r.2 }, none)
      else
        return ({ s with readings := s.readings + 1 }, if mem then some addr.address else none)

inductive Event (α : Type) where
  /-- `do_parse` has got the name of a host. -/
  | lookup (host : Bytes) (mem : Bool)
  /-- `do_resolve_host_done`; `z` is what the allocator answers. -/
  | resolved (host : Bytes) (address : α) (z : Ptr)
  /-- `do_connect_host_start` could not start a connection. -/
  | connectFailed (host : Bytes)

def step (steps : ℕ) (s : State α) : Event α → Option (State α)
  | .lookup host mem => do
      let r ← retrieveAddress clock fuel steps s host mem
      return { r.1 with answers := r.1.answers ++ [r.2] }
  | .resolved host address z => do
      let found ← isAddressExist fuel s.cache host
      if found then return s else addAddress clock fuel s host address (some z)
  | .connectFailed host => do
      let found ← isAddressExist fuel s.cache host
      if found then removeAddress fuel s host else return s

/-- The cache of a server. -/
def start (α : Type) : State α := ⟨ipAddrCacheCreate IP_CACHE_EXPIRE_INTERVAL_MIN, 0, []⟩

/-- The allocator hands out memory that is not in use. -/
def Occurs (s : State α) : Event α → Prop
  | .lookup _ _ => True
  | .resolved _ _ z => s.cache.resolvedIps.tree.nodes z = none
  | .connectFailed _ => True

end Code

/-! ## What is remembered -/

/-- The addresses of the hosts with the times at which they were resolved. -/
abbrev Memory (α : Type) := Bytes → Option (AddressTimestamp α)

abbrev Old (interval now : ℤ) (v : AddressTimestamp α) : Prop := now - v.timestamp > interval

/-- The address of a host, if it is not too old. -/
def remembered (interval now : ℤ) (g : Memory α) (host : Bytes) : Option α :=
  (g host).bind fun v => if Old interval now v then none else some v.address

/-- What an event does to the memory.  An old address may be replaced, but need not be: it is still in the cache if
no lookup has met an old one since. -/
def Acts (interval now : ℤ) (g : Memory α) (e : Event α) (g' : Memory α) : Prop :=
  match e with
  | .lookup _ _ => g' = g
  | .resolved host address _ =>
      (g' = g ∧ (g host).isSome = true) ∨
        (g' = Function.update g host (some ⟨address, now⟩) ∧ ∀ v, g host = some v → Old interval now v)
  | .connectFailed host => g' = Function.update g host none

/-- What an event is answered. -/
def answerTo (interval now : ℤ) (g : Memory α) : Event α → List (Option α)
  | .lookup host mem => [if mem then remembered interval now g host else none]
  | .resolved _ _ _ => []
  | .connectFailed _ => []

/-- The server runs through the events and does and answers what the memory does. -/
inductive Follows (clock : ℕ → ℤ) (fuel steps : ℕ) : State α → Memory α → List (Event α) → Prop where
  | nil (s : State α) (g : Memory α) : Follows clock fuel steps s g []
  | cons {s s' : State α} {g g' : Memory α} {e : Event α} {es : List (Event α)}
      (hstep : step clock fuel steps s e = some s')
      (hacts : Acts s.cache.expireInterval (clock s.readings) g e g')
      (hanswers : s'.answers = s.answers ++ answerTo s.cache.expireInterval (clock s.readings) g e)
      (hrest : Follows clock fuel steps s' g' es) : Follows clock fuel steps s g (e :: es)

/-! ## The invariant -/

/-- The cache has in it what the memory has, except for what is too old. -/
structure Inv (clock : ℕ → ℤ) (n : ℕ) (s : State α) (g : Memory α) : Prop where
  exists_stores : ∃ elems, Stores strcmp s.cache.resolvedIps elems ∧ elems.length ≤ n ∧
    (∀ a ∈ elems, a.2.value.isSome = true ∧ g a.2.key = a.2.value) ∧
    ∀ host v, g host = some v →
      (∃ a ∈ elems, a.2.key = host) ∨ Old s.cache.expireInterval (clock s.readings) v

theorem inv_start (clock : ℕ → ℤ) : Inv clock 0 (start α) fun _ => none :=
  ⟨⟨[], stores_new _, le_rfl, fun a ha => absurd ha List.not_mem_nil, fun _ _ hv => by cases hv⟩⟩

section Steps

variable {clock : ℕ → ℤ} {n fuel steps : ℕ} {s : State α} {g : Memory α}

theorem Old.mono {interval now now' : ℤ} {v : AddressTimestamp α} (h : Old interval now v) (hle : now ≤ now') :
    Old interval now' v := by
  omega

/-- What a search in the cache finds of a host. -/
theorem Inv.find_cases (hinv : Inv clock n s g) (hfuel : stepBound n ≤ fuel) (host : Bytes) :
    (∃ v, g host = some v ∧ s.cache.resolvedIps.cstlMapIsKeyExists strcmp fuel host = some true ∧
      s.cache.resolvedIps.cstlMapFind strcmp fuel host = some (some v)) ∨
    ((∀ v, g host = some v → Old s.cache.expireInterval (clock s.readings) v) ∧
      s.cache.resolvedIps.cstlMapIsKeyExists strcmp fuel host = some false ∧
      s.cache.resolvedIps.cstlMapFind strcmp fuel host = some none) := by
  rcases hinv.exists_stores with ⟨elems, hM, hlength, hsome, hold⟩
  rcases hM.find_cases lawful_strcmp ((stepBound_mono hlength).trans hfuel) host with
    ⟨a, ha, hzero, hexists, hfind⟩ | ⟨hnone, hexists, hfind⟩
  · obtain rfl := strcmp_eq_zero_iff.1 hzero
    rcases Option.isSome_iff_exists.1 (hsome a ha).1 with ⟨v, hv⟩
    exact Or.inl ⟨v, (hsome a ha).2.trans hv, hexists, hfind.trans (congrArg some hv)⟩
  · refine Or.inr ⟨fun v hv => ?_, hexists, hfind⟩
    rcases hold host v hv with ⟨a, ha, heq⟩ | hv
    · exact absurd (strcmp_eq_zero_iff.2 heq.symm) (hnone a ha)
    · exact hv

theorem Inv.succ (hinv : Inv clock n s g) : Inv clock (n + 1) s g := by
  rcases hinv.exists_stores with ⟨elems, hM, hlength, hrest⟩
  exact ⟨⟨elems, hM, hlength.trans (Nat.le_succ n), hrest⟩⟩

/-- The invariant holds on while time goes by. -/
theorem Inv.later (hclock : ∀ ⦃t t'⦄, t ≤ t' → clock t ≤ clock t') (hinv : Inv clock n s g) {t : ℕ} (ht : s.readings ≤ t) :
    Inv clock n { s with readings := t } g := by
  rcases hinv.exists_stores with ⟨elems, hM, hlength, hsome, hkeep⟩
  refine ⟨⟨elems, hM, hlength, hsome, fun host v hv => ?_⟩⟩
  exact (hkeep host v hv).imp id fun hv' => Old.mono hv' (hclock ht)

/-! ### Lookups -/

/-- Whether `expire_ip_remove_cb` takes an item out at a reading of the clock. -/
def expires (clock : ℕ → ℤ) (interval : ℤ) (item : MapItem Bytes (AddressTimestamp α)) (t : ℕ) : Bool :=
  item.value.any fun v => Old interval (clock t) v

/-- The clock is read for every item that has a value. -/
def nextReading (item : MapItem Bytes (AddressTimestamp α)) (t : ℕ) : ℕ := if item.value.isSome then t + 1 else t

theorem expireIpRemoveCb_eq (clock : ℕ → ℤ) (fuel : ℕ) (interval : ℤ) :
    expireIpRemoveCb (α := α) clock fuel interval = sweepCb strcmp fuel (expires clock interval) nextReading := by
  funext key value s
  cases value with
  | none => rfl
  | some v =>
      rw [expireIpRemoveCb, sweepCb]
      by_cases hold : Old interval (clock s.2) v
      · have hexp : expires clock interval ⟨key, some v⟩ s.2 = true := by simpa [expires] using hold
        rw [if_pos hexp, if_pos hold]
        rfl
      · have hexp : ¬ expires clock interval ⟨key, some v⟩ s.2 = true := by simpa [expires] using hold
        rw [if_neg hexp, if_neg hold]
        rfl

theorem le_nextReading (item : MapItem Bytes (AddressTimestamp α)) (t : ℕ) : t ≤ nextReading item t := by
  rw [nextReading]
  split_ifs
  · exact Nat.le_succ t
  · exact le_rfl

/-- What the traversal takes out is too old. -/
theorem inv_swept (hclock : ∀ ⦃t t'⦄, t ≤ t' → clock t ≤ clock t') {elems elems' : List (Ptr × MapItem Bytes _)}
    (hlength : elems.length ≤ n)
    (hsome : ∀ a ∈ elems, a.2.value.isSome = true ∧ g a.2.key = a.2.value)
    (hold : ∀ host v, g host = some v →
      (∃ a ∈ elems, a.2.key = host) ∨ Old s.cache.expireInterval (clock s.readings) v)
    {M' : CstlMap Bytes (AddressTimestamp α)} {t : ℕ}
    (hswept : Swept strcmp (expires clock s.cache.expireInterval) elems (s.readings + 1) M' t elems') :
    Inv clock n { s with cache := { s.cache with resolvedIps := M' }, readings := t } g := by
  refine ⟨⟨elems', hswept.stores, hswept.sublist.length_le.trans hlength, fun a ha => hsome a (hswept.sublist.subset ha),
    fun host v hv => ?_⟩⟩
  rcases hold host v hv with ⟨a, ha, rfl⟩ | hv'
  · by_cases hkept : a ∈ elems'
    · exact Or.inl ⟨a, hkept, rfl⟩
    · rcases hswept.dropped a ha hkept with ⟨u, _, hut, hdrop⟩
      rw [expires, ← (hsome a ha).2, hv] at hdrop
      have hdrop' : Old s.cache.expireInterval (clock u) v := by simpa using hdrop
      exact Or.inr (Old.mono hdrop' (hclock hut))
  · exact Or.inr (Old.mono hv' (hclock ((Nat.le_succ _).trans hswept.le)))

theorem retrieveAddress_spec (hclock : ∀ ⦃t t'⦄, t ≤ t' → clock t ≤ clock t') (hinv : Inv clock n s g) (hfuel : stepBound n ≤ fuel)
    (hsteps : roundBound n n < steps) (host : Bytes) (mem : Bool) :
    ∃ s', retrieveAddress clock fuel steps s host mem =
        some (s', if mem then remembered s.cache.expireInterval (clock s.readings) g host else none) ∧
      Inv clock n s' g ∧ s'.answers = s.answers := by
  rcases hinv.find_cases hfuel host with ⟨v, hv, _, hfind⟩ | ⟨hnone, _, hfind⟩
  · rw [retrieveAddress, hfind, remembered, hv]
    simp only [Option.bind_eq_bind, Option.bind_some]
    by_cases hold : Old s.cache.expireInterval (clock s.readings) v
    · rcases hinv.exists_stores with ⟨elems, hM, hlength, hsome, hkeep⟩
      have hsteps' : roundBound elems.length elems.length < steps := (roundBound_mono hlength hlength).trans_lt hsteps
      rcases traverse_sweep lawful_strcmp (le_nextReading (α := α)) (s.readings + 1) hM
        ((stepBound_mono hlength).trans hfuel) hsteps' with ⟨M', t, elems', htraverse, hswept⟩
      refine ⟨_, ?_, inv_swept hclock hlength hsome hkeep hswept, rfl⟩
      rw [if_pos hold, if_pos hold, expireIpRemoveCb_eq, htraverse, ite_self]
      rfl
    · rw [if_neg hold, if_neg hold]
      exact ⟨{ s with readings := s.readings + 1 }, rfl, hinv.later hclock (Nat.le_succ _), rfl⟩
  · refine ⟨s, ?_, hinv, rfl⟩
    have hrecall : remembered s.cache.expireInterval (clock s.readings) g host = none := by
      rw [remembered]
      cases hv : g host with
      | none => rfl
      | some v => exact if_pos (hnone v hv)
    rw [retrieveAddress, hfind, hrecall, ite_self]
    rfl

/-! ### Changes -/

theorem isAddressExist_eq {value : Option (AddressTimestamp α)} {host : Bytes}
    (hfind : s.cache.resolvedIps.cstlMapFind strcmp fuel host = some value) :
    isAddressExist fuel s.cache host = some value.isSome := by
  rw [isAddressExist, hfind]
  rfl

/-- A host that was not in the cache. -/
theorem inv_insert {host : Bytes} {v : AddressTimestamp α} {M' : CstlMap Bytes (AddressTimestamp α)} {z : Ptr}
    {pre post : List (Ptr × MapItem Bytes (AddressTimestamp α))}
    (hM : Stores strcmp M' (pre ++ (z, ⟨host, some v⟩) :: post)) (hlength : (pre ++ post).length ≤ n)
    (hnew : ∀ a ∈ pre ++ post, strcmp host a.2.key ≠ 0)
    (hsome : ∀ a ∈ pre ++ post, a.2.value.isSome = true ∧ g a.2.key = a.2.value)
    (hkeep : ∀ host v, g host = some v →
      (∃ a ∈ pre ++ post, a.2.key = host) ∨ Old s.cache.expireInterval (clock s.readings) v) :
    Inv clock (n + 1) { s with cache := { s.cache with resolvedIps := M' } } (Function.update g host (some v)) := by
  have hne : ∀ a ∈ pre ++ post, a.2.key ≠ host := fun a ha heq => hnew a ha (strcmp_eq_zero_iff.2 heq.symm)
  have hmem : ∀ a, a ∈ pre ++ (z, ⟨host, some v⟩) :: post ↔ a = (z, ⟨host, some v⟩) ∨ a ∈ pre ++ post := by
    intro a
    rw [List.mem_append, List.mem_cons, List.mem_append]
    tauto
  refine ⟨⟨_, hM, ?_, fun a ha => ?_, fun host' v' hv' => ?_⟩⟩
  · simp only [List.length_append, List.length_cons] at hlength ⊢
    omega
  · rcases (hmem a).1 ha with rfl | ha
    · exact ⟨rfl, Function.update_self ..⟩
    · rw [Function.update_of_ne (hne a ha)]
      exact hsome a ha
  · by_cases heq : host' = host
    · exact Or.inl ⟨_, (hmem _).2 (Or.inl rfl), heq.symm⟩
    · rw [Function.update_of_ne heq] at hv'
      exact (hkeep host' v' hv').imp (fun ⟨a, ha, hkey⟩ => ⟨a, (hmem a).2 (Or.inr ha), hkey⟩) id

/-- A host that is not in the cache any more. -/
theorem inv_erase {host : Bytes} {M' : CstlMap Bytes (AddressTimestamp α)}
    {elems elems' : List (Ptr × MapItem Bytes (AddressTimestamp α))} (hM : Stores strcmp M' elems')
    (hlength : elems'.length ≤ n) (hmem : ∀ a, a ∈ elems' ↔ a ∈ elems ∧ a.2.key ≠ host)
    (hsome : ∀ a ∈ elems, a.2.value.isSome = true ∧ g a.2.key = a.2.value)
    (hkeep : ∀ host v, g host = some v →
      (∃ a ∈ elems, a.2.key = host) ∨ Old s.cache.expireInterval (clock s.readings) v) :
    Inv clock n { s with cache := { s.cache with resolvedIps := M' } } (Function.update g host none) := by
  refine ⟨⟨elems', hM, hlength, fun a ha => ?_, fun host' v' hv' => ?_⟩⟩
  · rw [Function.update_of_ne ((hmem a).1 ha).2]
    exact hsome a ((hmem a).1 ha).1
  · by_cases heq : host' = host
    · subst heq
      rw [Function.update_self] at hv'
      cases hv'
    · rw [Function.update_of_ne heq] at hv'
      exact (hkeep host' v' hv').imp (fun ⟨a, ha, hkey⟩ => ⟨a, (hmem a).2 ⟨ha, hkey ▸ heq⟩, hkey⟩) id

theorem resolved_spec (hclock : ∀ ⦃t t'⦄, t ≤ t' → clock t ≤ clock t') (hinv : Inv clock n s g) (hfuel : stepBound (n + 1) ≤ fuel)
    {host : Bytes} {address : α} {z : Ptr} (hz : s.cache.resolvedIps.tree.nodes z = none) :
    ∃ s' g', step clock fuel steps s (.resolved host address z) = some s' ∧ Inv clock (n + 1) s' g' ∧
      Acts s.cache.expireInterval (clock s.readings) g (.resolved host address z) g' ∧ s'.answers = s.answers := by
  have hfuel' : stepBound n ≤ fuel := (stepBound_mono (Nat.le_succ n)).trans hfuel
  rcases hinv.find_cases hfuel' host with ⟨v, hv, _, hfind⟩ | ⟨hnone, hexists, hfind⟩
  · refine ⟨s, g, ?_, hinv.succ, Or.inl ⟨rfl, by rw [hv]; rfl⟩, rfl⟩
    rw [step, isAddressExist_eq hfind]
    rfl
  · rcases hinv.exists_stores with ⟨elems, hM, hlength, hsome, hkeep⟩
    have hnew : ∀ a ∈ elems, strcmp host a.2.key ≠ 0 := hM.forall_ne_of_not_exists lawful_strcmp
      ((stepBound_mono hlength).trans hfuel') hexists
    rcases hM.insert_new lawful_strcmp ((stepBound_mono (Nat.succ_le_succ hlength)).trans hfuel) hnew
      (some ⟨address, clock s.readings⟩) hz with ⟨pre, post, T', rfl, hinsert, hM'⟩
    refine ⟨{ s with cache := { s.cache with resolvedIps := ⟨T', true⟩ }, readings := s.readings + 1 },
      Function.update g host (some ⟨address, clock s.readings⟩), ?_, Inv.later hclock (inv_insert hM' ?_ hnew hsome hkeep)
      (Nat.le_succ _), Or.inr ⟨rfl, hnone⟩, rfl⟩
    · rw [step, isAddressExist_eq hfind, Option.bind_eq_bind, Option.bind_some, Option.isSome_none,
        if_neg Bool.false_ne_true, addAddress, hexists, Option.bind_eq_bind, Option.bind_some, hinsert]
      rfl
    · simpa using hlength

theorem connectFailed_spec (hinv : Inv clock n s g) (hfuel : stepBound n ≤ fuel) (host : Bytes) :
    ∃ s', step clock fuel steps s (.connectFailed host) = some s' ∧
      Inv clock n s' (Function.update g host none) ∧ s'.answers = s.answers := by
  rcases hinv.exists_stores with ⟨elems, hM, hlength, hsome, hkeep⟩
  rcases hinv.find_cases hfuel host with ⟨v, hv, hexists, hfind⟩ | ⟨hnone, hexists, hfind⟩
  · have hfuel' : stepBound elems.length ≤ fuel := (stepBound_mono hlength).trans hfuel
    rcases hM.remove lawful_strcmp hfuel' (hM.exists_eq_of_exists lawful_strcmp hfuel' hexists) with
      ⟨pre, a, post, T', rfl, hzero, hremove, hM', hmem⟩
    refine ⟨{ s with cache := { s.cache with resolvedIps := ⟨T', true⟩ } }, ?_,
      inv_erase hM' (Nat.le_trans ?_ hlength) (fun b => ?_) hsome hkeep, rfl⟩
    · rw [step, isAddressExist_eq hfind, Option.bind_eq_bind, Option.bind_some, Option.isSome_some, if_pos rfl,
        removeAddress, hexists, Option.bind_eq_bind, Option.bind_some, hremove]
      rfl
    · simp
    · rw [hmem, ne_comm (b := host), Ne, Ne, strcmp_eq_zero_iff]
  · refine ⟨s, ?_, inv_erase hM hlength (fun b => (and_iff_left_of_imp fun hb heq => ?_).symm) hsome hkeep, rfl⟩
    · rw [step, isAddressExist_eq hfind]
      rfl
    · exact hM.forall_ne_of_not_exists lawful_strcmp ((stepBound_mono hlength).trans hfuel) hexists b hb
        (strcmp_eq_zero_iff.2 heq.symm)

/-- An event is served, and the memory goes along. -/
theorem step_spec (hclock : ∀ ⦃t t'⦄, t ≤ t' → clock t ≤ clock t') (hinv : Inv clock n s g) (hfuel : stepBound (n + 1) ≤ fuel)
    (hsteps : roundBound n n < steps) {e : Event α} (hocc : Occurs s e) :
    ∃ s' g', step clock fuel steps s e = some s' ∧ Inv clock (n + 1) s' g' ∧
      Acts s.cache.expireInterval (clock s.readings) g e g' ∧
      s'.answers = s.answers ++ answerTo s.cache.expireInterval (clock s.readings) g e := by
  have hfuel' : stepBound n ≤ fuel := (stepBound_mono (Nat.le_succ n)).trans hfuel
  cases e with
  | lookup host mem =>
      rcases retrieveAddress_spec hclock hinv hfuel' hsteps host mem with ⟨s', hretrieve, hinv', hanswers⟩
      refine ⟨{ s' with answers := s'.answers ++ answerTo s.cache.expireInterval (clock s.readings) g (.lookup host mem) },
        g, ?_, ⟨hinv'.succ.exists_stores⟩, rfl, ?_⟩
      · rw [step, hretrieve]
        rfl
      · rw [← hanswers]
  | resolved host address z =>
      rcases resolved_spec hclock hinv hfuel hocc with ⟨s', g', hstep, hinv', hacts, hanswers⟩
      exact ⟨s', g', hstep, hinv', hacts, hanswers.trans (List.append_nil _).symm⟩
  | connectFailed host =>
      rcases connectFailed_spec hinv hfuel' host with ⟨s', hstep, hinv', hanswers⟩
      exact ⟨s', _, hstep, hinv'.succ, rfl, hanswers.trans (List.append_nil _).symm⟩

/-! ## Runs -/

theorem follows_of_inv (hclock : ∀ ⦃t t'⦄, t ≤ t' → clock t ≤ clock t') {es : List (Event α)} (hinv : Inv clock n s g)
    (hfuel : stepBound (n + es.length) ≤ fuel) (hsteps : roundBound (n + es.length) (n + es.length) < steps)
    (hocc : LegalUntil Occurs (step clock fuel steps) s es) : Follows clock fuel steps s g es := by
  induction es generalizing n s g with
  | nil => exact .nil s g
  | cons e es ih =>
      rw [List.length_cons, Nat.add_comm es.length 1, ← Nat.add_assoc] at hfuel hsteps
      rcases step_spec hclock hinv ((stepBound_mono (Nat.le_add_right _ _)).trans hfuel)
        ((roundBound_mono (by omega) (by omega)).trans_lt hsteps) hocc.1 with
        ⟨s', g', hstep, hinv', hacts, hanswers⟩
      exact .cons hstep hacts hanswers (ih hinv' hfuel hsteps (hocc.2 s' hstep))

end Steps

/-- Whatever is looked up, resolved and given up, and in whatever order: no assertion of the cache fails, the traversal
touches no item that it has taken out, and a lookup is answered with the address that was resolved, unless it is too
old or no connection could be started to it. -/
theorem cache_follows {clock : ℕ → ℤ} (hclock : ∀ ⦃t t'⦄, t ≤ t' → clock t ≤ clock t') {es : List (Event α)} {fuel steps : ℕ}
    (hfuel : stepBound es.length ≤ fuel) (hsteps : roundBound es.length es.length < steps)
    (hocc : LegalUntil Occurs (step clock fuel steps) (start α) es) :
    Follows clock fuel steps (start α) (fun _ => none) es :=
  follows_of_inv hclock (inv_start clock) (by rwa [Nat.zero_add]) (by rwa [Nat.zero_add]) hocc

/-! Two tunnels resolve one name long after another one was resolved, which expires then; and no connection can be
started to a third host. -/

def lateClock (t : ℕ) : ℤ := if t < 2 then 0 else 4000000000

def someEvents : List (Event ℕ) :=
  [.resolved [97] 7 1, .lookup [97] true, .resolved [98] 8 2, .resolved [98] 9 3, .lookup [97] true,
    .resolved [99] 6 3, .connectFailed [99]]

theorem lateClock_mono ⦃t t' : ℕ⦄ (h : t ≤ t') : lateClock t ≤ lateClock t' := by
  unfold lateClock
  split_ifs with hearly hearly'
  · exact le_rfl
  · decide
  · omega
  · exact le_rfl

theorem someEvents_occur : LegalUntil Occurs (step lateClock 16 64) (start ℕ) someEvents := by
  refine ⟨rfl, fun s h => ?_⟩
  cases h
  refine ⟨trivial, fun s h => ?_⟩
  cases h
  refine ⟨rfl, fun s h => ?_⟩
  cases h
  refine ⟨rfl, fun s h => ?_⟩
  cases h
  refine ⟨trivial, fun s h => ?_⟩
  cases h
  refine ⟨rfl, fun s h => ?_⟩
  cases h
  exact ⟨trivial, fun s h => trivial⟩

theorem someEvents_bounds : stepBound someEvents.length ≤ 16 ∧ roundBound someEvents.length someEvents.length < 64 :=
  ⟨stepBound_le _, by decide⟩

theorem cache_follows_two : Follows lateClock 16 64 (start ℕ) (fun _ => none) someEvents :=
  cache_follows lateClock_mono someEvents_bounds.1 someEvents_bounds.2 someEvents_occur

/-- The lookup that meets an entry that is too old takes it out, and leaves the later one in. -/
example : (someEvents.foldlM (step lateClock 16 64) (start ℕ)).map (fun s => s.answers) = some [some 7, none] := rfl

/-! ## Where an answer comes from -/

section Origin

variable {clock : ℕ → ℤ} {n fuel steps : ℕ} {s : State α} {g : Memory α}

/-- The address of a host was resolved in the run, at the time of its stamp, and no connection to the host has failed
to start since. -/
def Stored (clock : ℕ → ℤ) (fuel steps : ℕ) (es : List (Event α)) (host : Bytes) (v : AddressTimestamp α) : Prop :=
  ∃ before z after s₁, es = before ++ .resolved host v.address z :: after ∧
    before.foldlM (step clock fuel steps) (start α) = some s₁ ∧ v.timestamp = clock s₁.readings ∧
    .connectFailed host ∉ after

theorem Stored.snoc {es : List (Event α)} {host : Bytes} {v : AddressTimestamp α} {e : Event α}
    (h : Stored clock fuel steps es host v) (he : e ≠ .connectFailed host) :
    Stored clock fuel steps (es ++ [e]) host v := by
  rcases h with ⟨before, z, after, s₁, rfl, hrun, htime, hafter⟩
  refine ⟨before, z, after ++ [e], s₁, by simp, hrun, htime, ?_⟩
  rw [List.mem_append, List.mem_singleton]
  rintro (hmem | rfl)
  · exact hafter hmem
  · exact he rfl

/-- What is remembered was stored. -/
theorem stored_acts {es : List (Event α)} {interval : ℤ} {g' : Memory α} {e : Event α}
    (hrun : es.foldlM (step clock fuel steps) (start α) = some s)
    (hstored : ∀ host v, g host = some v → Stored clock fuel steps es host v)
    (hacts : Acts interval (clock s.readings) g e g') :
    ∀ host v, g' host = some v → Stored clock fuel steps (es ++ [e]) host v := by
  intro host v hv
  cases e with
  | lookup host' mem =>
      obtain rfl : g' = g := hacts
      exact (hstored host v hv).snoc nofun
  | resolved host' address z =>
      rcases hacts with ⟨rfl, _⟩ | ⟨rfl, _⟩
      · exact (hstored host v hv).snoc nofun
      · by_cases heq : host = host'
        · subst heq
          rw [Function.update_self] at hv
          obtain rfl := Option.some.inj hv
          exact ⟨es, z, [], s, rfl, hrun, rfl, List.not_mem_nil⟩
        · rw [Function.update_of_ne heq] at hv
          exact (hstored host v hv).snoc nofun
  | connectFailed host' =>
      obtain rfl : g' = Function.update g host' none := hacts
      by_cases heq : host = host'
      · subst heq
        rw [Function.update_self] at hv
        cases hv
      · rw [Function.update_of_ne heq] at hv
        exact (hstored host v hv).snoc fun h => heq (Event.connectFailed.inj h).symm

theorem exists_stored (hclock : ∀ ⦃t t'⦄, t ≤ t' → clock t ≤ clock t') {before es : List (Event α)}
    (hrun : before.foldlM (step clock fuel steps) (start α) = some s) (hinv : Inv clock before.length s g)
    (hstored : ∀ host v, g host = some v → Stored clock fuel steps before host v)
    (hfuel : stepBound (before ++ es).length ≤ fuel)
    (hsteps : roundBound (before ++ es).length (before ++ es).length < steps)
    (hocc : LegalUntil Occurs (step clock fuel steps) s es) :
    ∃ s' g', es.foldlM (step clock fuel steps) s = some s' ∧ Inv clock (before ++ es).length s' g' ∧
      ∀ host v, g' host = some v → Stored clock fuel steps (before ++ es) host v := by
  induction es generalizing before s g with
  | nil =>
      rw [List.append_nil]
      exact ⟨s, g, rfl, hinv, hstored⟩
  | cons e es ih =>
      have hlength : before.length + 1 ≤ (before ++ e :: es).length := by simp
      rcases step_spec hclock hinv ((stepBound_mono hlength).trans hfuel)
        ((roundBound_mono (by omega) (by omega)).trans_lt hsteps) hocc.1 with
        ⟨s₁, g₁, hstep, hinv₁, hacts, _⟩
      have hrun₁ : (before ++ [e]).foldlM (step clock fuel steps) (start α) = some s₁ := by
        rw [List.foldlM_append, hrun, Option.bind_eq_bind, Option.bind_some, List.foldlM_cons, hstep]
        rfl
      have hlist : before ++ e :: es = (before ++ [e]) ++ es := by simp
      rw [hlist] at hfuel hsteps ⊢
      rcases ih hrun₁ (by simpa using hinv₁) (stored_acts hrun hstored hacts) hfuel hsteps (hocc.2 s₁ hstep) with
        ⟨s', g', hfold, hinv', hstored'⟩
      refine ⟨s', g', ?_, hinv', hstored'⟩
      rw [List.foldlM_cons, hstep]
      exact hfold

/-- A lookup behind any run is answered with an address that was resolved for this host in the run, not longer than the
interval ago, and the last connection to the host did not fail to start since. -/
theorem retrieveAddress_stored (hclock : ∀ ⦃t t'⦄, t ≤ t' → clock t ≤ clock t') {es : List (Event α)} (hfuel : stepBound es.length ≤ fuel)
    (hsteps : roundBound es.length es.length < steps)
    (hocc : LegalUntil Occurs (step clock fuel steps) (start α) es) (host : Bytes) (mem : Bool) :
    ∃ s s' answer, es.foldlM (step clock fuel steps) (start α) = some s ∧
      retrieveAddress clock fuel steps s host mem = some (s', answer) ∧
      ∀ address, answer = some address → ∃ v, v.address = address ∧ Stored clock fuel steps es host v ∧
        clock s.readings - v.timestamp ≤ s.cache.expireInterval := by
  have hnone : ∀ host v, (fun _ => none : Memory α) host = some v → Stored clock fuel steps [] host v :=
    fun _ _ hv => by cases hv
  have hinv : Inv clock ([] : List (Event α)).length (start α) fun _ => none := inv_start clock
  rcases exists_stored hclock rfl hinv hnone hfuel hsteps hocc with
    ⟨s, g, hrun, hinv, hstored⟩
  rcases retrieveAddress_spec hclock hinv hfuel hsteps host mem with ⟨s', hretrieve, _, _⟩
  refine ⟨s, s', _, hrun, hretrieve, fun address hanswer => ?_⟩
  cases mem with
  | false => cases hanswer
  | true =>
      rw [if_pos rfl, remembered] at hanswer
      rcases Option.bind_eq_some_iff.1 hanswer with ⟨v, hv, hfresh⟩
      by_cases hold : Old s.cache.expireInterval (clock s.readings) v
      · rw [if_pos hold] at hfresh
        cases hfresh
      · rw [if_neg hold] at hfresh
        exact ⟨v, Option.some.inj hfresh, hstored host v hv, not_lt.1 hold⟩

theorem retrieveAddress_stored_two : ∃ s s' answer,
    someEvents.foldlM (step lateClock 16 64) (start ℕ) = some s ∧
      retrieveAddress lateClock 16 64 s [98] true = some (s', answer) ∧
      ∀ address, answer = some address → ∃ v, v.address = address ∧
        Stored lateClock 16 64 someEvents [98] v ∧ lateClock s.readings - v.timestamp ≤ s.cache.expireInterval :=
  retrieveAddress_stored lateClock_mono someEvents_bounds.1 someEvents_bounds.2 someEvents_occur [98] true

end Origin

end IpAddrCache
end SsrNative
