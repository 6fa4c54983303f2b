import SsrNative.Encrypt
import SsrNative.Lib.Recency

/-!
# Cache — the least recently used cache of `cache.c`

The entries of a uthash table stand in the order in which they were added, and are found by the bytes of
their key.  A hit takes the entry out and adds it again, and an insertion that makes the table reach
`max_entries` takes out the first entry, so that the table holds one entry less than its capacity.
-/

namespace SsrNative
namespace Cache

open Bytes
open Lib.Segments
open Lib.Recency

variable {δ : Type}

/-! ## Data -/

/-- `struct cache_entry`; no data is `NULL`. -/
structure CacheEntry (δ : Type) where
  key : Bytes
  data : Option δ

/-- `struct cache`, with the entries in the order of the table. -/
structure CacheState (δ : Type) where
  maxEntries : ℕ
  entries : List (CacheEntry δ)

def cacheCreate (capacity : ℕ) : CacheState δ := ⟨capacity, []⟩

def CacheState.keys (c : CacheState δ) : List Bytes := c.entries.map CacheEntry.key

/-- `HASH_FIND`. -/
def hashFind (entries : List (CacheEntry δ)) (key : Bytes) : Option (CacheEntry δ) :=
  entries.find? fun e => decide (e.key = key)

/-- `HASH_DELETE` of what was found. -/
def hashDelete (entries : List (CacheEntry δ)) (key : Bytes) : List (CacheEntry δ) :=
  entries.eraseP fun e => decide (e.key = key)

/-! ## Operations -/

def cacheRemove (c : CacheState δ) (key : Bytes) : CacheState δ :=
  match hashFind c.entries key with
  | some _ => { c with entries := hashDelete c.entries key }
  | none => c

def cacheLookup (c : CacheState δ) (key : Bytes) : CacheState δ × Option δ :=
  match hashFind c.entries key with
  | some e => ({ c with entries := hashDelete c.entries key ++ [e] }, e.data)
  | none => (c, none)

def cacheKeyExist (c : CacheState δ) (key : Bytes) : CacheState δ × Bool :=
  match hashFind c.entries key with
  | some e => ({ c with entries := hashDelete c.entries key ++ [e] }, true)
  | none => (c, false)

def cacheInsert (c : CacheState δ) (key : Bytes) (data : Option δ) : CacheState δ :=
  let entries := c.entries ++ [⟨key, data⟩]
  -- the loop over the table stops behind its first entry
  if c.maxEntries ≤ entries.length then { c with entries := entries.tail }
  else { c with entries := entries }

inductive Op (δ : Type) where
  | keyExist (key : Bytes)
  | lookup (key : Bytes)
  | remove (key : Bytes)
  | insert (key : Bytes) (data : Option δ)

inductive Reply (δ : Type) where
  | exist (b : Bool)
  | data (data : Option δ)
  | done

def step (c : CacheState δ) : Op δ → CacheState δ × Reply δ
  | .keyExist key => ((cacheKeyExist c key).1, .exist (cacheKeyExist c key).2)
  | .lookup key => ((cacheLookup c key).1, .data (cacheLookup c key).2)
  | .remove key => (cacheRemove c key, .done)
  | .insert key data => (cacheInsert c key data, .done)

/-- The cache after a sequence of calls. -/
def after (c : CacheState δ) (ops : List (Op δ)) : CacheState δ := (run step c ops).1

/-! ## What the calls use -/

/-- The key that a call inserts or touches, if it does. -/
def used (c : CacheState δ) : Op δ → List Bytes
  | .keyExist key => if (hashFind c.entries key).isSome then [key] else []
  | .lookup key => if (hashFind c.entries key).isSome then [key] else []
  | .remove _ => []
  | .insert key _ => [key]

def usedAll (c : CacheState δ) : List (Op δ) → List Bytes
  | [] => []
  | op :: ops => used c op ++ usedAll (step c op).1 ops

/-- `cache_key_exist` would be negative for every key at its insertion. -/
def Guarded (c : CacheState δ) : List (Op δ) → Prop
  | [] => True
  | .insert key data :: ops =>
      (cacheKeyExist c key).2 = false ∧ Guarded (step c (.insert key data)).1 ops
  | op :: ops => Guarded (step c op).1 ops

/-- The call inserts a key, and `key` is no longer there. -/
def Evicts (c : CacheState δ) (op : Op δ) (key : Bytes) : Prop :=
  ∃ new data, op = .insert new data ∧ key ∈ c.keys ++ [new] ∧ key ∉ (step c op).1.keys

/-- What a call does to the keys. -/
def Op.event : Op δ → Event Bytes
  | .keyExist key => .touch key
  | .lookup key => .touch key
  | .remove key => .remove key
  | .insert key _ => .insert key

/-! ## The keys of the table -/

section Keys

variable (c : CacheState δ) (key : Bytes)

theorem hashFind_key {entries : List (CacheEntry δ)} {e : CacheEntry δ}
    (h : hashFind entries key = some e) : e.key = key := by
  simpa using List.find?_some h

theorem hashFind_isSome_iff : (hashFind c.entries key).isSome = true ↔ key ∈ c.keys := by
  simp [hashFind, CacheState.keys]

theorem map_hashDelete (entries : List (CacheEntry δ)) :
    (hashDelete entries key).map CacheEntry.key = (entries.map CacheEntry.key).erase key := by
  induction entries with
  | nil => rfl
  | cons e entries ih =>
      by_cases he : e.key = key
      · simp [hashDelete, he]
      · have hrec : (entries.eraseP fun e => decide (e.key = key)).map CacheEntry.key =
            (entries.map CacheEntry.key).erase key := ih
        rw [List.map_cons, List.erase_cons_tail (by simpa using he), hashDelete,
          List.eraseP_cons_of_neg (by simpa using he), List.map_cons, hrec]

theorem keys_of_hashFind_some {e : CacheEntry δ} (h : hashFind c.entries key = some e) :
    (⟨c.maxEntries, hashDelete c.entries key ++ [e]⟩ : CacheState δ).keys =
      act c.maxEntries c.keys (.touch key) := by
  have hmem : key ∈ c.keys := (hashFind_isSome_iff c key).1 (by rw [h]; rfl)
  rw [act, if_pos hmem, CacheState.keys, List.map_append, map_hashDelete, List.map_singleton,
    hashFind_key key h]
  rfl

theorem keys_of_hashFind_none (h : hashFind c.entries key = none) : key ∉ c.keys := by
  intro hmem
  rw [← hashFind_isSome_iff, h] at hmem
  cases hmem

theorem cacheKeyExist_keys : (cacheKeyExist c key).1.keys = act c.maxEntries c.keys (.touch key) := by
  unfold cacheKeyExist
  cases h : hashFind c.entries key with
  | some e => exact keys_of_hashFind_some c key h
  | none => simp [act, keys_of_hashFind_none c key h]

theorem cacheLookup_keys : (cacheLookup c key).1.keys = act c.maxEntries c.keys (.touch key) := by
  unfold cacheLookup
  cases h : hashFind c.entries key with
  | some e => exact keys_of_hashFind_some c key h
  | none => simp [act, keys_of_hashFind_none c key h]

theorem cacheRemove_keys : (cacheRemove c key).keys = act c.maxEntries c.keys (.remove key) := by
  cases h : hashFind c.entries key with
  | some e =>
      have hval : cacheRemove c key = ⟨c.maxEntries, hashDelete c.entries key⟩ := by
        simp only [cacheRemove, h]
      rw [hval]
      exact map_hashDelete key c.entries
  | none =>
      have hval : cacheRemove c key = c := by simp only [cacheRemove, h]
      rw [hval]
      exact (List.erase_of_not_mem (keys_of_hashFind_none c key h)).symm

theorem cacheInsert_keys (data : Option δ) :
    (cacheInsert c key data).keys = act c.maxEntries c.keys (.insert key) := by
  have hkeys : (c.entries ++ [(⟨key, data⟩ : CacheEntry δ)]).map CacheEntry.key = c.keys ++ [key] := by
    simp [CacheState.keys]
  simp only [cacheInsert, act, ← hkeys, List.length_map]
  split_ifs with hfull
  · exact List.map_tail
  · rfl

theorem cacheKeyExist_snd_iff : (cacheKeyExist c key).2 = true ↔ key ∈ c.keys := by
  rw [← hashFind_isSome_iff]
  unfold cacheKeyExist
  cases hashFind c.entries key with
  | some e => exact Iff.rfl
  | none => exact Iff.rfl

theorem step_maxEntries (op : Op δ) : (step c op).1.maxEntries = c.maxEntries := by
  cases op with
  | keyExist key =>
      simp only [step, cacheKeyExist]
      cases hashFind c.entries key <;> rfl
  | lookup key =>
      simp only [step, cacheLookup]
      cases hashFind c.entries key <;> rfl
  | remove key =>
      simp only [step, cacheRemove]
      cases hashFind c.entries key <;> rfl
  | insert key data =>
      simp only [step, cacheInsert]
      split_ifs <;> rfl

/-- Every call is the event on the keys. -/
theorem step_keys (op : Op δ) : (step c op).1.keys = act c.maxEntries c.keys op.event := by
  cases op with
  | keyExist key => exact cacheKeyExist_keys c key
  | lookup key => exact cacheLookup_keys c key
  | remove key => exact cacheRemove_keys c key
  | insert key data => exact cacheInsert_keys c key data

theorem used_eq_uses (op : Op δ) : used c op = uses c.keys op.event := by
  cases op with
  | keyExist key => exact if_congr (hashFind_isSome_iff c key) rfl rfl
  | lookup key => exact if_congr (hashFind_isSome_iff c key) rfl rfl
  | remove key => rfl
  | insert key data => rfl

/-- The IV cache of the stream ciphers is such a cache without data. -/
theorem ivCache_keyExist :
    SsrNative.cacheKeyExist c.keys key = ((cacheKeyExist c key).1.keys, (cacheKeyExist c key).2) := by
  rw [cacheKeyExist_keys]
  by_cases hmem : key ∈ c.keys
  · rw [(cacheKeyExist_snd_iff c key).2 hmem]
    simp [SsrNative.cacheKeyExist, act, hmem]
  · have hval : (cacheKeyExist c key).2 = false := by
      rw [← Bool.not_eq_true, cacheKeyExist_snd_iff]
      exact hmem
    rw [hval]
    simp [SsrNative.cacheKeyExist, act, hmem]

theorem ivCache_insert (hmax : c.maxEntries = IV_CACHE_SIZE) :
    SsrNative.cacheInsert c.keys key = (cacheInsert c key none).keys := by
  rw [cacheInsert_keys, hmax]
  simp only [SsrNative.cacheInsert, act, List.drop_one]

end Keys

/-! ## Every sequence of calls -/

section Run

variable (c : CacheState δ) (ops : List (Op δ))

theorem after_keys :
    (after c ops).keys = actAll c.maxEntries c.keys (ops.map Op.event) ∧
      (after c ops).maxEntries = c.maxEntries := by
  induction ops generalizing c with
  | nil => exact ⟨rfl, rfl⟩
  | cons op ops ih =>
      have hrec := ih (step c op).1
      rw [step_keys, step_maxEntries] at hrec
      exact hrec

theorem usedAll_eq_usesAll :
    usedAll c ops = usesAll c.maxEntries c.keys (ops.map Op.event) := by
  induction ops generalizing c with
  | nil => rfl
  | cons op ops ih =>
      rw [usedAll, ih, used_eq_uses, step_keys, step_maxEntries]
      rfl

theorem guarded_iff_freshAll :
    Guarded c ops ↔ FreshAll c.maxEntries c.keys (ops.map Op.event) := by
  have hinsert : ∀ (c : CacheState δ) key, (cacheKeyExist c key).2 = false ↔ key ∉ c.keys := by
    intro c key
    rw [← cacheKeyExist_snd_iff, Bool.not_eq_true]
  induction ops generalizing c with
  | nil => exact Iff.rfl
  | cons op ops ih =>
      have hrec := ih (step c op).1
      rw [step_keys, step_maxEntries] at hrec
      cases op with
      | keyExist key => exact hrec.trans (and_iff_right trivial).symm
      | lookup key => exact hrec.trans (and_iff_right trivial).symm
      | remove key => exact hrec.trans (and_iff_right trivial).symm
      | insert key data => exact and_congr (hinsert c key) hrec

theorem after_append (ops' : List (Op δ)) : after c (ops ++ ops') = after (after c ops) ops' := by
  simp only [after, run_append]

theorem usedAll_append (ops' : List (Op δ)) :
    usedAll c (ops ++ ops') = usedAll c ops ++ usedAll (after c ops) ops' := by
  rw [usedAll_eq_usesAll, usedAll_eq_usesAll, usedAll_eq_usesAll, List.map_append, usesAll_append,
    (after_keys c ops).1, (after_keys c ops).2]

theorem guarded_append (ops' : List (Op δ)) :
    Guarded c (ops ++ ops') ↔ Guarded c ops ∧ Guarded (after c ops) ops' := by
  rw [guarded_iff_freshAll, guarded_iff_freshAll, guarded_iff_freshAll, List.map_append,
    freshAll_append, (after_keys c ops).1, (after_keys c ops).2]

/-- What `ss_decrypt` does: a negative answer, and the insertion. -/
theorem guarded_check {key : Bytes} (h : (cacheKeyExist c key).2 = false) (data : Option δ) :
    Guarded c [.keyExist key, .insert key data] := by
  have hnone : hashFind c.entries key = none := by
    rw [← Option.not_isSome_iff_eq_none, hashFind_isSome_iff, ← cacheKeyExist_snd_iff, h]
    exact Bool.false_ne_true
  have hsame : (step c (.keyExist key)).1 = c := by
    simp only [step, cacheKeyExist, hnone]
  exact ⟨by rw [hsame]; exact h, trivial⟩

variable {ops}

theorem window_of_guarded {max : ℕ} (hmax : 2 ≤ max) (h : Guarded (cacheCreate max) ops) :
    Window max (usedAll (cacheCreate max) ops) (after (cacheCreate max) ops).keys := by
  have hstart : Window max ([] : List Bytes) [] := window_nil (Nat.le_of_succ_le hmax)
  rw [usedAll_eq_usesAll, (after_keys _ ops).1]
  exact hstart.actAll ((guarded_iff_freshAll _ _).1 h)

end Run

/-- With guarded insertions the cache is a window of the keys used last: it stays below its capacity and
has no key twice, an eviction takes the key whose last use is the longest ago, and a key stays until as
many others were used as there is room for, or until it is removed. -/
theorem cache_lru_window (max : ℕ) (hmax : 2 ≤ max) (ops : List (Op δ))
    (hguard : Guarded (cacheCreate max) ops) :
    (after (cacheCreate max) ops).entries.length ≤ max - 1 ∧
      (after (cacheCreate max) ops).keys.Nodup ∧
      ∀ pre op post, ops = pre ++ op :: post →
        (∀ key, Evicts (after (cacheCreate max) pre) op key →
          ∀ j ∈ (after (cacheCreate max) (pre ++ [op])).keys,
            LessRecent (usedAll (cacheCreate max) (pre ++ [op])) key j) ∧
        ∀ key ∈ used (after (cacheCreate max) pre) op, .remove key ∉ post →
          ((usedAll (after (cacheCreate max) (pre ++ [op])) post).toFinset.erase key).card < max - 1 →
          (cacheKeyExist (after (cacheCreate max) ops) key).2 = true := by
  have hwindow := window_of_guarded hmax hguard
  refine ⟨?_, hwindow.nodup, ?_⟩
  · have hlen := hwindow.length_lt
    rw [CacheState.keys, List.length_map] at hlen
    omega
  · rintro pre op post rfl
    obtain ⟨hpre, hrest⟩ := (guarded_append _ _ _).1 hguard
    have hw := window_of_guarded hmax hpre
    have hbound := (after_keys (cacheCreate (δ := δ) max) pre).2
    have hpost : (after (cacheCreate max) (pre ++ [op])) = (step (after (cacheCreate max) pre) op).1 := by
      rw [after_append]
      rfl
    -- the run is split at `op`: `Window` holds in front of it, and what follows starts behind it
    constructor
    · rintro key ⟨new, data, rfl, hmem, hgone⟩ j hj
      rw [hpost, step_keys, hbound] at hj
      rw [step_keys, hbound] at hgone
      have hfresh := ((guarded_iff_freshAll _ _).1 hrest).1
      rw [usedAll_append]
      exact hw.evicts_least hfresh hmem hgone j hj
    · intro key hkey hkeep hfew
      rw [cacheKeyExist_snd_iff, after_append, (after_keys _ _).1, hbound]
      rw [hpost, usedAll_eq_usesAll, step_keys, step_maxEntries, hbound] at hfew
      have hfresh := (guarded_iff_freshAll _ _).1 hrest
      rw [hbound] at hfresh
      rw [used_eq_uses] at hkey
      refine mem_of_used_since hmax hw hfresh hkey ?_ hfew
      rw [List.mem_map]
      -- only a removal is the event of a removal
      rintro ⟨op', hop', hevent⟩
      cases op' with
      | remove key' =>
          cases hevent
          exact hkeep hop'
      | keyExist key' => cases hevent
      | lookup key' => cases hevent
      | insert key' data => cases hevent

/-- The key 2 is the oldest when 3 is inserted, because 1 was touched behind it. -/
def sampleOps : List (Op Unit) :=
  [.insert [1] none, .insert [2] none, .keyExist [1], .lookup [7], .insert [3] none]

theorem cache_lru_window_sample :
    (after (cacheCreate 3) sampleOps).entries.length ≤ 2 ∧
      (cacheKeyExist (after (cacheCreate 3) sampleOps) [1]).2 = true := by
  have hguard : Guarded (cacheCreate 3) sampleOps := ⟨rfl, rfl, rfl, trivial⟩
  obtain ⟨hlen, -, hrun⟩ := cache_lru_window 3 (by decide) sampleOps hguard
  have hstays := (hrun [.insert [1] none, .insert [2] none] (.keyExist [1])
    [.lookup [7], .insert [3] none] rfl).2
  exact ⟨hlen, hstays [1] (by decide) (by simp) (by decide)⟩

/-- A key is inserted and removed: no other key was used since, and it is not there. -/
theorem removed_key_absent :
    Guarded (cacheCreate 256) ([.insert [1] none, .remove [1]] : List (Op Unit)) ∧
      [1] ∈ used (cacheCreate 256) (.insert [1] none : Op Unit) ∧
      ((usedAll (after (cacheCreate 256) [.insert [1] none]) ([.remove [1]] : List (Op Unit))).toFinset.erase
        [1]).card < 256 - 1 ∧
      (cacheKeyExist (after (cacheCreate 256) ([.insert [1] none, .remove [1]] : List (Op Unit)))
        [1]).2 = false :=
  ⟨⟨rfl, trivial⟩, by decide, by decide, by decide⟩

end Cache
end SsrNative
