import SsrNative.CipherNames
import SsrNative.KeyDerivation
import SsrNative.Lib.Rc4
import SsrNative.Lib.Rearrange
import SsrNative.Lib.Segments

/-!
# TableCipher — the table method

`enc_table_init` of `encrypt.c` sorts the bytes 1023 times with a comparison that depends on the password,
and is no order; `ss_encrypt`, `ss_decrypt` and their variants for datagrams replace each byte by its place
in the table.  `merge_sort` halves a range with a length of eight bits.
-/

namespace SsrNative
namespace TableCipher

open Bytes
open CipherNames (SsCipherType)
open KeyDerivation (Digest)
open Lib.Memory (load store load_field store_field)
open Lib.Rearrange
open Lib.Segments (run)

/-! ## Sorting -/

/-- `random_compare`: the remainders are of 64 bits, their difference is cast to an `int`. -/
def randomCompare (i : UInt32) (a : UInt64) (x y : UInt8) : ℤ :=
  (a % (x.toUInt32 + i).toUInt64 - a % (y.toUInt32 + i).toUInt64).toUInt32.toBitVec.toInt

section Sorting

variable (cmp : UInt8 → UInt8 → ℤ)

/-- `merge(array + start, llength, array + start + llength, rlength)`. -/
def merge (array : Bytes) (start llength rlength : ℕ) : Option Bytes := do
  let ltmp ← load array start llength
  let rtmp ← load array (start + llength) rlength
  store array start (mergeBy cmp ltmp rtmp)

/-- `(uint8_t)(length / 2)`. -/
def middle (length : ℕ) : ℕ := (UInt8.ofNat (length / 2)).toNat

/-- `merge_sort(array + start, length)`; there is no result when the recursion is deeper than `fuel`. -/
def mergeSort : ℕ → Bytes → ℕ → ℕ → Option Bytes
  | 0, _, _, _ => none
  | fuel + 1, array, start, length =>
      if length ≤ 1 then some array
      else do
        let llength := length - middle length
        let array ← mergeSort fuel array start llength
        let array ← mergeSort fuel array (start + llength) (middle length)
        merge cmp array start llength (middle length)

end Sorting

/-! ## The tables -/

/-- `struct cipher_env_t`, without what the other methods use. -/
structure CipherEnv where
  encTable : Bytes
  decTable : Bytes
  encKey : Bytes
  encKeyLen : ℕ
  encIvLen : ℕ
  encMethod : SsCipherType

def MAX_KEY_LENGTH : ℕ := 64

/-- `OFFSET_ROL`. -/
def offsetRol (p : Bytes) (o : ℕ) : UInt64 := (byteAt p o).toUInt64 <<< UInt64.ofNat (8 * o)

/-- The sum over eight bytes of the digest. -/
def tableKey (digest : Bytes) : UInt64 := (List.range 8).foldl (fun key i => key + offsetRol digest i) 0

def identityTable : Bytes := (List.range 256).map UInt8.ofNat

/-- The loop over the salts. -/
def encTableOf (digest : Bytes) : Option Bytes :=
  (List.range' 1 1023).foldlM
    (fun table i => mergeSort (randomCompare (UInt32.ofNat i) (tableKey digest)) 256 table 0 256) identityTable

/-- The loop that inverts the table. -/
def decTableOf (encTable : Bytes) : Bytes :=
  scatter (fun i => (byteAt encTable i).toNat) UInt8.ofNat (List.replicate 256 0) 256

/-- `enc_table_init`; there is no result when the password does not fit into `enc_key`.  Without a cipher
`bytes_to_key` gives sixteen bytes. -/
def encTableInit (D : Digest) (method : SsCipherType) (pass : Bytes) : Option CipherEnv := do
  let encTable ← encTableOf (D.run pass)
  let key := if method = .table then pass else D.run pass
  let encKey ← store (List.replicate MAX_KEY_LENGTH 0) 0 key
  return ⟨encTable, decTableOf encTable, encKey, key.length, 0, method⟩

/-! ## Encryption -/

/-- The loop over a buffer. -/
def substitute (table b : Bytes) : Bytes := b.map fun x => byteAt table x.toNat

/-- The ciphers of the crypto library.  `stream` is what the functions do with a context. -/
structure Library where
  Info : Type
  Ctx : Type
  cipherInfoFromString : Bytes → Option Info
  setup : Info → Option Ctx
  stream : CipherEnv → Ctx → Bytes → Bytes
  /-- `mbedtls_cipher_info_from_string` knows no cipher of this name. -/
  table_unknown : cipherInfoFromString (ascii "table") = none

section Library

variable (L : Library) (env : CipherEnv)

/-- `enc_ctx_new_instance` for a method below salsa20, by way of `cipher_context_init`; there is no result
when `FATAL` ends the program. -/
def encCtxNewInstance (name : Bytes) : Option L.Ctx := (L.cipherInfoFromString name).bind L.setup

/-- `ss_encrypt_all` for the methods of which this file is. -/
def ssEncryptAll (plain : Bytes) : Bytes :=
  if env.encMethod = .table then substitute env.encTable plain else plain

def ssDecryptAll (cipher : Bytes) : Bytes :=
  if env.encMethod = .table then substitute env.decTable cipher else cipher

/-- `ss_encrypt`; `none` is the context `NULL`. -/
def ssEncrypt (plain : Bytes) (ctx : Option L.Ctx) : Bytes :=
  ctx.elim (if env.encMethod = .table then substitute env.encTable plain else plain) fun ctx =>
    L.stream env ctx plain

def ssDecrypt (cipher : Bytes) (ctx : Option L.Ctx) : Bytes :=
  ctx.elim (if env.encMethod = .table then substitute env.decTable cipher else cipher) fun ctx =>
    L.stream env ctx cipher

end Library

/-! ## The sort -/

/-- None of the salts makes a divisor zero. -/
theorem divisor_pos (x : UInt8) {i : ℕ} (hi : i ∈ List.range' 1 1023) :
    0 < (x.toUInt32 + UInt32.ofNat i).toUInt64.toNat := by
  have hx := x.toNat_lt
  rw [List.mem_range'_1] at hi
  rw [UInt32.toNat_toUInt64, UInt32.toNat_add, UInt8.toNat_toUInt32, UInt32.toNat_ofNat']
  omega

theorem middle_eq {length : ℕ} (h : length < 512) : middle length = length / 2 := by
  rw [middle, UInt8.toNat_ofNat']
  omega

/-- The calls that a call makes, directly or through others, each by where its range starts and how long
it is. -/
inductive Called (call : ℕ × ℕ) : ℕ × ℕ → Prop where
  | self : Called call call
  | left {start length : ℕ} (h : Called call (start, length)) (hlong : ¬ length ≤ 1) :
      Called call (start, length - middle length)
  | right {start length : ℕ} (h : Called call (start, length)) (hlong : ¬ length ≤ 1) :
      Called call (start + (length - middle length), middle length)

/-- A call gets a part of the table; its own calls get the two halves of it, and both are shorter. -/
structure Covers (start length : ℕ) : Prop where
  inside : start + length ≤ 256
  middle_eq : middle length = length / 2
  halves : length - middle length + middle length = length
  shorter : 1 < length → length - middle length < length ∧ middle length < length

theorem covers_of_le {start length : ℕ} (h : start + length ≤ 256) : Covers start length := by
  have hmiddle := middle_eq (show length < 512 by omega)
  refine ⟨h, hmiddle, ?_, fun hlong => ⟨?_, ?_⟩⟩
  all_goals omega

theorem Called.inside {call : ℕ × ℕ} (h : Called (0, 256) call) : call.1 + call.2 ≤ 256 := by
  induction h with
  | self => exact Nat.le_refl _
  | left _ _ ih =>
      have hhalves := (covers_of_le ih).halves
      dsimp only at ih hhalves ⊢
      omega
  | right _ _ ih =>
      have hhalves := (covers_of_le ih).halves
      dsimp only at ih hhalves ⊢
      omega

section Sorting

variable (cmp : UInt8 → UInt8 → ℤ)

theorem merge_fields {a b c l : Bytes} {start llength rlength : ℕ} (ha : a.length = start)
    (hb : b.length = llength) (hc : c.length = rlength) :
    merge cmp (a ++ (b ++ (c ++ l))) start llength rlength = some (a ++ (mergeBy cmp b c ++ l)) := by
  have hleft : load (a ++ (b ++ (c ++ l))) start llength = some b := load_field ha hb
  have hright : load (a ++ (b ++ (c ++ l))) (start + llength) rlength = some c := by
    have hfront : (a ++ b).length = start + llength := by rw [List.length_append, ha, hb]
    rw [← List.append_assoc]
    exact load_field hfront hc
  have hstore : store (a ++ (b ++ (c ++ l))) start (mergeBy cmp b c) = some (a ++ (mergeBy cmp b c ++ l)) := by
    rw [← List.append_assoc b]
    exact store_field ha (by rw [List.length_append, mergeBy_length])
  rw [merge, hleft, hright, Option.bind_eq_bind, Option.bind_some, Option.bind_some, hstore]

/-- With enough fuel for its length a call ends, and rearranges its range only.  The induction is on the
fuel; both halves are shorter than the range. -/
theorem mergeSort_perm {fuel start length : ℕ} {a b l : Bytes} (ha : a.length = start) (hb : b.length = length)
    (hlength : length < 512) (hsome : 1 ≤ fuel) (hfuel : length ≤ fuel) :
    ∃ sorted : Bytes, mergeSort cmp fuel (a ++ (b ++ l)) start length = some (a ++ (sorted ++ l)) ∧ sorted.Perm b := by
  induction fuel generalizing start length a b l with
  | zero => omega
  | succ fuel ih =>
      by_cases hshort : length ≤ 1
      · exact ⟨b, by rw [mergeSort, if_pos hshort], .refl b⟩
      have hmiddle := middle_eq hlength
      -- the halves
      have hleft : (b.take (length - middle length)).length = length - middle length := by
        rw [List.length_take]
        omega
      have hright : (b.drop (length - middle length)).length = middle length := by
        rw [List.length_drop]
        omega
      have hhalves : b.take (length - middle length) ++ b.drop (length - middle length) = b :=
        List.take_append_drop _ _
      rcases ih (l := b.drop (length - middle length) ++ l) ha hleft (by omega) (by omega) (by omega) with
        ⟨c, hc, hperm⟩
      have hclen : c.length = length - middle length := hperm.length_eq.trans hleft
      have hfront : (a ++ c).length = start + (length - middle length) := by rw [List.length_append, ha, hclen]
      rcases ih (l := l) hfront hright (by omega) (by omega) (by omega) with ⟨d, hd, hperm'⟩
      have hdlen : d.length = middle length := hperm'.length_eq.trans hright
      rw [← List.append_assoc (b.take _), hhalves] at hc
      rw [List.append_assoc, List.append_assoc] at hd
      refine ⟨mergeBy cmp c d, ?_, ?_⟩
      · rw [mergeSort, if_neg hshort]
        simp only [hc, hd, Option.bind_eq_bind, Option.bind_some]
        exact merge_fields cmp ha hclen hdlen
      · have hsorted := (mergeBy_perm cmp c d).trans (hperm.append hperm')
        rwa [hhalves] at hsorted

end Sorting

/-! ## The tables -/

theorem identityTable_length : identityTable.length = 256 := by
  rw [identityTable, List.length_map, List.length_range]

theorem identityTable_nodup : identityTable.Nodup := by
  refine List.nodup_range.map_on fun i hi j hj heq => ?_
  have hnum := congrArg UInt8.toNat heq
  rw [List.mem_range] at hi hj
  rwa [UInt8.toNat_ofNat', UInt8.toNat_ofNat', Nat.mod_eq_of_lt hi, Nat.mod_eq_of_lt hj] at hnum

theorem mem_identityTable (x : UInt8) : x ∈ identityTable :=
  List.mem_map.2 ⟨x.toNat, List.mem_range.2 x.toNat_lt, UInt8.ofNat_toNat⟩

/-- All salts together rearrange the bytes. -/
theorem encTableOf_perm (digest : Bytes) : ∃ table, encTableOf digest = some table ∧ table.Perm identityTable := by
  rw [encTableOf]
  -- one salt after the other, from any arrangement
  have hrun : ∀ (salts : List ℕ) (table : Bytes), table.Perm identityTable →
      ∃ table', salts.foldlM (fun table i =>
        mergeSort (randomCompare (UInt32.ofNat i) (tableKey digest)) 256 table 0 256) table = some table' ∧
        table'.Perm identityTable := by
    intro salts
    induction salts with
    | nil => exact fun table hperm => ⟨table, rfl, hperm⟩
    | cons i salts ih =>
        intro table hperm
        have hlen : table.length = 256 := hperm.length_eq.trans identityTable_length
        rcases mergeSort_perm (randomCompare (UInt32.ofNat i) (tableKey digest)) (a := []) (l := [])
          List.length_nil hlen (by decide) (by decide : 1 ≤ 256) (Nat.le_refl _) with ⟨sorted, hsorted, hperm'⟩
        rw [List.nil_append, List.nil_append, List.append_nil, List.append_nil] at hsorted
        rcases ih sorted (hperm'.trans hperm) with ⟨table', hrest, hperm''⟩
        refine ⟨table', ?_, hperm''⟩
        rw [List.foldlM_cons, hsorted, Option.bind_eq_bind, Option.bind_some]
        exact hrest
  exact hrun _ _ (.refl _)

/-- The two tables undo each other. -/
structure Inverse (enc dec : Bytes) : Prop where
  dec_enc : ∀ x : UInt8, byteAt dec (byteAt enc x.toNat).toNat = x
  enc_dec : ∀ x : UInt8, byteAt enc (byteAt dec x.toNat).toNat = x

theorem decTableOf_inverse {enc : Bytes} (h : enc.Perm identityTable) : Inverse enc (decTableOf enc) := by
  have hlen : enc.length = 256 := h.length_eq.trans identityTable_length
  have hnodup : enc.Nodup := h.nodup_iff.2 identityTable_nodup
  have hcell : ∀ {i : ℕ} (hi : i < enc.length), byteAt enc i = enc[i] := by
    intro i hi
    rw [byteAt, List.getD_eq_getElem?_getD, List.getElem?_eq_getElem hi, Option.getD_some]
  -- no place is named twice
  have hplaces : ∀ i < 256, ∀ j < 256, (byteAt enc i).toNat = (byteAt enc j).toNat → i = j := by
    intro i hi j hj heq
    have hsame := UInt8.toNat_inj.1 heq
    rw [hcell (hlen ▸ hi), hcell (hlen ▸ hj)] at hsame
    exact (hnodup.getElem_inj_iff).1 hsame
  have hdec : ∀ i < 256, byteAt (decTableOf enc) (byteAt enc i).toNat = UInt8.ofNat i := by
    intro i hi
    have hroom : ∀ j < 256, (byteAt enc j).toNat < (List.replicate 256 (0 : UInt8)).length := by
      intro j _
      rw [List.length_replicate]
      exact (byteAt enc j).toNat_lt
    have hfound := scatter_getElem? (g := UInt8.ofNat) hroom hplaces hi
    rw [byteAt, List.getD_eq_getElem?_getD, decTableOf, hfound, Option.getD_some]
  constructor
  · intro x
    rw [hdec _ x.toNat_lt, UInt8.ofNat_toNat]
  · intro x
    -- `x` stands somewhere in the table
    rcases List.getElem_of_mem (h.mem_iff.2 (mem_identityTable x)) with ⟨i, hi, rfl⟩
    have hi' : i < 256 := hlen ▸ hi
    have hback := hdec i hi'
    rw [hcell hi] at hback
    rw [hback, UInt8.toNat_ofNat', Nat.mod_eq_of_lt hi', hcell hi]

/-- A password that fits into its array gives these tables. -/
theorem encTableInit_table (D : Digest) {pass : Bytes} (h : pass.length ≤ MAX_KEY_LENGTH) :
    ∃ env enc, encTableInit D .table pass = some env ∧ encTableOf (D.run pass) = some enc ∧
      env.encTable = enc ∧ env.decTable = decTableOf enc ∧ env.encMethod = .table := by
  rcases encTableOf_perm (D.run pass) with ⟨enc, htable, -⟩
  have hkey : store (List.replicate MAX_KEY_LENGTH (0 : UInt8)) 0 pass =
      some (pass ++ List.replicate (MAX_KEY_LENGTH - pass.length) 0) := by
    have hcat : List.replicate MAX_KEY_LENGTH (0 : UInt8) =
        [] ++ (List.replicate pass.length 0 ++ List.replicate (MAX_KEY_LENGTH - pass.length) 0) := by
      rw [List.nil_append, List.replicate_append_replicate, Nat.add_sub_cancel' h]
    rw [hcat]
    exact store_field (a := []) rfl List.length_replicate
  refine ⟨⟨enc, decTableOf enc, pass ++ List.replicate (MAX_KEY_LENGTH - pass.length) 0, pass.length, 0, .table⟩,
    enc, ?_, htable, rfl, by dsimp only, rfl⟩
  have hpass : (if SsCipherType.table = .table then pass else D.run pass) = pass := if_pos rfl
  rw [encTableInit, htable, Option.bind_eq_bind, Option.bind_some, hpass]
  dsimp only
  rw [hkey, Option.bind_some, Option.pure_def]

/-! ## Round trips -/

theorem substitute_inverse {enc dec : Bytes} (h : Inverse enc dec) (b : Bytes) :
    substitute dec (substitute enc b) = b := by
  rw [substitute, substitute, List.map_map]
  exact (List.map_congr_left fun x _ => h.dec_enc x).trans (List.map_id b)

/-- No context is made for this method. -/
theorem encCtxNewInstance_table (L : Library) : encCtxNewInstance L (ascii "table") = none := by
  rw [encCtxNewInstance, L.table_unknown]
  rfl

/-- Whichever of the functions encrypts and decrypts, the plaintext is found again. -/
structure RoundTrips (L : Library) (env : CipherEnv) (encCtx decCtx : Option L.Ctx) (plain : Bytes) : Prop where
  all_all : ssDecryptAll env (ssEncryptAll env plain) = plain
  all_ctx : ssDecrypt L env (ssEncryptAll env plain) decCtx = plain
  ctx_all : ssDecryptAll env (ssEncrypt L env plain encCtx) = plain
  ctx_ctx : ssDecrypt L env (ssEncrypt L env plain encCtx) decCtx = plain

/-- A context of `struct enc_ctx *`: `NULL`, or what `enc_ctx_new_instance` has made. -/
def Obtained (L : Library) (name : Bytes) (ctx : Option L.Ctx) : Prop :=
  ctx = none ∨ ∃ c, encCtxNewInstance L name = some c ∧ ctx = some c

theorem roundTrips {L : Library} {env : CipherEnv} (hmethod : env.encMethod = .table)
    (hinv : Inverse env.encTable env.decTable) {encCtx decCtx : Option L.Ctx}
    (henc : Obtained L (ascii "table") encCtx) (hdec : Obtained L (ascii "table") decCtx) (plain : Bytes) :
    RoundTrips L env encCtx decCtx plain := by
  have hnull : ∀ {ctx : Option L.Ctx}, Obtained L (ascii "table") ctx → ctx = none := by
    rintro ctx (hnone | ⟨c, hc, -⟩)
    · exact hnone
    · rw [encCtxNewInstance_table] at hc
      cases hc
  rw [hnull henc, hnull hdec]
  have hback := substitute_inverse hinv plain
  constructor
  · rw [ssDecryptAll, ssEncryptAll, if_pos hmethod, if_pos hmethod, hback]
  · rw [ssDecrypt, ssEncryptAll, if_pos hmethod, if_pos hmethod, Option.elim_none, hback]
  · rw [ssDecryptAll, ssEncrypt, if_pos hmethod, if_pos hmethod, Option.elim_none, hback]
  · rw [ssDecrypt, ssEncrypt, if_pos hmethod, if_pos hmethod, Option.elim_none, Option.elim_none, hback]

theorem encTableInit_inverse {D : Digest} {method : SsCipherType} {pass : Bytes} {env : CipherEnv}
    (h : encTableInit D method pass = some env) :
    env.encTable.Perm identityTable ∧ Inverse env.encTable env.decTable ∧ env.encMethod = method := by
  rcases encTableOf_perm (D.run pass) with ⟨enc, htable, hperm⟩
  rw [encTableInit, htable, Option.bind_eq_bind, Option.bind_some] at h
  rcases Option.bind_eq_some_iff.1 h with ⟨encKey, _, henv⟩
  obtain rfl := Option.some.inj henv
  dsimp only
  exact ⟨hperm, decTableOf_inverse hperm, rfl⟩

/-- For every digest the sorts end and rearrange the bytes, and the second table inverts the first.  These
are the tables that `enc_table_init` leaves, which a password that fits into its array reaches; what was
encrypted with them is decrypted.  Every call of the sort covers its range. -/
theorem table_cipher_inverts (L : Library) (D : Digest) (pass : Bytes) :
    (∀ digest, ∃ enc, encTableOf digest = some enc ∧ enc.Perm identityTable ∧ Inverse enc (decTableOf enc)) ∧
    (pass.length ≤ MAX_KEY_LENGTH → (encTableInit D .table pass).isSome = true) ∧
    (∀ method env, encTableInit D method pass = some env →
      env.encTable.Perm identityTable ∧ Inverse env.encTable env.decTable ∧
        (method = .table → ∀ encCtx decCtx : Option L.Ctx, Obtained L (ascii "table") encCtx →
          Obtained L (ascii "table") decCtx → ∀ plain, RoundTrips L env encCtx decCtx plain)) ∧
    ∀ call, Called (0, 256) call → Covers call.1 call.2 := by
  refine ⟨fun digest => ?_, fun hlength => ?_, fun method env henv => ?_, fun call h => covers_of_le h.inside⟩
  · rcases encTableOf_perm digest with ⟨enc, htable, hperm⟩
    exact ⟨enc, htable, hperm, decTableOf_inverse hperm⟩
  · rcases encTableInit_table D hlength with ⟨env, _, henv, _⟩
    rw [henv]
    rfl
  · rcases encTableInit_inverse henv with ⟨hperm, hinv, hmethod⟩
    exact ⟨hperm, hinv, fun htable _ _ hEnc hDec plain => roundTrips (hmethod.trans htable) hinv hEnc hDec plain⟩

/-- A crypto library that has one stream cipher, RC4. -/
def arc4Library : Library where
  Info := Unit
  Ctx := Unit
  cipherInfoFromString name := if name = ascii "ARC4-128" then some () else none
  setup _ := some ()
  stream env _ b := (run Lib.Rc4.crypt (Lib.Rc4.setKey (env.encKey.take env.encKeyLen)) b).2
  table_unknown := if_neg (by decide)

/-- Three bytes and back, with and without a context; and the left half of the right half of the table. -/
theorem table_cipher_inverts_quarter :
    (∃ env, encTableInit KeyDerivation.md5 .table (ascii "barfoo!") = some env ∧
      ssDecryptAll env (ssEncryptAll env [1, 2, 3]) = [1, 2, 3] ∧
      ssDecrypt arc4Library env (ssEncrypt arc4Library env [1, 2, 3] none) none = [1, 2, 3]) ∧
    Covers 128 64 := by
  rcases table_cipher_inverts arc4Library KeyDerivation.md5 (ascii "barfoo!") with ⟨_, hsome, hinv, hcalls⟩
  rcases Option.isSome_iff_exists.1 (hsome (by decide)) with ⟨env, henv⟩
  have htrips := (hinv .table env henv).2.2 rfl none none (Or.inl rfl) (Or.inl rfl) [1, 2, 3]
  exact ⟨⟨env, henv, htrips.all_all, htrips.ctx_ctx⟩, hcalls _ (.left (.right .self (by decide)) (by decide))⟩

end TableCipher
end SsrNative
