import SsrNative.CString
import SsrNative.Obfs.AuthAes128Stream

/-!
# ProtocolParam — users in `protocol_param`

A server lists its users as in `64#12345:breakwa11,233:breakwa11`, a client names one as `233:breakwa11`.
The server's side is `config_parse_protocol_param` with the table that it fills, the client's is the
part of `auth_aes128_sha1_pack_auth_data` that reads the parameter.
-/

namespace SsrNative
namespace ProtocolParam

open Bytes
open CString
open Lib.Text
open Obfs.AuthAes128

/-! ## The server's table -/

/-- The part of `struct server_config` that the parameter fills. -/
structure ServerConfig where
  userIdAuthKey : Option (List (Bytes × Bytes))
  maxClient : ℕ

def configAddUserIdWithAuthKey (config : ServerConfig) (userId authKey : Bytes) : ServerConfig :=
  let users := config.userIdAuthKey.getD []
  -- `cstl_map_insert` refuses a key that the map already has
  { config with
    userIdAuthKey := some (if (users.lookup userId).isSome then users else users ++ [(userId, authKey)]) }

/-- One entry of the list; without a colon it is skipped. -/
def addEntry (config : ServerConfig) (entry : Bytes) : ServerConfig :=
  match cut 58 entry with
  | some (userId, authKey) =>
      configAddUserIdWithAuthKey config (strtrim userId .both) (strtrim authKey .both)
  | none => config

/-- The loop over the entries; every round takes a comma away. -/
def entryLoop : ℕ → ServerConfig → Bytes → ServerConfig
  | 0, config, _ => config
  | fuel + 1, config, userId =>
      match cut 44 userId with
      | some (entry, iter) => entryLoop fuel (addEntry config entry) iter
      | none => addEntry config userId

def configParseProtocolParam (config : ServerConfig) (param : Bytes) : ServerConfig :=
  let r : ℤ × Bytes :=
    match cut 35 param with
    | some (p0, iter) => (strtol (strtrim p0 .both), iter)
    | none => (0, param)
  let maxCli := r.1
  let config := { config with maxClient := if maxCli ≠ 0 then (maxCli % 4294967296).toNat else 64 }
  entryLoop (param.length + 1) config r.2

/-- What `config_is_user_exist` reports. -/
structure UserAudit where
  result : Bool
  authKey : Option Bytes
  isMultiUser : Bool

def configIsUserExist (config : ServerConfig) (userId : Bytes) : UserAudit :=
  let authKey := (config.userIdAuthKey.getD []).lookup userId
  ⟨authKey.isSome, authKey, config.userIdAuthKey.isSome⟩

/-! ## The client's user -/

/-- `uid:key` in `server->extra_param`. -/
def extraParamUser (param : Bytes) : Option (UInt32 × Bytes) :=
  match cut 58 param with
  | some (uidStr, keyStr) => some (UInt32.ofInt (strtol (strtrim uidStr .both)), strtrim keyStr .both)
  | none => none

/-! ## The pairs of a list -/

/-- The entries behind the number of clients. -/
def entries (param : Bytes) : List Bytes :=
  (match cut 35 param with
    | some (_, iter) => iter
    | none => param).splitOn 44

def entryPair (entry : Bytes) : Option (Bytes × Bytes) :=
  (cut 58 entry).map fun p => (trim isSpace p.1, trim isSpace p.2)

/-- The users and their keys in the order of the list. -/
def pairs (param : Bytes) : List (Bytes × Bytes) := (entries param).filterMap entryPair

/-- The list has the pair of `u` and `key`, with blanks around its parts. -/
def Lists (param : Bytes) (u : ℕ) (key : Bytes) : Prop :=
  ∃ b₁ b₂ b₃ b₄ : Bytes, (∀ c ∈ b₁ ++ b₂ ++ b₃ ++ b₄, isSpace c = true) ∧
    (b₁ ++ (decimal u ++ b₂)) ++ 58 :: (b₃ ++ (key ++ b₄)) ∈ entries param

section Table

variable (config : ServerConfig)

theorem lookup_append_of_none {users more : List (Bytes × Bytes)} {id : Bytes}
    (h : users.lookup id = none) : (users ++ more).lookup id = more.lookup id := by
  induction users with
  | nil => rfl
  | cons p users ih =>
      rw [List.lookup_cons] at h
      cases hp : id == p.1 with
      | true => simp [hp] at h
      | false =>
          simp only [hp] at h
          rw [List.cons_append, List.lookup_cons, hp]
          exact ih h

theorem lookup_append_of_some {users more : List (Bytes × Bytes)} {id key : Bytes}
    (h : users.lookup id = some key) : (users ++ more).lookup id = some key := by
  induction users with
  | nil => cases h
  | cons p users ih =>
      rw [List.lookup_cons] at h
      rw [List.cons_append, List.lookup_cons]
      cases hp : id == p.1 with
      | true => simpa [hp] using h
      | false =>
          simp only [hp] at h
          exact ih h

/-- The users of a table, which is empty before the first insertion. -/
def ServerConfig.users : List (Bytes × Bytes) := config.userIdAuthKey.getD []

/-- An insertion into the map is found like one at the end of a list. -/
theorem lookup_configAddUser (userId authKey id : Bytes) (more : List (Bytes × Bytes)) :
    ((configAddUserIdWithAuthKey config userId authKey).users ++ more).lookup id =
      (config.users ++ (userId, authKey) :: more).lookup id := by
  unfold configAddUserIdWithAuthKey ServerConfig.users
  dsimp only [Option.getD_some]
  generalize config.userIdAuthKey.getD [] = users
  cases hold : users.lookup userId with
  | none => simp
  | some key =>
      rw [if_pos (Option.isSome_some (a := key))]
      cases hid : users.lookup id with
      | some key' => rw [lookup_append_of_some hid, lookup_append_of_some hid]
      | none =>
          have hne : (id == userId) = false := by
            rw [beq_eq_false_iff_ne]
            rintro rfl
            rw [hid] at hold
            cases hold
          rw [lookup_append_of_none hid, lookup_append_of_none hid, List.lookup_cons, hne]

theorem lookup_addEntry (entry id : Bytes) (more : List Bytes) :
    ((addEntry config entry).users ++ more.filterMap entryPair).lookup id =
      (config.users ++ (entry :: more).filterMap entryPair).lookup id := by
  unfold addEntry
  cases hcut : cut 58 entry with
  | none =>
      have hpair : entryPair entry = none := by rw [entryPair, hcut]; rfl
      rw [List.filterMap_cons_none hpair]
  | some p =>
      have hpair : entryPair entry = some (trim isSpace p.1, trim isSpace p.2) := by
        rw [entryPair, hcut]
        rfl
      rw [List.filterMap_cons_some hpair, ← strtrim_both, ← strtrim_both]
      exact lookup_configAddUser config _ _ id _

/-- The loop adds the pairs of the list in their order. -/
theorem lookup_entryLoop {fuel : ℕ} {userId : Bytes} (h : userId.length < fuel) (id : Bytes) :
    (entryLoop fuel config userId).users.lookup id =
      (config.users ++ (userId.splitOn 44).filterMap entryPair).lookup id := by
  induction fuel generalizing config userId with
  | zero => omega
  | succ fuel ih =>
      rw [entryLoop]
      cases hcut : cut 44 userId with
      | none =>
          have hadd := lookup_addEntry config userId id []
          rw [splitOn_of_cut_eq_none hcut, ← hadd, List.filterMap_nil, List.append_nil]
      | some p =>
          obtain ⟨entry, iter⟩ := p
          have hlen : iter.length < fuel := by
            rw [(eq_of_cut hcut).2, List.length_append, List.length_cons] at h
            omega
          rw [splitOn_of_cut hcut, ← lookup_addEntry]
          exact ih _ hlen

/-- The table of a parsed list answers with the first pair of a user. -/
theorem lookup_configParseProtocolParam {config : ServerConfig} (h : config.userIdAuthKey = none)
    (param id : Bytes) :
    (configParseProtocolParam config param).users.lookup id = (pairs param).lookup id := by
  unfold configParseProtocolParam pairs entries
  cases hcut : cut 35 param with
  | none =>
      dsimp only
      rw [lookup_entryLoop _ (Nat.lt_succ_self _), ServerConfig.users, h]
      rfl
  | some p =>
      dsimp only
      have hlen : p.2.length < param.length + 1 := by
        rw [(eq_of_cut hcut).2, List.length_append, List.length_cons]
        omega
      rw [lookup_entryLoop _ hlen, ServerConfig.users, h]
      rfl

/-- The key that the protocol derives for a user is the one that the audit reports. -/
theorem serverUserKey_audit (S : Suite) {info : ServerInfo} (h : info.users = config.userIdAuthKey)
    (uid : Bytes) :
    serverUserKey S info uid =
      let audit := configIsUserExist config (signedDecimal (rdLe32 uid 0))
      match audit.authKey with
      | some key => S.hash key
      | none => if audit.isMultiUser = false then info.key else info.recvIv := by
  unfold serverUserKey configIsUserExist
  rw [h]
  cases config.userIdAuthKey with
  | none => rfl
  | some table =>
      dsimp only [Option.getD_some]
      cases table.lookup (signedDecimal (rdLe32 uid 0)) <;> rfl

end Table

/-! ## Finding the client's user -/

section Identify

theorem colon_not_mem_decimal (n : ℕ) : (58 : UInt8) ∉ decimal n := fun h =>
  absurd (decimal_digit n 58 h).2 (by decide)

theorem extraParamUser_eq {u : ℕ} (hu : u < 4294967296) (key : Bytes) :
    extraParamUser (decimal u ++ 58 :: key) = some (UInt32.ofNat u, trim isSpace key) := by
  have hlong : strtol (decimal u) = u := strtol_decimal (by unfold LONG_MAX; omega)
  rw [extraParamUser, cut_append_cons (colon_not_mem_decimal u)]
  dsimp only
  rw [strtrim_decimal, strtrim_both, hlong, UInt32.ofInt]
  have hmod : ((u : ℤ) % 2 ^ 32).toNat = u := by omega
  rw [hmod]

/-- A listed pair is one of the pairs of the list, without its blanks. -/
theorem Lists.mem_pairs {param key : Bytes} {u : ℕ} (h : Lists param u key) :
    (decimal u, trim isSpace key) ∈ pairs param := by
  obtain ⟨b₁, b₂, b₃, b₄, hblank, hmem⟩ := h
  have hb : ∀ b, b ⊆ b₁ ++ b₂ ++ b₃ ++ b₄ → ∀ c ∈ b, isSpace c = true :=
    fun b hsub c hc => hblank c (hsub hc)
  have hb₁ := hb b₁ (by simp)
  have hb₂ := hb b₂ (by intro c hc; simp [hc])
  have hb₃ := hb b₃ (by intro c hc; simp [hc])
  have hb₄ := hb b₄ (by intro c hc; simp [hc])
  have hspace : isSpace 58 = false := rfl
  have hcolon : (58 : UInt8) ∉ b₁ ++ (decimal u ++ b₂) := by
    intro hc
    rcases List.mem_append.1 hc with hc | hc
    · rw [hb₁ 58 hc] at hspace
      cases hspace
    · rcases List.mem_append.1 hc with hc | hc
      · exact colon_not_mem_decimal u hc
      · rw [hb₂ 58 hc] at hspace
        cases hspace
  refine List.mem_filterMap.2 ⟨_, hmem, ?_⟩
  rw [entryPair, cut_append_cons hcolon, Option.map_some, trim_pad hb₁ hb₂, trim_pad hb₃ hb₄,
    trim_of_none (not_isSpace_decimal u)]

theorem exists_lookup {ps : List (Bytes × Bytes)} {id key : Bytes} (h : (id, key) ∈ ps) :
    ∃ key', ps.lookup id = some key' := by
  induction ps with
  | nil => cases h
  | cons p ps ih =>
      rw [List.lookup_cons]
      cases hp : id == p.1 with
      | true => exact ⟨p.2, rfl⟩
      | false =>
          rw [beq_eq_false_iff_ne] at hp
          rcases List.mem_cons.1 h with rfl | h
          · exact absurd rfl hp
          · exact ih h

theorem signedDecimal_of_lt {u : ℕ} (hu : u < 2147483648) : signedDecimal u = decimal u := by
  rw [signedDecimal, Nat.mod_eq_of_lt (by omega), if_pos hu]

theorem signedDecimal_of_ge {u : ℕ} (hge : 2147483648 ≤ u) (hu : u < 4294967296) :
    signedDecimal u = ascii "-" ++ decimal (4294967296 - u) := by
  rw [signedDecimal, Nat.mod_eq_of_lt hu, if_neg (by omega)]

theorem rdLe32_le32 {u : ℕ} (hu : u < 4294967296) : rdLe32 (le32 u) 0 = u := by
  have h := rdLe32_le32_append u []
  rwa [List.append_nil, Nat.mod_eq_of_lt hu] at h

/-- Where the user id stands in the client's first frame. -/
theorem window_packAuthData {S : Suite} {info : ServerInfo} {l : LocalData} {d : AuthDraws}
    (h : (clientUser S info l d).1.length = 4) (g : GlobalData) (data : Bytes) :
    window (packAuthData S info g l d data).2 7 4 = (clientUser S info l d).1 := by
  have hfields := @authFrame_fields S (clientUser S info l d) (nextConnection g d) d data
    (info.iv ++ info.key) []
  rw [List.append_nil] at hfields
  rw [packAuthData, hfields, ← List.append_assoc]
  refine window_field ?_ h
  rw [List.length_append, mac_take_length (le_refl 6), List.length_singleton]

/-- The audit of the client's first frame finds the user, and the server derives the user's key. -/
def Identified (S : Suite) (config : ServerConfig) (cinfo sinfo : ServerInfo) (g : GlobalData)
    (l : LocalData) (d : AuthDraws) (data : Bytes) : Prop :=
  let r := packAuthData S cinfo g l d data
  let uid := window r.2 7 4
  (configIsUserExist config (signedDecimal (rdLe32 uid 0))).result = true ∧
    serverUserKey S sinfo uid = r.1.2.userKey

theorem clientUser_extraParam (S : Suite) {cinfo : ServerInfo} {l : LocalData} (d : AuthDraws) {u : ℕ}
    {key : Bytes} (hu : u < 4294967296) (hcinfo : cinfo.user = extraParamUser (decimal u ++ 58 :: key))
    (hl : l.userKey = []) : clientUser S cinfo l d = (le32 u, S.hash (trim isSpace key)) := by
  have hval : (UInt32.ofNat u).toNat = u := by
    rw [UInt32.toNat_ofNat', Nat.mod_eq_of_lt hu]
  rw [extraParamUser_eq hu] at hcinfo
  rw [clientUser, if_pos (by rw [hl]; rfl), hcinfo]
  dsimp only
  rw [hval]

/-- The table answers with the first pair of the name that the server looks up. -/
theorem identified_iff_lookup (S : Suite) {config : ServerConfig} {cinfo sinfo : ServerInfo}
    (g : GlobalData) {l : LocalData} (d : AuthDraws) (data : Bytes) {u : ℕ} {key param : Bytes}
    (hu : u < 4294967296) (hconfig : config.userIdAuthKey = none)
    (hcinfo : cinfo.user = extraParamUser (decimal u ++ 58 :: key)) (hl : l.userKey = [])
    (hsinfo : sinfo.users = (configParseProtocolParam config param).userIdAuthKey) :
    Identified S (configParseProtocolParam config param) cinfo sinfo g l d data ↔
      ∃ key', (pairs param).lookup (signedDecimal u) = some key' ∧
        S.hash key' = S.hash (trim isSpace key) := by
  have huser := clientUser_extraParam S d hu hcinfo hl
  have huid : (clientUser S cinfo l d).1.length = 4 := by
    rw [huser]
    exact le32_length u
  have hlookup := lookup_configParseProtocolParam hconfig param (signedDecimal u)
  rw [ServerConfig.users] at hlookup
  have hkey : (packAuthData S cinfo g l d data).1.2.userKey = S.hash (trim isSpace key) := by
    rw [packAuthData, huser]
  unfold Identified
  dsimp only
  rw [window_packAuthData huid, hkey, huser, serverUserKey_audit _ S hsinfo]
  dsimp only
  rw [rdLe32_le32 hu, configIsUserExist, hlookup]
  cases (pairs param).lookup (signedDecimal u) with
  | none => simp
  | some key' => simp

/-- Below `2^31` the client is identified unless an earlier pair of the list has the same id with
another key.  From there on the server looks for a negative number, which only a list that spells
the id so can have. -/
theorem identified_iff (S : Suite) (config : ServerConfig) (cinfo sinfo : ServerInfo) (g : GlobalData)
    (l : LocalData) (d : AuthDraws) (data : Bytes) (u : ℕ) (key param : Bytes)
    (hu : u < 4294967296) (hlists : Lists param u key) (hconfig : config.userIdAuthKey = none)
    (hcinfo : cinfo.user = extraParamUser (decimal u ++ 58 :: key)) (hl : l.userKey = [])
    (hsinfo : sinfo.users = (configParseProtocolParam config param).userIdAuthKey) :
    Identified S (configParseProtocolParam config param) cinfo sinfo g l d data ↔
      (u < 2147483648 ∧ ∀ key', (pairs param).lookup (decimal u) = some key' →
          S.hash key' = S.hash (trim isSpace key)) ∨
        (2147483648 ≤ u ∧ ∃ key',
          (pairs param).lookup (ascii "-" ++ decimal (4294967296 - u)) = some key' ∧
            S.hash key' = S.hash (trim isSpace key)) := by
  rw [identified_iff_lookup S g d data hu hconfig hcinfo hl hsinfo]
  by_cases hlt : u < 2147483648
  · obtain ⟨first, hfirst⟩ := exists_lookup hlists.mem_pairs
    rw [signedDecimal_of_lt hlt, hfirst]
    constructor
    · rintro ⟨key', hkey', hhash⟩
      refine .inl ⟨hlt, ?_⟩
      intro key'' hkey''
      rw [← Option.some.inj hkey'', Option.some.inj hkey', hhash]
    · rintro (⟨-, hall⟩ | ⟨hge, -⟩)
      · exact ⟨first, rfl, hall first rfl⟩
      · omega
  · rw [signedDecimal_of_ge (by omega) hu]
    constructor
    · intro h
      exact .inr ⟨by omega, h⟩
    · rintro (⟨hlt', -⟩ | ⟨-, h⟩)
      · exact absurd hlt' hlt
      · exact h

def sampleList : Bytes := ascii "64#12345:breakwa11,\t233 : breakwa11 "

def sampleInfo (user : Option (UInt32 × Bytes)) (users : Option (List (Bytes × Bytes))) : ServerInfo :=
  ⟨[], [], [], 1460, user, users⟩

def sampleDraws : AuthDraws := ⟨0, fun _ => 0, 0, 0, fun _ => 0, fun _ => 0, 0⟩

theorem lists_sample : Lists sampleList 233 (ascii "breakwa11") := by
  refine ⟨ascii "\t", ascii " ", ascii " ", ascii " ", by decide +kernel, ?_⟩
  decide

theorem identified_iff_sample :
    Identified authAes128Sha1 (configParseProtocolParam ⟨none, 0⟩ sampleList)
      (sampleInfo (extraParamUser (decimal 233 ++ 58 :: ascii "breakwa11")) none)
      (sampleInfo none (configParseProtocolParam ⟨none, 0⟩ sampleList).userIdAuthKey)
      ⟨[], 0⟩ (localDataInit 0) sampleDraws [] := by
  refine (identified_iff authAes128Sha1 ⟨none, 0⟩ _ _ _ _ _ _ 233 (ascii "breakwa11") sampleList
    (by decide) lists_sample rfl rfl rfl rfl).2 (.inl ⟨by decide, ?_⟩)
  intro key' hkey'
  have hfirst : (pairs sampleList).lookup (decimal 233) = some (ascii "breakwa11") := by
    decide
  have htrim : trim isSpace (ascii "breakwa11") = ascii "breakwa11" := by decide
  rw [hfirst] at hkey'
  rw [← Option.some.inj hkey', htrim]

def largeList : Bytes := ascii "64#2147483648:breakwa11"

/-- The smallest id that has become a negative number on the server. -/
theorem large_uid_not_found :
    Lists largeList 2147483648 (ascii "breakwa11") ∧
      ¬ Identified authAes128Sha1 (configParseProtocolParam ⟨none, 0⟩ largeList)
        (sampleInfo (extraParamUser (decimal 2147483648 ++ 58 :: ascii "breakwa11")) none)
        (sampleInfo none (configParseProtocolParam ⟨none, 0⟩ largeList).userIdAuthKey)
        ⟨[], 0⟩ (localDataInit 0) sampleDraws [] := by
  constructor
  · exact ⟨[], [], [], [], by decide +kernel, by decide +kernel⟩
  · rw [identified_iff_lookup authAes128Sha1 _ _ _
      (by decide : 2147483648 < 4294967296) rfl rfl rfl rfl]
    have hnone : (pairs largeList).lookup (signedDecimal 2147483648) = none := by decide
    rintro ⟨key', hkey', -⟩
    rw [hnone] at hkey'
    cases hkey'

end Identify

end ProtocolParam
end SsrNative
