import SsrNative.CText
import SsrNative.Lib.Demand
import SsrNative.Lib.Hash
import SsrNative.Obfs.HttpSimple

/-!
# CipherNames — the names of methods, protocols and obfuscations

`ssr_cipher_names.c`.  Names are compared without regard to case.  A protocol or an obfuscation that nobody
knows is only a value of its own; an unknown method ends the program.
-/

namespace SsrNative
namespace CipherNames

open Bytes
open Lib.Demand
open Lib.Demand.Demanding
open Lib.Hash (of_byte)
open Obfs.HttpSimple (tolower)

/-! ## Tables -/

/-- `enum ss_cipher_type` without `ss_cipher_max`, in the order of its values. -/
inductive SsCipherType where
  | none
  | table
  | rc4
  | rc4Md5Six
  | rc4Md5
  | aes128Cfb
  | aes192Cfb
  | aes256Cfb
  | aes128Ctr
  | aes192Ctr
  | aes256Ctr
  | bfCfb
  | camellia128Cfb
  | camellia192Cfb
  | camellia256Cfb
  | cast5Cfb
  | desCfb
  | ideaCfb
  | rc2Cfb
  | seedCfb
  | salsa20
  | chacha20
  | chacha20ietf
  | aes128Gcm
  | aes192Gcm
  | aes256Gcm
  | chacha20IetfPoly1305
  | xchacha20IetfPoly1305
deriving DecidableEq

/-- `SS_CIPHER_MAP`. -/
def ssCipherMap : List (SsCipherType × Bytes) :=
  [(.none, ascii "none"), (.table, ascii "table"), (.rc4, ascii "rc4"), (.rc4Md5Six, ascii "rc4-md5-6"),
    (.rc4Md5, ascii "rc4-md5"), (.aes128Cfb, ascii "aes-128-cfb"), (.aes192Cfb, ascii "aes-192-cfb"),
    (.aes256Cfb, ascii "aes-256-cfb"), (.aes128Ctr, ascii "aes-128-ctr"), (.aes192Ctr, ascii "aes-192-ctr"),
    (.aes256Ctr, ascii "aes-256-ctr"), (.bfCfb, ascii "bf-cfb"), (.camellia128Cfb, ascii "camellia-128-cfb"),
    (.camellia192Cfb, ascii "camellia-192-cfb"), (.camellia256Cfb, ascii "camellia-256-cfb"),
    (.cast5Cfb, ascii "cast5-cfb"), (.desCfb, ascii "des-cfb"), (.ideaCfb, ascii "idea-cfb"),
    (.rc2Cfb, ascii "rc2-cfb"), (.seedCfb, ascii "seed-cfb"), (.salsa20, ascii "salsa20"),
    (.chacha20, ascii "chacha20"), (.chacha20ietf, ascii "chacha20-ietf"), (.aes128Gcm, ascii "aes-128-gcm"),
    (.aes192Gcm, ascii "aes-192-gcm"), (.aes256Gcm, ascii "aes-256-gcm"),
    (.chacha20IetfPoly1305, ascii "chacha20-ietf-poly1305"),
    (.xchacha20IetfPoly1305, ascii "xchacha20-ietf-poly1305")]

/-- `enum ssr_protocol` without `ssr_protocol_max`. -/
inductive SsrProtocol where
  | origin
  | verifySimple
  | authSimple
  | authSha1
  | authSha1V2
  | authSha1V4
  | authAes128Md5
  | authAes128Sha1
  | authChainA
  | authChainB
  | authChainC
  | authChainD
  | authChainE
  | authChainF
deriving DecidableEq

/-- `SSR_PROTOCOL_MAP`. -/
def ssrProtocolMap : List (SsrProtocol × Bytes) :=
  [(.origin, ascii "origin"), (.verifySimple, ascii "verify_simple"), (.authSimple, ascii "auth_simple"),
    (.authSha1, ascii "auth_sha1"), (.authSha1V2, ascii "auth_sha1_v2"), (.authSha1V4, ascii "auth_sha1_v4"),
    (.authAes128Md5, ascii "auth_aes128_md5"), (.authAes128Sha1, ascii "auth_aes128_sha1"),
    (.authChainA, ascii "auth_chain_a"), (.authChainB, ascii "auth_chain_b"), (.authChainC, ascii "auth_chain_c"),
    (.authChainD, ascii "auth_chain_d"), (.authChainE, ascii "auth_chain_e"), (.authChainF, ascii "auth_chain_f")]

/-- `enum ssr_obfs` without `ssr_obfs_max`. -/
inductive SsrObfs where
  | plain
  | httpSimple
  | httpPost
  | httpMix
  | tls12TicketAuth
  | tls12TicketFastauth
deriving DecidableEq

/-- `SSR_OBFS_MAP`. -/
def ssrObfsMap : List (SsrObfs × Bytes) :=
  [(.plain, ascii "plain"), (.httpSimple, ascii "http_simple"), (.httpPost, ascii "http_post"),
    (.httpMix, ascii "http_mix"), (.tls12TicketAuth, ascii "tls1.2_ticket_auth"),
    (.tls12TicketFastauth, ascii "tls1.2_ticket_fastauth")]

/-! ## Looking a name up -/

/-- `tolower` of a `char`, which is signed. -/
def tolowerInt (c : UInt8) : ℤ := (tolower c).toInt8.toInt

/-- `strcicmp`; the terminators are compared as well. -/
def strcicmp : Bytes → Bytes → ℤ
  | [], [] => 0
  | [], b :: _ => tolowerInt 0 - tolowerInt b
  | a :: _, [] => tolowerInt a - tolowerInt 0
  | a :: s, b :: t => if tolowerInt a - tolowerInt b ≠ 0 then tolowerInt a - tolowerInt b else strcicmp s t

section Lookup

variable {α : Type}

/-- The loop over a table. -/
def typeOfName (map : List (α × Bytes)) (name : CText) : Option α :=
  (map.find? fun entry => decide (strcicmp name.chars entry.2 = 0)).map Prod.fst

/-- The name is in the table, in capitals or not. -/
def Names (map : List (α × Bytes)) (name : Bytes) : Prop :=
  ∃ entry ∈ map, name.map tolower = entry.2.map tolower

instance (map : List (α × Bytes)) (name : Bytes) : Decidable (Names map name) :=
  List.decidableBEx (fun entry : α × Bytes => name.map tolower = entry.2.map tolower) map

end Lookup

def ssCipherTypeOfName : Option CText → Demanding SsCipherType
  | none => return .none
  | some name =>
      match typeOfName ssCipherMap name with
      | some m => return m
      | none => do
          -- `assert(!"exit...")`, and `exit` without assertions
          require False
          return .none

/-- Nothing is `ssr_protocol_max`. -/
def ssrProtocolTypeOfName : Option CText → Option SsrProtocol
  | none => some .origin
  | some name => if name.chars.length = 0 then some .origin else typeOfName ssrProtocolMap name

/-- Nothing is `ssr_obfs_max`. -/
def ssrObfsTypeOfName : Option CText → Option SsrObfs
  | none => some .plain
  | some name => if name.chars.length = 0 then some .plain else typeOfName ssrObfsMap name

/-- `index >= ss_cipher_aes_128_gcm`. -/
def isAead : SsCipherType → Bool
  | .aes128Gcm | .aes192Gcm | .aes256Gcm | .chacha20IetfPoly1305 | .xchacha20IetfPoly1305 => true
  | _ => false

/-! ## What is found -/

theorem tolowerInt_inj {a b : UInt8} : tolowerInt a - tolowerInt b = 0 ↔ tolower a = tolower b := by
  rw [Int.sub_eq_zero, tolowerInt, tolowerInt, Int8.toInt_inj]
  constructor
  · intro h
    simpa using congrArg Int8.toUInt8 h
  · exact congrArg UInt8.toInt8

theorem tolower_ne_zero {c : UInt8} (h : c ≠ 0) : tolower c ≠ tolower 0 := by
  have hall : ∀ c : UInt8, c ≠ 0 → tolower c ≠ tolower 0 := of_byte (by decide +kernel)
  exact hall c h

/-- Texts that differ at most in capitals. -/
theorem strcicmp_eq_zero_iff {a b : Bytes} (ha : (0 : UInt8) ∉ a) (hb : (0 : UInt8) ∉ b) :
    strcicmp a b = 0 ↔ a.map tolower = b.map tolower := by
  induction a generalizing b with
  | nil =>
      cases b with
      | nil => exact iff_of_true rfl rfl
      | cons y t =>
          have hy : y ≠ 0 := fun h => hb (h ▸ List.mem_cons_self)
          rw [strcicmp, tolowerInt_inj]
          exact iff_of_false (tolower_ne_zero hy).symm (List.cons_ne_nil _ _).symm
  | cons x s ih =>
      have hx : x ≠ 0 := fun h => ha (h ▸ List.mem_cons_self)
      cases b with
      | nil =>
          rw [strcicmp, tolowerInt_inj]
          exact iff_of_false (tolower_ne_zero hx) (List.cons_ne_nil _ _)
      | cons y t =>
          have hrest := ih (fun h => ha (List.mem_cons_of_mem x h)) (fun h => hb (List.mem_cons_of_mem y h))
          rw [strcicmp, List.map_cons, List.map_cons, List.cons.injEq, ← hrest]
          by_cases heq : tolowerInt x - tolowerInt y = 0
          · rw [if_neg (not_not.2 heq)]
            exact (and_iff_right (tolowerInt_inj.1 heq)).symm
          · rw [if_pos heq]
            exact iff_of_false heq fun h => heq (tolowerInt_inj.2 h.1)

theorem ssCipherMap_nul : ∀ entry ∈ ssCipherMap, (0 : UInt8) ∉ entry.2 := by decide +kernel

/-- The program goes on when the method is in the table. -/
theorem met_ssCipherTypeOfName (name : CText) :
    (ssCipherTypeOfName (some name)).Met ↔ Names ssCipherMap name.chars := by
  rw [ssCipherTypeOfName, typeOfName]
  cases hfind : ssCipherMap.find? fun entry => decide (strcicmp name.chars entry.2 = 0) with
  | none =>
      rw [List.find?_eq_none] at hfind
      refine iff_of_false (by simp) ?_
      rintro ⟨entry, hmem, heq⟩
      have hcmp := (strcicmp_eq_zero_iff name.nul_not_mem (ssCipherMap_nul entry hmem)).2 heq
      exact hfind entry hmem (decide_eq_true hcmp)
  | some entry =>
      have hmem := List.mem_of_find?_eq_some hfind
      have hcmp : strcicmp name.chars entry.2 = 0 := by simpa using List.find?_some hfind
      refine iff_of_true (met_pure _) ⟨entry, hmem, ?_⟩
      exact (strcicmp_eq_zero_iff name.nul_not_mem (ssCipherMap_nul entry hmem)).1 hcmp

example : Names ssCipherMap (ascii "AES-128-ctr") := by decide +kernel

end CipherNames
end SsrNative
