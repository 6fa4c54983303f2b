import SsrNative.QrCodeDecode

/-!
# QrCodeEncode — which configurations fit into a link

Every field in base64 takes four letters for three bytes, and the whole link is put in base64 once more.  All
that has to fit into arrays of 2048 bytes, and `linkLength` says how long the link becomes: 1530 characters are
the most.  Besides, the encoder writes without end when it gets fewer than two bytes (`met_ssrQrCodeEncode`).
-/

namespace SsrNative
namespace QrCode

open Bytes
open Base64
open CipherNames
open Lib.Demand
open Lib.Demand.Demanding

/-! ## Lengths -/

/-- The length that the encoder gets is an `int`, and it must be two at least. -/
def Encodable (s : Bytes) : Prop := 2 ≤ toInt32 s.length

/-- The letters of a text in base64. -/
def codedLength (s : Bytes) : ℕ := (4 * (toInt32 s.length).toNat + 2) / 3

/-- A field that is encoded, unless it is missing or empty. -/
def FieldEncodable (field : Option CText) : Prop :=
  ∀ s, field = some s → s.chars.length ≠ 0 → Encodable s.chars

/-- `key=value` and the character in front of it. -/
def fieldLength (key : Bytes) : Option CText → ℕ
  | none => 0
  | some s => if s.chars.length = 0 then 0 else key.length + codedLength s.chars + 2

/-- What is in the link for `ot_enable`. -/
def otEnableLength (overTlsEnable : Bool) : ℕ := if overTlsEnable = true then otEnable.length + 3 else 0

/-- `host:port:protocol:method:obfs:base64pass`. -/
def basicLength (config : ServerConfig) (f : LinkFields) : ℕ :=
  f.host.length + (portText config).length + f.protocol.length + f.method.length + f.obfs.length +
    codedLength f.password + 5

/-- The items behind it. -/
def optionalLength (config : ServerConfig) : ℕ :=
  fieldLength obfsparam config.obfsParam + (fieldLength protoparam config.protocolParam +
    (fieldLength remarks config.remarks + (otEnableLength config.overTlsEnable +
      (fieldLength otDomain config.overTlsServerDomain + fieldLength otPath config.overTlsPath))))

/-- The length of the link before all of it is put in base64. -/
def linkLength (config : ServerConfig) (f : LinkFields) : ℕ := basicLength config f + 1 + optionalLength config

/-- A configuration that goes into an `ssr://` link. -/
structure LinkOk (config : ServerConfig) (f : LinkFields) : Prop where
  password : Encodable f.password
  fields : ∀ field ∈ [config.obfsParam, config.protocolParam, config.remarks, config.overTlsServerDomain,
    config.overTlsPath], FieldEncodable field
  short : linkLength config f ≤ 1530

/-! ## One field -/

section Field

variable (s : Bytes)

theorem lt_toInt32 (n : ℕ) : -2147483648 ≤ toInt32 n := by
  rw [toInt32]
  omega

/-- What is written into `base64_buf`: nearly everything when the bound of the loop wraps around. -/
theorem encodeWrites_le_iff :
    stdBase64EncodeWrites (ofInt (toInt32 s.length)) ≤ SSR_BUFF_SIZE ↔
      Encodable s ∧ toInt32 s.length ≤ 1533 := by
  have hlow := lt_toInt32 s.length
  have hhigh := toInt32_le s.length
  rw [Encodable, SSR_BUFF_SIZE]
  by_cases htwo : 2 ≤ toInt32 s.length
  · have hlen : ofInt (toInt32 s.length) = (toInt32 s.length).toNat := by
      rw [ofInt]
      rw [toInt32] at htwo ⊢
      omega
    rw [hlen, stdBase64EncodeWrites_of_le (by omega), stdBase64EncodeLen]
    omega
  · have hlen : ofInt (toInt32 s.length) < 2 ∨ 18446744071562067968 ≤ ofInt (toInt32 s.length) := by
      rw [ofInt]
      omega
    refine iff_of_false ?_ fun h => htwo h.1
    rw [stdBase64EncodeWrites, subSize]
    split_ifs
    all_goals omega

theorem met_urlSafeBase64Encode : (urlSafeBase64Encode s).Met ↔ Encodable s ∧ toInt32 s.length ≤ 1533 := by
  rw [urlSafeBase64Encode, met_bind, met_demand, encodeWrites_le_iff]
  exact and_iff_left (met_pure _)

/-- As much of a text as the `int` counts. -/
theorem take_toInt32_length : (s.take (toInt32 s.length).toNat).length = (toInt32 s.length).toNat := by
  rw [List.length_take]
  exact Nat.min_eq_left (toInt32_le s.length)

/-- What is in `base64_buf` then. -/
theorem urlSafeBase64Encode_value (h : Encodable s) :
    (urlSafeBase64Encode s).value = urlLetters (s.take (toInt32 s.length).toNat) := by
  have hlen : ofInt (toInt32 s.length) = (toInt32 s.length).toNat := by
    rw [Encodable] at h
    rw [ofInt]
    rw [toInt32] at h ⊢
    omega
  have htwo : 2 ≤ (s.take (toInt32 s.length).toNat).length := by
    rw [take_toInt32_length]
    rw [Encodable] at h
    omega
  rcases urlSafeBase64EncodeIn_value (byteAt (s.drop (toInt32 s.length).toNat)) _ htwo with ⟨k, hyields, -⟩
  rw [urlSafeBase64Encode, hlen, value_bind, value_pure, hyields.2, cString_zero (zero_not_mem_urlLetters _)]

/-- How much longer a text is in base64. -/
theorem urlSafeBase64Encode_length (h : Encodable s) : (urlSafeBase64Encode s).value.length = codedLength s := by
  rw [urlSafeBase64Encode_value s h, urlLetters, List.length_map, letters_length, take_toInt32_length, codedLength]

end Field

/-! ## Appending -/

/-- The room that a list of items takes, with a separator for each. -/
def taken (optional : Bytes) : ℕ := if optional.length = 0 then 0 else optional.length + 1

/-- A step that appends to `optional`: it relies on `ok`, and takes `cost` more characters.  In a link of at most
1530 characters nothing else is needed. -/
structure Appends (step : Bytes → Demanding Bytes) (ok : Prop) (cost : ℕ) : Prop where
  needs : ∀ o, (step o).Met → ok
  adds : ok → ∀ o, taken (step o).value = taken o + cost
  fits : ok → ∀ o, taken o + cost ≤ 1530 → (step o).Met

namespace Appends

variable {step next : Bytes → Demanding Bytes} {ok ok' : Prop} {cost cost' : ℕ}

/-- One step after the other. -/
theorem bind (h : Appends step ok cost) (h' : Appends next ok' cost') :
    Appends (fun o => step o >>= next) (ok ∧ ok') (cost + cost') where
  needs o hmet := by
    rw [met_bind] at hmet
    exact ⟨h.needs o hmet.1, h'.needs _ hmet.2⟩
  adds hok o := by
    rw [value_bind, h'.adds hok.2, h.adds hok.1, Nat.add_assoc]
  fits hok o hle := by
    rw [met_bind]
    refine ⟨h.fits hok.1 o (by omega), h'.fits hok.2 _ ?_⟩
    rw [h.adds hok.1, Nat.add_assoc]
    exact hle

/-- Nothing is appended. -/
theorem skip : Appends (fun o => return o) True 0 where
  needs _ _ := trivial
  adds _ _ := rfl
  fits _ _ _ := met_pure _

end Appends

theorem met_sprintf (text more : Bytes) : (sprintf text more).Met ↔ (text ++ more).length + 1 ≤ 2048 := by
  rw [sprintf, met_bind, met_demand]
  exact and_iff_left (met_pure _)

section Items

variable (key : Bytes)

theorem appendItem_taken (value o : Bytes) :
    taken (appendItem key value o).value = taken o + (key.length + value.length + 2) ∧
      ((appendItem key value o).Met ↔ taken o + (key.length + value.length + 2) ≤ 2048) := by
  have heq : (ascii "=").length = 1 := by decide
  have hamp : (ascii "&").length = 1 := by decide
  rw [appendItem, met_sprintf]
  have hvalue : (sprintf o ((if o.length = 0 then [] else ascii "&") ++ key ++ ascii "=" ++ value)).value =
      o ++ ((if o.length = 0 then [] else ascii "&") ++ key ++ ascii "=" ++ value) := rfl
  rw [hvalue, taken, taken]
  simp only [List.length_append, heq]
  by_cases hempty : o.length = 0
  · simp only [hempty, if_true, List.length_nil]
    constructor
    · rw [if_neg (by omega)]
      omega
    · omega
  · simp only [hempty, if_false, hamp]
    constructor
    · rw [if_neg (by omega)]
      omega
    · omega

theorem appends_item (value : Bytes) :
    Appends (appendItem key value) True (key.length + value.length + 2) where
  needs _ _ := trivial
  adds _ o := (appendItem_taken key value o).1
  fits _ o hle := (appendItem_taken key value o).2.2 (hle.trans (by decide))

theorem appends_otEnable (overTlsEnable : Bool) :
    Appends (appendOtEnable overTlsEnable) True (otEnableLength overTlsEnable) := by
  cases overTlsEnable with
  | false => exact Appends.skip
  | true => exact appends_item otEnable (ascii "1")

/-- A field in base64. -/
theorem appends_field (field : Option CText) :
    Appends (appendField key field) (FieldEncodable field) (fieldLength key field) := by
  have hskip : FieldEncodable field → fieldLength key field = 0 → appendField key field = (fun o => return o) →
      Appends (appendField key field) (FieldEncodable field) (fieldLength key field) := by
    intro hok hcost hstep
    rw [hstep, hcost]
    exact ⟨fun _ _ => hok, fun _ _ => rfl, fun _ _ _ => met_pure _⟩
  cases field with
  | none => exact hskip nofun rfl rfl
  | some s =>
      by_cases hempty : s.chars.length = 0
      · refine hskip (fun t ht hne => absurd hempty ?_) (if_pos hempty) (funext fun o => if_pos hempty)
        rwa [Option.some.inj ht]
      have hok : FieldEncodable (some s) ↔ Encodable s.chars :=
        ⟨fun h => h s rfl hempty, fun h t ht _ => Option.some.inj ht ▸ h⟩
      have hstep : ∀ o, appendField key (some s) o =
          urlSafeBase64Encode s.chars >>= fun base64Buf => appendItem key base64Buf o := fun o => if_neg hempty
      have hcost : fieldLength key (some s) = key.length + codedLength s.chars + 2 := if_neg hempty
      rw [hok, hcost]
      refine ⟨fun o hmet => ?_, fun henc o => ?_, fun henc o hle => ?_⟩
      · rw [hstep, met_bind, met_urlSafeBase64Encode] at hmet
        exact hmet.1.1
      · rw [hstep, value_bind, (appendItem_taken key _ o).1, urlSafeBase64Encode_length _ henc]
      · have hcoded : codedLength s.chars ≤ 1530 := by omega
        rw [hstep, met_bind, met_urlSafeBase64Encode, (appendItem_taken key _ o).2,
          urlSafeBase64Encode_length _ henc]
        rw [codedLength] at hcoded hle ⊢
        exact ⟨⟨henc, by omega⟩, by omega⟩

end Items

/-! ## The whole link -/

section Link

variable (config : ServerConfig) (f : LinkFields)

/-- The fields in the order in which they are appended. -/
theorem appends_optional :
    Appends (fun o => do
      let o ← appendField obfsparam config.obfsParam o
      let o ← appendField protoparam config.protocolParam o
      let o ← appendField remarks config.remarks o
      let o ← appendOtEnable config.overTlsEnable o
      let o ← appendField otDomain config.overTlsServerDomain o
      appendField otPath config.overTlsPath o)
      (FieldEncodable config.obfsParam ∧ FieldEncodable config.protocolParam ∧ FieldEncodable config.remarks ∧
        True ∧ FieldEncodable config.overTlsServerDomain ∧ FieldEncodable config.overTlsPath)
      (optionalLength config) :=
  (appends_field obfsparam config.obfsParam).bind <| (appends_field protoparam config.protocolParam).bind <|
    (appends_field remarks config.remarks).bind <| (appends_otEnable config.overTlsEnable).bind <|
      (appends_field otDomain config.overTlsServerDomain).bind (appends_field otPath config.overTlsPath)

/-- `optional` on its own. -/
theorem optionalText_spec (hok : ∀ field ∈ [config.obfsParam, config.protocolParam, config.remarks,
      config.overTlsServerDomain, config.overTlsPath], FieldEncodable field) :
    taken (optionalText config).value = optionalLength config ∧
      (optionalLength config ≤ 1530 → (optionalText config).Met) := by
  simp only [List.forall_mem_cons, List.not_mem_nil, false_implies, implies_true, and_true] at hok
  rcases hok with ⟨hobfs, hproto, hremarks, hdomain, hpath⟩
  constructor
  · refine ((appends_optional config).adds ?_ []).trans (Nat.zero_add _)
    exact ⟨hobfs, hproto, hremarks, trivial, hdomain, hpath⟩
  · intro hle
    refine (appends_optional config).fits ⟨hobfs, hproto, hremarks, trivial, hdomain, hpath⟩ [] ?_
    rwa [taken, if_pos List.length_nil, Nat.zero_add]

theorem encodable_of_optionalText (hmet : (optionalText config).Met) :
    ∀ field ∈ [config.obfsParam, config.protocolParam, config.remarks, config.overTlsServerDomain,
      config.overTlsPath], FieldEncodable field := by
  rcases (appends_optional config).needs [] hmet with ⟨hobfs, hproto, hremarks, -, hdomain, hpath⟩
  simp only [List.forall_mem_cons, List.not_mem_nil, false_implies, implies_true, and_true]
  exact ⟨hobfs, hproto, hremarks, hdomain, hpath⟩

theorem colon_length : (ascii ":").length = 1 := by decide

theorem basicText_length (h : Encodable f.password) :
    (basicText config f).value.length = basicLength config f := by
  rw [basicText, value_bind, sprintf, value_bind, value_pure, List.nil_append, basicLength]
  simp only [List.length_append, colon_length, urlSafeBase64Encode_length _ h]
  omega

theorem met_basicText :
    (basicText config f).Met ↔
      Encodable f.password ∧ toInt32 f.password.length ≤ 1533 ∧ basicLength config f + 1 ≤ 2048 := by
  rw [basicText, met_bind, met_urlSafeBase64Encode, met_sprintf, and_assoc]
  refine and_congr_right fun h => and_congr_right fun _ => ?_
  rw [List.nil_append, basicLength]
  simp only [List.length_append, colon_length, urlSafeBase64Encode_length _ h]
  have hsum : ∀ a b c d e k : ℕ, a + 1 + b + 1 + c + 1 + d + 1 + e + 1 + k = a + b + c + d + e + k + 5 := by omega
  rw [hsum]

/-- What is put in base64 as a whole. -/
def resultText (basic optional : Bytes) : Bytes :=
  basic ++ (if optional.length = 0 then ascii "/" else ascii "/?") ++ optional

theorem resultText_length (basic optional : Bytes) :
    (resultText basic optional).length = basic.length + 1 + taken optional := by
  have hslash : (ascii "/").length = 1 := by decide
  have hquery : (ascii "/?").length = 2 := by decide
  rw [resultText, taken, List.length_append, List.length_append]
  by_cases hempty : optional.length = 0
  · simp only [hempty, if_true, hslash]
  · simp only [hempty, if_false, hquery]
    omega

/-- A text is put in base64, and the header in front of it. -/
theorem met_wrap (result : Bytes) :
    (do
      let result ← sprintf [] result
      let base64Buf ← urlSafeBase64Encode result
      sprintf [] (ssrHeader ++ base64Buf)).Met ↔ 2 ≤ result.length ∧ result.length ≤ 1530 := by
  have hheader : ssrHeader.length = 6 := by decide
  have hvalue : (sprintf [] result).value = result := rfl
  rw [met_bind, met_sprintf, List.nil_append, hvalue, met_bind, met_urlSafeBase64Encode, met_sprintf,
    List.nil_append, List.length_append, hheader]
  constructor
  · rintro ⟨hresult, ⟨henc, -⟩, hlink⟩
    have hint : toInt32 result.length = result.length := toInt32_of_lt (by omega)
    rw [urlSafeBase64Encode_length _ henc, codedLength, hint] at hlink
    rw [Encodable, hint] at henc
    omega
  · rintro ⟨htwo, hshort⟩
    have hint : toInt32 result.length = result.length := toInt32_of_lt (by omega)
    have henc : Encodable result := by
      rw [Encodable, hint]
      omega
    rw [urlSafeBase64Encode_length _ henc, codedLength, hint]
    exact ⟨by omega, ⟨henc, by omega⟩, by omega⟩

/-- A link is made exactly when its fields can be encoded and it is short enough. -/
theorem met_ssrLink : (ssrLink config f).Met ↔ LinkOk config f := by
  have hlink : (ssrLink config f).Met ↔ (basicText config f).Met ∧ (optionalText config).Met ∧
      (2 ≤ (resultText (basicText config f).value (optionalText config).value).length ∧
        (resultText (basicText config f).value (optionalText config).value).length ≤ 1530) := by
    rw [← met_wrap]
    exact (met_bind _ _).trans (and_congr_right fun _ => met_bind _ _)
  rw [hlink, met_basicText, resultText_length]
  constructor
  · rintro ⟨⟨hpassword, -, -⟩, hmet, -, hshort⟩
    have hfields := encodable_of_optionalText config hmet
    rw [basicText_length config f hpassword, (optionalText_spec config hfields).1] at hshort
    exact ⟨hpassword, hfields, hshort⟩
  · rintro ⟨hpassword, hfields, hshort⟩
    rw [basicText_length config f hpassword, (optionalText_spec config hfields).1]
    rw [linkLength] at hshort
    have hcoded : codedLength f.password + 5 ≤ basicLength config f := by
      rw [basicLength]
      omega
    refine ⟨⟨hpassword, ?_, by omega⟩, (optionalText_spec config hfields).2 (by omega), by omega, hshort⟩
    rw [codedLength] at hcoded
    omega

/-- What a configuration has to be like when a link of this program's own kind is made of it. -/
def EncodesSafely (config : Option ServerConfig) (allocFn : Bool) : Prop :=
  ∀ c f, config = some c → allocFn = true → linkFields c = some f → ¬ IsShadowsocks c → LinkOk c f

theorem met_ssrQrCodeEncode (config : Option ServerConfig) (allocFn : Bool) :
    (ssrQrCodeEncode config allocFn).Met ↔ EncodesSafely config allocFn := by
  cases config with
  | none =>
      refine iff_of_true (met_pure _) fun c f hc => ?_
      cases hc
  | some c =>
      rw [ssrQrCodeEncode]
      by_cases hnone : allocFn = false
      · rw [if_pos hnone]
        refine iff_of_true (met_pure _) fun c' f _ halloc => ?_
        rw [hnone] at halloc
        cases halloc
      rw [if_neg hnone]
      cases hfields : linkFields c with
      | none =>
          refine iff_of_true (met_pure _) fun c' f hc _ hf => ?_
          rw [← Option.some.inj hc, hfields] at hf
          cases hf
      | some f =>
          dsimp only
          by_cases hss : IsShadowsocks c
          · rw [if_pos hss]
            refine iff_of_true (met_pure _) fun c' f' hc _ _ hnot => ?_
            rw [← Option.some.inj hc] at hnot
            exact absurd hss hnot
          · have hsafe : EncodesSafely (some c) allocFn ↔ LinkOk c f := by
              constructor
              · intro h
                exact h c f rfl (by simpa using hnone) hfields hss
              · intro h c' f' hc _ hf _
                rw [← Option.some.inj hc, hfields] at hf
                rw [← Option.some.inj hc, ← Option.some.inj hf]
                exact h
            rw [if_neg hss, hsafe, ← met_ssrLink, met_bind]
            exact and_iff_left (met_pure _)

end Link

/-- Reading a link is safe exactly when every text in base64 that is reached is in order, and making one exactly
when the fields can be encoded and the link is short enough. -/
theorem share_links_iff (text : Option CText) (config : Option ServerConfig) (allocFn : Bool) :
    ((ssrQrCodeDecode text).Met ↔ DecodesSafely text) ∧
      ((ssrQrCodeEncode config allocFn).Met ↔ EncodesSafely config allocFn) :=
  ⟨met_ssrQrCodeDecode text, met_ssrQrCodeEncode config allocFn⟩

/-- A configuration with a password of one character. -/
def onePassword : ServerConfig :=
  { configCreate with
    remoteHost := literal "h"
    password := literal "x"
    obfs := literal "http_simple" }

/-- A link with one letter fails the assertion, and a password of one character fills more than the array. -/
theorem share_link_fails :
    ¬ (ssrQrCodeDecode (literal "ssr://A")).Met ∧ ¬ (ssrQrCodeEncode (some onePassword) true).Met := by
  decide +kernel

end QrCode
end SsrNative
