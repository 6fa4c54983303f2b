import SsrNative.QrCodeTexts

/-!
# QrCodeSsrLink — an `ssr://` link there and back

The fields behind the slash are items `key=value`.  The encoder appends them (`Writes`), and the loop of the decoder
is a fold over them (`paramLoop_eq`), so each item is followed on its own: `reads_field` says what a field is
afterwards.  The fields in front of the slash are not encoded, and have to do without separators.
-/

namespace SsrNative
namespace QrCode

open Bytes
open CString
open Base64
open Lib.Demand
open Lib.Demand.Demanding

/-! ## Writing the items -/

section Write

variable {step next : Bytes → Demanding Bytes} {items items' : List Bytes}

/-- `key=value&key=value`. -/
def joined (items : List Bytes) : Bytes := [0x26].intercalate items

theorem joined_concat (h : items ≠ []) (item : Bytes) : joined (items ++ [item]) = joined items ++ 0x26 :: item := by
  induction items with
  | nil => exact absurd rfl h
  | cons x items ih =>
      cases items with
      | nil => simp [joined]
      | cons y items =>
          have hrec := ih (List.cons_ne_nil y items)
          rw [joined, joined, List.cons_append] at hrec
          rw [joined, joined, List.cons_append, List.cons_append, List.intercalate_cons_cons, hrec,
            List.intercalate_cons_cons]
          simp

theorem joined_eq_nil (h : ∀ item ∈ items, item ≠ []) : joined items = [] ↔ items = [] := by
  cases items with
  | nil => exact iff_of_true rfl rfl
  | cons x items =>
      refine iff_of_false ?_ (List.cons_ne_nil x items)
      cases items with
      | nil =>
          rw [joined, List.intercalate_singleton]
          exact h x List.mem_cons_self
      | cons y items => simp [joined, List.intercalate_cons_cons]

theorem not_mem_joined {x : UInt8} (hx : x ≠ 0x26) (h : ∀ item ∈ items, x ∉ item) : x ∉ joined items := by
  induction items with
  | nil => exact List.not_mem_nil
  | cons item items ih =>
      rw [List.forall_mem_cons] at h
      cases items with
      | nil =>
          rw [joined, List.intercalate_singleton]
          exact h.1
      | cons next items =>
          have hrec := ih h.2
          rw [joined] at hrec
          rw [joined, List.intercalate_cons_cons]
          simp [h.1, hx, hrec]

/-- A step that appends these items to `optional`. -/
structure Writes (step : Bytes → Demanding Bytes) (items : List Bytes) : Prop where
  ne_nil : ∀ item ∈ items, item ≠ []
  value : ∀ before : List Bytes, (∀ item ∈ before, item ≠ []) →
    (step (joined before)).value = joined (before ++ items)

/-- One step after the other. -/
theorem Writes.bind (h : Writes step items) (h' : Writes next items') :
    Writes (fun o => step o >>= next) (items ++ items') where
  ne_nil item hitem := (List.mem_append.1 hitem).elim (h.ne_nil item) (h'.ne_nil item)
  value before hbefore := by
    rw [value_bind, h.value before hbefore, h'.value, List.append_assoc]
    intro item hitem
    exact (List.mem_append.1 hitem).elim (hbefore item) (h.ne_nil item)

/-- Nothing is appended. -/
theorem Writes.skip (h : ∀ o, (step o).value = o) : Writes step [] where
  ne_nil _ hitem := absurd hitem List.not_mem_nil
  value before _ := by rw [h, List.append_nil]

/-- `key=value`. -/
def itemText (key value : Bytes) : Bytes := key ++ 0x3d :: value

theorem writes_item (key value : Bytes) : Writes (appendItem key value) [itemText key value] where
  ne_nil item hitem := by
    rw [List.mem_singleton.1 hitem, itemText]
    exact List.append_ne_nil_of_right_ne_nil key (List.cons_ne_nil _ _)
  value before hbefore := by
    have heq : ascii "=" = [0x3d] := by decide
    have hamp : ascii "&" = [0x26] := by decide
    have hnone : (joined before).length = 0 ↔ before = [] := List.length_eq_zero_iff.trans (joined_eq_nil hbefore)
    rw [appendItem, sprintf, value_bind, value_pure, heq, hamp, itemText]
    -- the format without the `&` is the one for the first item
    by_cases hempty : before = []
    · rw [if_pos (hnone.2 hempty), hempty]
      simp [joined]
    · rw [if_neg fun h => hempty (hnone.1 h), joined_concat hempty]
      simp

/-- A field in base64. -/
def fieldItems (key : Bytes) (field : Option CText) : List Bytes :=
  if textOf field = [] then [] else [itemText key (urlLetters (textOf field))]

theorem writes_field (key : Bytes) {field : Option CText} (hok : FieldEncodable field)
    (hlen : (textOf field).length < 2048) : Writes (appendField key field) (fieldItems key field) := by
  rw [fieldItems]
  cases field with
  | none => exact Writes.skip fun _ => rfl
  | some s =>
      by_cases hempty : s.chars.length = 0
      · rw [textOf, if_pos (List.length_eq_zero_iff.1 hempty)]
        exact Writes.skip fun o => by rw [appendField, if_pos hempty, value_pure]
      · have hletters := urlSafeBase64Encode_whole (hok s rfl hempty) (hlen.trans (by decide))
        have hitem := writes_item key (urlLetters s.chars)
        rw [textOf, if_neg fun h => hempty (List.length_eq_zero_iff.2 h)]
        refine ⟨hitem.ne_nil, fun before hbefore => ?_⟩
        rw [appendField, if_neg hempty, value_bind, hletters]
        exact hitem.value before hbefore

def otEnableItems (overTlsEnable : Bool) : List Bytes :=
  if overTlsEnable = true then [itemText otEnable (ascii "1")] else []

theorem writes_otEnable (overTlsEnable : Bool) :
    Writes (appendOtEnable overTlsEnable) (otEnableItems overTlsEnable) := by
  cases overTlsEnable with
  | false => exact Writes.skip fun _ => rfl
  | true => exact writes_item otEnable (ascii "1")

end Write

section Items

variable (c : ServerConfig)

/-- The fields that are encoded unless they are empty. -/
def optionalFields : List (Option CText) :=
  [c.obfsParam, c.protocolParam, c.remarks, c.overTlsServerDomain, c.overTlsPath]

/-- The items in the order in which they are appended. -/
def optionalItems : List Bytes :=
  fieldItems obfsparam c.obfsParam ++ (fieldItems protoparam c.protocolParam ++ (fieldItems remarks c.remarks ++
    (otEnableItems c.overTlsEnable ++ (fieldItems otDomain c.overTlsServerDomain ++
      fieldItems otPath c.overTlsPath))))

variable {c}

theorem optionalText_joined (hok : ∀ field ∈ optionalFields c, FieldEncodable field)
    (hlen : ∀ field ∈ optionalFields c, (textOf field).length < 2048) :
    (optionalText c).value = joined (optionalItems c) ∧ ∀ item ∈ optionalItems c, item ≠ [] := by
  simp only [optionalFields, List.forall_mem_cons, List.not_mem_nil, false_implies, implies_true, and_true]
    at hok hlen
  rcases hok with ⟨hobfs, hproto, hremarks, hdomain, hpath⟩
  rcases hlen with ⟨hobfsLen, hprotoLen, hremarksLen, hdomainLen, hpathLen⟩
  have hwrites := (writes_field obfsparam hobfs hobfsLen).bind <|
    (writes_field protoparam hproto hprotoLen).bind <| (writes_field remarks hremarks hremarksLen).bind <|
      (writes_otEnable c.overTlsEnable).bind <| (writes_field otDomain hdomain hdomainLen).bind <|
        writes_field otPath hpath hpathLen
  exact ⟨hwrites.value [] nofun, hwrites.ne_nil⟩

theorem not_mem_fieldItems {x : UInt8} (hx : x ∈ [(0 : UInt8), 0x26]) {key : Bytes} (hkey : key ∈ codedKeys)
    (field : Option CText) : ∀ item ∈ fieldItems key field, x ∉ item := by
  have hkeys : ∀ key ∈ codedKeys, ∀ x ∈ [(0 : UInt8), 0x26], x ∉ key ∧ x ≠ 0x3d := by decide +kernel
  have hletters : x ∉ urlLetters (textOf field) := by
    rcases List.mem_cons.1 hx with rfl | hamp
    · exact zero_not_mem_urlLetters _
    · rw [List.mem_singleton.1 hamp]
      exact not_mem_urlLetters (by decide) _
  rw [fieldItems]
  split_ifs
  · exact nofun
  · rw [List.forall_mem_singleton, itemText, List.mem_append, List.mem_cons, not_or, not_or]
    exact ⟨(hkeys key hkey x hx).1, (hkeys key hkey x hx).2, hletters⟩

/-- The items can be told apart when they are joined. -/
theorem not_mem_optionalItems {x : UInt8} (hx : x ∈ [(0 : UInt8), 0x26]) : ∀ item ∈ optionalItems c, x ∉ item := by
  have hone : ∀ overTlsEnable, ∀ x ∈ [(0 : UInt8), 0x26], ∀ item ∈ otEnableItems overTlsEnable, x ∉ item := by
    decide +kernel
  simp only [optionalItems, List.forall_mem_append]
  exact ⟨not_mem_fieldItems hx (by decide) _, not_mem_fieldItems hx (by decide) _,
    not_mem_fieldItems hx (by decide) _, hone _ x hx, not_mem_fieldItems hx (by decide) _,
    not_mem_fieldItems hx (by decide) _⟩

theorem nul_not_mem_joined : (0 : UInt8) ∉ joined (optionalItems c) :=
  not_mem_joined (by decide) (not_mem_optionalItems (by decide))

end Items

/-! ## Reading them -/

section Read

def readItem (config : ServerConfig) (item : Bytes) : Demanding ServerConfig := paramItem config (CText.ofBytes item)

/-- The loop looks at one item after the other. -/
theorem paramLoop_eq {fuel : ℕ} {config : ServerConfig} {iter : CText} (hfuel : iter.chars.length < fuel) :
    paramLoop fuel config iter = (iter.chars.splitOn 0x26).foldlM readItem config := by
  induction fuel generalizing config iter with
  | zero => exact absurd hfuel (Nat.not_lt_zero _)
  | succ fuel ih =>
      rw [paramLoop]
      cases hcut : iter.cutAt 0x26 with
      | none =>
          rw [List.splitOn_eq_singleton (CText.not_mem_of_cutAt hcut), foldlM_singleton, readItem,
            CText.ofBytes_eq iter.nul_not_mem]
      | some parts =>
          rcases parts with ⟨item, next⟩
          rcases CText.eq_of_cutAt hcut with ⟨hsep, hchars⟩
          have hshorter : next.chars.length < fuel := by
            rw [hchars, List.length_append, List.length_cons] at hfuel
            omega
          have hrest : (fun config => paramLoop fuel config next) =
              fun config => (next.chars.splitOn 0x26).foldlM readItem config := funext fun config => ih hshorter
          rw [hchars, List.splitOn_append_cons_self_of_not_mem hsep, List.foldlM_cons, readItem,
            CText.ofBytes_eq item.nul_not_mem]
          exact congrArg (paramItem config item >>= ·) hrest

/-- What is done with `optional`. -/
def readOptional (config : ServerConfig) (optional : CText) : Demanding (Option ServerConfig) :=
  if optional.chars.length = 0 then return some config
  else do
    let config ← paramLoop (optional.chars.length + 1) config optional
    return some config

theorem readOptional_joined {items : List Bytes} {config config' : ServerConfig} (hne : ∀ item ∈ items, item ≠ [])
    (hsep : ∀ item ∈ items, 0x26 ∉ item) (hnul : (0 : UInt8) ∉ joined items)
    (h : (items.foldlM readItem config).Yields config') :
    (readOptional config (CText.ofBytes (joined items))).Yields (some config') := by
  have hchars := CText.ofBytes_chars hnul
  rw [readOptional]
  by_cases hempty : items = []
  · have hnone : (CText.ofBytes (joined items)).chars.length = 0 := by
      rw [hchars, hempty]
      rfl
    rw [hempty, List.foldlM_nil, yields_pure] at h
    rw [if_pos hnone, yields_pure, h]
  · have hsome : (CText.ofBytes (joined items)).chars.length ≠ 0 := by
      rw [hchars, Ne, List.length_eq_zero_iff, joined_eq_nil hne]
      exact hempty
    rw [if_neg hsome, paramLoop_eq (Nat.lt_succ_self _), hchars, joined, List.splitOn_intercalate _ hsep hempty,
      h.bind, yields_pure]

/-- An item that the table knows. -/
theorem readItem_itemText {key value : Bytes} {i : Param} (hkey : 0x3d ∉ key)
    (hnul : (0 : UInt8) ∉ itemText key value) (hlookup : params.lookup key = some i) (config : ServerConfig) :
    readItem config (itemText key value) = paramCase config (CText.ofBytes value) i := by
  have hchars := CText.ofBytes_chars hnul
  rw [readItem, paramItem, CText.cutAt_of_eq hchars hkey]
  dsimp only
  rw [CText.ofBytes_chars (CText.nul_not_mem_parts hchars).1, hlookup]

/-- Items that change a configuration in this way. -/
def Reads (items : List Bytes) (update : ServerConfig → ServerConfig) : Prop :=
  ∀ config, (items.foldlM readItem config).Yields (update config)

theorem Reads.append {items items' : List Bytes} {update update' : ServerConfig → ServerConfig}
    (h : Reads items update) (h' : Reads items' update') :
    Reads (items ++ items') fun config => update' (update config) := by
  intro config
  rw [foldlM_append, (h config).bind]
  exact h' _

/-- A field is assigned when it is named. -/
theorem reads_field {key : Bytes} {i : Param} {field : Option CText} (hkey : key ∈ codedKeys)
    (hlookup : params.lookup key = some i) (get : ServerConfig → Option CText)
    (assign : ServerConfig → Option CText → ServerConfig) (hsame : ∀ config, assign config (get config) = config)
    (hcase : ∀ config value, paramCase config value i = assignDecoded value fun s => assign config (some s))
    (hlen : (textOf field).length < 2048) :
    Reads (fieldItems key field) fun config => assign config (kept field (get config)) := by
  have hplain : ∀ key ∈ codedKeys, (0x3d : UInt8) ∉ key ∧ (0 : UInt8) ∉ key := by decide +kernel
  rcases hplain key hkey with ⟨hequals, hzero⟩
  intro config
  dsimp only
  rw [fieldItems, kept]
  by_cases hempty : textOf field = []
  · rw [if_pos hempty, if_pos hempty, hsame, List.foldlM_nil, yields_pure]
  · cases field with
    | none => exact absurd rfl hempty
    | some s =>
        have hnul : (0 : UInt8) ∉ itemText key (urlLetters s.chars) := by
          rw [itemText]
          simp [hzero, zero_not_mem_urlLetters]
        rw [if_neg hempty, if_neg hempty, foldlM_singleton, textOf, readItem_itemText hequals hnul hlookup,
          CText.ofBytes_eq (zero_not_mem_urlLetters _), ← coded, hcase]
        exact assignDecoded_coded s.nul_not_mem hlen _

theorem reads_otEnable (overTlsEnable : Bool) :
    Reads (otEnableItems overTlsEnable) fun config =>
      { config with overTlsEnable := overTlsEnable || config.overTlsEnable } := by
  intro config
  rw [otEnableItems]
  cases overTlsEnable with
  | false => exact (yields_pure _ _).2 rfl
  | true =>
      have hatoi : atoi (CText.ofBytes (ascii "1")) ≠ 0 := by decide +kernel
      have hlookup : params.lookup otEnable = some .otEnable := by decide
      rw [if_pos rfl, foldlM_singleton, readItem_itemText (by decide) (by decide) hlookup, paramCase,
        decide_eq_true hatoi]
      exact (yields_pure _ _).2 rfl

/-- All the items of a configuration. -/
theorem reads_optionalItems {c : ServerConfig} (hlen : ∀ field ∈ optionalFields c, (textOf field).length < 2048) :
    Reads (optionalItems c) fun config =>
      { config with
        obfsParam := kept c.obfsParam config.obfsParam
        protocolParam := kept c.protocolParam config.protocolParam
        remarks := kept c.remarks config.remarks
        overTlsEnable := c.overTlsEnable || config.overTlsEnable
        overTlsServerDomain := kept c.overTlsServerDomain config.overTlsServerDomain
        overTlsPath := kept c.overTlsPath config.overTlsPath } := by
  simp only [optionalFields, List.forall_mem_cons, List.not_mem_nil, false_implies, implies_true, and_true] at hlen
  rcases hlen with ⟨hobfs, hproto, hremarks, hdomain, hpath⟩
  exact (reads_field (i := .obfsparam) (by decide) (by decide) (fun config => config.obfsParam)
      (fun config o => { config with obfsParam := o }) (fun _ => rfl) (fun _ _ => rfl) hobfs).append <|
    (reads_field (i := .protoparam) (by decide) (by decide) (fun config => config.protocolParam)
      (fun config o => { config with protocolParam := o }) (fun _ => rfl) (fun _ _ => rfl) hproto).append <|
    (reads_field (i := .remarks) (by decide) (by decide) (fun config => config.remarks)
      (fun config o => { config with remarks := o }) (fun _ => rfl) (fun _ _ => rfl) hremarks).append <|
    (reads_otEnable c.overTlsEnable).append <|
    (reads_field (i := .otDomain) (by decide) (by decide) (fun config => config.overTlsServerDomain)
      (fun config o => { config with overTlsServerDomain := o }) (fun _ => rfl) (fun _ _ => rfl) hdomain).append <|
    (reads_field (i := .otPath) (by decide) (by decide) (fun config => config.overTlsPath)
      (fun config o => { config with overTlsPath := o }) (fun _ => rfl) (fun _ _ => rfl) hpath)

end Read

/-! ## The whole link -/

/-- What `decode_ssr` makes of a configuration. -/
def ssrRestored (c : ServerConfig) : ServerConfig :=
  { c with
    obfsParam := kept c.obfsParam configCreate.obfsParam
    protocolParam := kept c.protocolParam configCreate.protocolParam
    remarks := kept c.remarks configCreate.remarks
    overTlsServerDomain := kept c.overTlsServerDomain configCreate.overTlsServerDomain
    overTlsPath := kept c.overTlsPath configCreate.overTlsPath }

/-- The fields in front of the slash have no slash, and those behind the port no colon. -/
structure NoSeparators (c : ServerConfig) : Prop where
  slash : ∀ field ∈ [c.remoteHost, c.protocol, c.method, c.obfs], 0x2f ∉ textOf field
  colon : ∀ field ∈ [c.protocol, c.method, c.obfs], 0x3a ∉ textOf field

/-- A link can be made, and its texts are short enough for the arrays. -/
structure Codable (c : ServerConfig) : Prop where
  link : LinkOk c (fieldsOf c)
  password : (textOf c.password).length < 2048
  fields : ∀ field ∈ optionalFields c, (textOf field).length < 2048

section Encode

variable (c : ServerConfig)

/-- `host:port:protocol:method:obfs:base64pass`. -/
def basic : Bytes :=
  ((((textOf c.remoteHost ++ 0x3a :: portText c) ++ 0x3a :: textOf c.protocol) ++ 0x3a :: textOf c.method) ++
    0x3a :: textOf c.obfs) ++ 0x3a :: urlLetters (textOf c.password)

/-- What is put in base64 as a whole. -/
def plainLink : Bytes := resultText (basic c) (joined (optionalItems c))

theorem nul_not_mem_basic : (0 : UInt8) ∉ basic c := by
  rw [basic]
  simp [nul_not_mem_textOf, not_mem_portText (x := 0) (by decide), zero_not_mem_urlLetters]

theorem nul_not_mem_plainLink : (0 : UInt8) ∉ plainLink c := by
  have hslash : (0 : UInt8) ∉ if (joined (optionalItems c)).length = 0 then ascii "/" else ascii "/?" := by
    split_ifs
    all_goals decide
  rw [plainLink, resultText, List.mem_append, List.mem_append, not_or, not_or]
  exact ⟨⟨nul_not_mem_basic c, hslash⟩, nul_not_mem_joined⟩

theorem nul_not_mem_ssrLink : (0 : UInt8) ∉ ssrHeader ++ urlLetters (plainLink c) := by
  rw [List.mem_append, not_or]
  exact ⟨by decide, zero_not_mem_urlLetters _⟩

variable {c}

theorem basicText_value (h : Codable c) : (basicText c (fieldsOf c)).value = basic c := by
  have hcolon : ascii ":" = [0x3a] := by decide
  have hletters := urlSafeBase64Encode_whole h.link.password (h.password.trans (by decide))
  rw [basicText, value_bind, sprintf, value_bind, value_pure, hletters, hcolon, basic, fieldsOf]
  simp

theorem ssrLink_value (h : Codable c) :
    (ssrLink c (fieldsOf c)).value = ssrHeader ++ urlLetters (plainLink c) ∧ (plainLink c).length ≤ 1530 := by
  rcases optionalText_joined h.link.fields h.fields with ⟨hoptional, -⟩
  have hbasic := basicText_value h
  have hshort : (plainLink c).length ≤ 1530 := by
    have hlen := h.link.short
    rwa [linkLength, ← basicText_length c _ h.link.password, ← (optionalText_spec c h.link.fields).1, hbasic,
      hoptional, ← resultText_length] at hlen
  have htwo : 2 ≤ (plainLink c).length := by
    rw [plainLink, resultText_length, basic]
    simp only [List.length_append, List.length_cons]
    omega
  have henc : Encodable (plainLink c) := by
    rw [Encodable, toInt32_of_lt (by omega)]
    omega
  have hresult : (sprintf [] (plainLink c)).value = plainLink c := rfl
  refine ⟨?_, hshort⟩
  rw [ssrLink, value_bind, hbasic, value_bind, hoptional, value_bind, ← resultText, ← plainLink, hresult, value_bind,
    urlSafeBase64Encode_whole henc (by omega)]
  rfl

end Encode

section Decode

variable {c : ServerConfig}

/-- The parts are found from the end; the hostname may have colons. -/
theorem ssrParts_basic (h : NoSeparators c) :
    ssrParts (CText.ofBytes (basic c)) = some ⟨CText.ofBytes (textOf c.remoteHost), CText.ofBytes (portText c),
      CText.ofBytes (textOf c.protocol), CText.ofBytes (textOf c.method), CText.ofBytes (textOf c.obfs),
      coded (textOf c.password)⟩ := by
  have hnul₀ := nul_not_mem_basic c
  have hcolon := h.colon
  simp only [List.forall_mem_cons, List.not_mem_nil, false_implies, implies_true, and_true] at hcolon
  rcases hcolon with ⟨hprotocol, hmethod, hobfs⟩
  rw [basic] at hnul₀ ⊢
  -- what is in front of each colon is a text of its own
  have hnul₁ := mt (List.mem_append_left _) hnul₀
  have hnul₂ := mt (List.mem_append_left _) hnul₁
  have hnul₃ := mt (List.mem_append_left _) hnul₂
  have hnul₄ := mt (List.mem_append_left _) hnul₃
  have hpass := CText.cutAtLast_of_eq (CText.ofBytes_chars hnul₀) (not_mem_urlLetters (by decide) _)
  have hobfs := CText.cutAtLast_of_eq (CText.ofBytes_chars hnul₁) hobfs
  have hmethod := CText.cutAtLast_of_eq (CText.ofBytes_chars hnul₂) hmethod
  have hprotocol := CText.cutAtLast_of_eq (CText.ofBytes_chars hnul₃) hprotocol
  have hport := CText.cutAtLast_of_eq (CText.ofBytes_chars hnul₄) (not_mem_portText (by decide) c)
  simp only [ssrParts, Option.bind_eq_bind, hpass, hobfs, hmethod, hprotocol, hport, Option.bind_some,
    Option.pure_def, CText.ofBytes_eq (zero_not_mem_urlLetters _), coded]

theorem slash_not_mem_basic (h : NoSeparators c) : 0x2f ∉ basic c := by
  have hslash := h.slash
  simp only [List.forall_mem_cons, List.not_mem_nil, false_implies, implies_true, and_true] at hslash
  rcases hslash with ⟨hhost, hprotocol, hmethod, hobfs⟩
  rw [basic]
  simp [hhost, hprotocol, hmethod, hobfs, not_mem_portText (x := 0x2f) (by decide),
    not_mem_urlLetters (x := 0x2f) (by decide)]

/-- The slash behind the basic part is the first one. -/
theorem splitOptional_resultText {basic optional : Bytes} (hslash : 0x2f ∉ basic)
    (hnul : (0 : UInt8) ∉ resultText basic optional) :
    splitOptional (CText.ofBytes (resultText basic optional)) =
      (CText.ofBytes basic, some (CText.ofBytes optional)) := by
  have hone : ascii "/" = [0x2f] := by decide
  have htwo : ascii "/?" = [0x2f, 0x3f] := by decide
  have hchars := CText.ofBytes_chars hnul
  rw [splitOptional]
  -- without items there is only the slash, and no `?` behind it
  by_cases hempty : optional = []
  · have heq : resultText basic optional = basic ++ 0x2f :: optional := by
      rw [resultText, hempty, if_pos List.length_nil, hone, List.append_assoc]
      rfl
    rw [heq] at hchars ⊢
    rw [CText.cutAt_of_eq hchars hslash, hempty]
    rfl
  · have heq : resultText basic optional = basic ++ 0x2f :: (0x3f :: optional) := by
      rw [resultText, if_neg (fun h => hempty (List.length_eq_zero_iff.1 h)), htwo, List.append_assoc]
      rfl
    rw [heq] at hchars ⊢
    have hrest := CText.ofBytes_chars (CText.nul_not_mem_parts hchars).2
    rw [CText.cutAt_of_eq hchars hslash]
    dsimp only
    rw [hrest]
    rfl

variable (c) in
/-- The configuration before the items are read. -/
def ssrBase : ServerConfig :=
  { configCreate with
    remoteHost := c.remoteHost
    remotePort := c.remotePort
    protocol := c.protocol
    method := c.method
    obfs := c.obfs
    password := c.password }

theorem read_ssrBase (hlen : ∀ field ∈ optionalFields c, (textOf field).length < 2048) :
    ((optionalItems c).foldlM readItem (ssrBase c)).Yields (ssrRestored c) := by
  have hread := reads_optionalItems hlen (ssrBase c)
  have henable : (c.overTlsEnable || (ssrBase c).overTlsEnable) = c.overTlsEnable := Bool.or_false _
  dsimp only at hread
  rw [henable] at hread
  exact hread

/-- A link whose fields have no separators is read again. -/
theorem decode_ssrLink (hp : Present c) (h : Codable c) (hsep : NoSeparators c) :
    (ssrQrCodeDecode (some (CText.ofBytes (ssrHeader ++ urlLetters (plainLink c))))).Yields
      (some (ssrRestored c)) := by
  have hlink := nul_not_mem_ssrLink c
  have hplain := nul_not_mem_plainLink c
  have hlen : (plainLink c).length < 2048 := (ssrLink_value h).2.trans_lt (by decide)
  have hsplit : splitOptional ⟨plainLink c, hplain⟩ =
      (CText.ofBytes (basic c), some (CText.ofBytes (joined (optionalItems c)))) := by
    rw [← CText.ofBytes_eq hplain]
    exact splitOptional_resultText (slash_not_mem_basic hsep) hplain
  have hread := readOptional_joined (optionalText_joined h.link.fields h.fields).2
    (not_mem_optionalItems (by decide)) nul_not_mem_joined (read_ssrBase h.fields)
  -- the configuration as the decoder has filled it from the parts
  rw [ssrBase, ← hp.host, ← hp.protocol, ← hp.method, ← hp.obfs, ← hp.password,
    CText.ofBytes_eq (nul_not_mem_textOf c.password), ← portOf_decimal c.remotePort, ← portText] at hread
  rw [ssrQrCodeDecode_ssr hlink, decodeSsr, behindHeader_append hlink, CText.ofBytes_eq (zero_not_mem_urlLetters _),
    ← coded, (decodePlainText_coded hplain hlen).bind, hsplit]
  dsimp only
  rw [ssrParts_basic hsep]
  dsimp only
  rw [(assignDecoded_coded (nul_not_mem_textOf c.password) h.password _).bind]
  exact hread

end Decode

/-! ## Whatever is read -/

section Inversion

variable {config : ServerConfig}

theorem readItem_noSeparators (h : NoSeparators config) (item : Bytes) :
    NoSeparators (readItem config item).value := by
  rw [readItem, paramItem]
  cases (CText.ofBytes item).cutAt 0x3d with
  | none => exact h
  | some parts =>
      rcases parts with ⟨key, value⟩
      dsimp only
      cases params.lookup key.chars with
      | none => exact h
      | some i =>
          -- no case of the `switch` touches these fields
          cases i
          all_goals exact ⟨h.slash, h.colon⟩

theorem readItems_noSeparators (h : NoSeparators config) (items : List Bytes) :
    NoSeparators (items.foldlM readItem config).value := by
  induction items generalizing config with
  | nil => exact h
  | cons item items ih =>
      rw [List.foldlM_cons, value_bind]
      exact ih (readItem_noSeparators h item)

theorem readOptional_noSeparators {c' : ServerConfig} (h : NoSeparators config) {optional : CText}
    (hread : (readOptional config optional).value = some c') : NoSeparators c' := by
  rw [readOptional, value_ite] at hread
  split_ifs at hread
  · cases hread
    exact h
  · rw [value_bind, paramLoop_eq (Nat.lt_succ_self _)] at hread
    cases hread
    exact readItems_noSeparators h _

/-- The parts come from the text, and those behind the port have no colon. -/
theorem ssrParts_inv {t : CText} {parts : SsrParts} (h : ssrParts t = some parts) :
    (∀ s ∈ [parts.host, parts.protocol, parts.method, parts.obfs], s.chars ⊆ t.chars) ∧
      ∀ s ∈ [parts.protocol, parts.method, parts.obfs], 0x3a ∉ s.chars := by
  simp only [ssrParts, Option.bind_eq_bind, Option.bind_eq_some_iff, Option.pure_def, Option.some.injEq] at h
  -- `a`, `b`, `d` and `e` are what is left in front of the parts
  rcases h with ⟨⟨a, pass⟩, ha, ⟨b, obfs⟩, hb, ⟨d, method⟩, hd, ⟨e, protocol⟩, he, ⟨host, port⟩, hhost, rfl⟩
  have hobfs := CText.subset_of_cutAtLast hb
  have hmethod := CText.subset_of_cutAtLast hd
  have hprotocol := CText.subset_of_cutAtLast he
  have hat := (CText.subset_of_cutAtLast ha).1
  have hbt := List.Subset.trans hobfs.1 hat
  have hdt := List.Subset.trans hmethod.1 hbt
  have het := List.Subset.trans hprotocol.1 hdt
  simp only [List.forall_mem_cons, List.not_mem_nil, false_implies, implies_true, and_true]
  refine ⟨⟨?_, ?_, ?_, ?_⟩, ?_, ?_, ?_⟩
  · exact List.Subset.trans (CText.subset_of_cutAtLast hhost).1 het
  · exact List.Subset.trans hprotocol.2 hdt
  · exact List.Subset.trans hmethod.2 hbt
  · exact List.Subset.trans hobfs.2 hat
  · exact (CText.eq_of_cutAtLast he).1
  · exact (CText.eq_of_cutAtLast hd).1
  · exact (CText.eq_of_cutAtLast hb).1

theorem splitOptional_slash {t basic : CText} {optional : Option CText}
    (h : splitOptional t = (basic, optional)) : 0x2f ∉ basic.chars := by
  rw [splitOptional] at h
  cases hcut : t.cutAt 0x2f with
  | none =>
      rw [hcut] at h
      cases h
      exact CText.not_mem_of_cutAt hcut
  | some parts =>
      rw [hcut] at h
      cases h
      exact (CText.eq_of_cutAt hcut).1

theorem noSeparators_of_parts {parts : SsrParts}
    (hslash : ∀ s ∈ [parts.host, parts.protocol, parts.method, parts.obfs], 0x2f ∉ s.chars)
    (hcolon : ∀ s ∈ [parts.protocol, parts.method, parts.obfs], 0x3a ∉ s.chars) (password : Option CText) :
    NoSeparators { configCreate with
      remoteHost := some parts.host
      remotePort := portOf parts.port
      protocol := some parts.protocol
      method := some parts.method
      obfs := some parts.obfs
      password := password } := by
  simp only [List.forall_mem_cons, List.not_mem_nil, false_implies, implies_true, and_true] at hslash hcolon
  constructor
  · simp only [List.forall_mem_cons, List.not_mem_nil, false_implies, implies_true, and_true]
    exact hslash
  · simp only [List.forall_mem_cons, List.not_mem_nil, false_implies, implies_true, and_true]
    exact hcolon

/-- No configuration that is read from an `ssr://` link has separators in these fields. -/
theorem decodeSsr_noSeparators {text : CText} {c' : ServerConfig} (h : (decodeSsr text).value = some c') :
    NoSeparators c' := by
  rw [decodeSsr] at h
  cases hheader : behindHeader ssrHeader text with
  | none =>
      rw [hheader] at h
      cases h
  | some link =>
      rw [hheader] at h
      dsimp only at h
      rw [value_bind] at h
      rcases hsplit : splitOptional (decodePlainText link).value with ⟨basic, optional⟩
      rw [hsplit] at h
      dsimp only at h
      cases hparts : ssrParts basic with
      | none =>
          rw [hparts] at h
          cases h
      | some parts =>
          rw [hparts] at h
          dsimp only at h
          rw [value_bind] at h
          rcases ssrParts_inv hparts with ⟨hsubset, hcolon⟩
          have hslash : ∀ s ∈ [parts.host, parts.protocol, parts.method, parts.obfs], 0x2f ∉ s.chars :=
            fun s hs hmem => splitOptional_slash hsplit (hsubset s hs hmem)
          have hbase := noSeparators_of_parts hslash hcolon
          cases optional with
          | none =>
              cases h
              exact hbase _
          | some optional => exact readOptional_noSeparators (hbase _) h

end Inversion

end QrCode
end SsrNative
