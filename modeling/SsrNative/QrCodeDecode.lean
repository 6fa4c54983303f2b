import SsrNative.QrCode

/-!
# QrCodeDecode — which links are read without harm

A link is decoded piece by piece, and every piece that is in base64 runs into the assertion of
`str_url_safe_base64_to_std_base64` when its length is one above a multiple of four.  The fields of an `ssr://`
link are decoded into `swap_buf`, whatever their length, and the old form of an `ss://` link can end the
program with its method.  Nothing else goes wrong (`met_ssrQrCodeDecode`).
-/

namespace SsrNative
namespace QrCode

open Bytes
open Base64
open CipherNames
open Lib.Demand
open Lib.Demand.Demanding
open Lib.Text

/-! ## One text in base64 -/

/-- The letters at the front of a text, of either alphabet. -/
def letterCountUrl (t : Bytes) : ℕ := (t.takeWhile fun c => decide (pr2six (stdLetter c) ≤ 63)).length

/-- A text that `swap_buf` has room for. -/
structure FieldOk (t : Bytes) : Prop where
  aligned : t.length % 4 ≠ 1
  short : (toInt32 (letterCountUrl t)).toNat ≤ 2730

/-- A text that `plain_text` is large enough for.  This can only fail when an `int` is too small for the number
of letters, or for the length that is made from it. -/
structure PlainOk (t : Bytes) : Prop where
  aligned : t.length % 4 ≠ 1
  counted : (toInt32 (letterCountUrl t)).toNat * 3 / 4 ≤ toInt32 ((letterCountUrl t + 3) / 4 * 3 + 1)

section Base64

variable (t : CText)

/-- The padding is no letter. -/
theorem takeWhile_padding (a : Bytes) (k : ℕ) :
    (a ++ List.replicate k 0x3d).takeWhile (fun c => decide (pr2six c ≤ 63)) =
      a.takeWhile fun c => decide (pr2six c ≤ 63) := by
  have hpad : (List.replicate k (0x3d : UInt8)).takeWhile (fun c => decide (pr2six c ≤ 63)) = [] := by
    cases k with
    | zero => rfl
    | succ k => exact List.takeWhile_cons_of_neg (by decide)
  rw [List.takeWhile_append]
  split
  case isTrue hall =>
    have hself := (List.takeWhile_prefix fun c => decide (pr2six c ≤ 63)).eq_of_length hall
    rw [hpad, List.append_nil, hself]
  case isFalse => rfl

theorem std_eq : strReplaceChar (strReplaceChar t.chars 0x2d 0x2b) 0x5f 0x2f = t.chars.map stdLetter := by
  rw [strReplaceChar_text t.nul_not_mem, strReplaceChar_text (zero_not_mem_map t.nul_not_mem (by decide)),
    List.map_map]
  rfl

/-- The letters that the decoder counts. -/
theorem letterCount_std (k : ℕ) :
    letterCount (t.chars.map stdLetter ++ List.replicate k 0x3d ++ [0]) = letterCountUrl t.chars := by
  have hnul : (0 : UInt8) ∉ t.chars.map stdLetter ++ List.replicate k 0x3d := by
    rw [List.mem_append, not_or, ← std_eq,
      strReplaceChar_text t.nul_not_mem, strReplaceChar_text (zero_not_mem_map t.nul_not_mem (by decide))]
    refine ⟨zero_not_mem_map (zero_not_mem_map t.nul_not_mem (by decide)) (by decide), fun hmem => ?_⟩
    exact absurd (List.eq_of_mem_replicate hmem) (by decide)
  rw [letterCount, cString_zero hnul, takeWhile_padding, List.takeWhile_map, List.length_map]
  rfl

theorem strUrlSafe_of_mod (h : t.chars.length % 4 = 1) : strUrlSafeBase64ToStdBase64 t.chars = none := by
  rw [strUrlSafeBase64ToStdBase64, std_eq]
  simp only [List.length_map, h, if_true]

theorem strUrlSafe_of_not (h : t.chars.length % 4 ≠ 1) :
    ∃ k, strUrlSafeBase64ToStdBase64 t.chars = some (t.chars.map stdLetter ++ List.replicate k 0x3d) := by
  rw [strUrlSafeBase64ToStdBase64, std_eq]
  simp only [List.length_map, h, if_false]
  split_ifs
  · exact ⟨2, rfl⟩
  · exact ⟨1, rfl⟩
  · exact ⟨0, by rw [List.replicate_zero, List.append_nil]⟩

/-- What is left in an array when `t` has been decoded into it. -/
def decodedText : CText := CText.ofBytes ((urlSafeBase64Written t).getD [])

theorem value_urlSafeBase64Decode (capacity : ℕ) : (urlSafeBase64Decode capacity t).value = decodedText t := by
  rw [urlSafeBase64Decode, decodedText]
  cases urlSafeBase64Written t with
  | none => rfl
  | some written => rfl

theorem met_urlSafeBase64Decode (capacity : ℕ) :
    (urlSafeBase64Decode capacity t).Met ↔
      t.chars.length % 4 ≠ 1 ∧ (toInt32 (letterCountUrl t.chars)).toNat * 3 / 4 + 1 ≤ capacity := by
  rw [urlSafeBase64Decode, urlSafeBase64Written]
  by_cases hmod : t.chars.length % 4 = 1
  · rw [strUrlSafe_of_mod t hmod]
    simp [hmod]
  · rcases strUrlSafe_of_not t hmod with ⟨k, hstd⟩
    rw [hstd]
    simp only [Option.map_some, met_bind, met_demand, met_pure, and_true, stdBase64DecodeIn_length,
      letterCount_std, ne_eq, hmod, not_false_eq_true, true_and]

/-- A field that goes to `swap_buf`. -/
theorem met_swapBuf : (urlSafeBase64Decode SSR_BUFF_SIZE t).Met ↔ FieldOk t.chars := by
  rw [met_urlSafeBase64Decode, SSR_BUFF_SIZE]
  constructor
  · rintro ⟨hmod, hfits⟩
    exact ⟨hmod, by omega⟩
  · rintro ⟨hmod, hshort⟩
    exact ⟨hmod, by omega⟩

theorem value_decodePlainText : (decodePlainText t).value = decodedText t :=
  value_urlSafeBase64Decode t _

theorem met_decodePlainText : (decodePlainText t).Met ↔ PlainOk t.chars := by
  rw [decodePlainText, met_bind, urlSafeBase64DecodeLen, met_urlSafeBase64Decode]
  by_cases hmod : t.chars.length % 4 = 1
  · rw [strUrlSafe_of_mod t hmod]
    exact iff_of_false (fun h => h.2.1 hmod) fun h => h.aligned hmod
  · rcases strUrlSafe_of_not t hmod with ⟨k, hstd⟩
    rw [hstd]
    simp only [met_pure, true_and, value_pure, stdBase64DecodeLen, letterCount_std]
    constructor
    · rintro ⟨-, hfits⟩
      exact ⟨hmod, by omega⟩
    · rintro ⟨-, hcounted⟩
      exact ⟨hmod, by omega⟩

end Base64

/-! ## Separators -/

section Separators

variable {sep : UInt8} {t a b : CText}

/-- What is said about every way to split a text at its first separator is said about the one that is found. -/
theorem forall_cutAt {P : Bytes → Bytes → Prop} (h : t.cutAt sep = some (a, b)) :
    (∀ p q, t.chars = p ++ sep :: q → sep ∉ p → P p q) ↔ P a.chars b.chars := by
  rcases CText.eq_of_cutAt h with ⟨hsep, hchars⟩
  constructor
  · intro hall
    exact hall _ _ hchars hsep
  · intro hP p q hpq hp
    have hsame := CText.cutAt_of_eq hpq hp
    rw [h, Option.some.injEq, Prod.mk.injEq] at hsame
    rcases CText.nul_not_mem_parts hpq with ⟨hnp, hnq⟩
    rwa [hsame.1, hsame.2, CText.ofBytes_chars hnp, CText.ofBytes_chars hnq] at hP

theorem forall_cutAt_none {P : Bytes → Bytes → Prop} (h : t.cutAt sep = none) :
    ∀ p q, t.chars = p ++ sep :: q → sep ∉ p → P p q := by
  intro p q hpq
  have hnot := CText.not_mem_of_cutAt h
  rw [hpq] at hnot
  exact absurd (List.mem_append_right p List.mem_cons_self) hnot

/-- The same for the last separator. -/
theorem forall_cutAtLast {P : Bytes → Bytes → Prop} (h : t.cutAtLast sep = some (a, b)) :
    (∀ p q, t.chars = p ++ sep :: q → sep ∉ q → P p q) ↔ P a.chars b.chars := by
  rcases CText.eq_of_cutAtLast h with ⟨hsep, hchars⟩
  constructor
  · intro hall
    exact hall _ _ hchars hsep
  · intro hP p q hpq hq
    have hsame := CText.cutAtLast_of_eq hpq hq
    rw [h, Option.some.injEq, Prod.mk.injEq] at hsame
    rcases CText.nul_not_mem_parts hpq with ⟨hnp, hnq⟩
    rwa [hsame.1, hsame.2, CText.ofBytes_chars hnp, CText.ofBytes_chars hnq] at hP

theorem count_of_cutAtLast (h : t.cutAtLast sep = some (a, b)) : t.chars.count sep = a.chars.count sep + 1 := by
  rcases CText.eq_of_cutAtLast h with ⟨hsep, hchars⟩
  rw [hchars, List.count_append, List.count_cons_self, List.count_eq_zero_of_not_mem hsep]

/-- A separator that is there is found. -/
theorem exists_cutAtLast {n : ℕ} (h : n + 1 ≤ t.chars.count sep) :
    ∃ a b, t.cutAtLast sep = some (a, b) ∧ n ≤ a.chars.count sep := by
  cases hcut : t.cutAtLast sep with
  | none =>
      rw [List.count_eq_zero_of_not_mem (CText.not_mem_of_cutAtLast hcut)] at h
      exact absurd h (Nat.not_succ_le_zero n)
  | some parts =>
      rcases parts with ⟨a, b⟩
      rw [count_of_cutAtLast hcut] at h
      exact ⟨a, b, rfl, Nat.le_of_succ_le_succ h⟩

end Separators

/-! ## `ssr://` -/

/-- The keys whose values go to `swap_buf`. -/
def codedKeys : List Bytes := [obfsparam, protoparam, remarks, otDomain, otPath]

/-- An item `key=value`, where the key may be one that nobody knows. -/
def ItemOk (item : Bytes) : Prop :=
  ∀ key value, item = key ++ 0x3d :: value → 0x3d ∉ key → key ∈ codedKeys → FieldOk value

/-- The fields that are decoded once there are five colons: what is behind the last of them, and the items. -/
structure SsrFieldsOk (basic : Bytes) (optional : Option CText) : Prop where
  password : ∀ front pass, basic = front ++ 0x3a :: pass → 0x3a ∉ pass → 4 ≤ front.count 0x3a → FieldOk pass
  items : 5 ≤ basic.count 0x3a → ∀ o, optional = some o → ∀ item ∈ o.chars.splitOn 0x26, ItemOk item

/-- What is behind `ssr://`. -/
structure SsrLinkOk (link : CText) : Prop where
  plain : PlainOk link.chars
  fields : SsrFieldsOk (splitOptional (decodedText link)).1.chars (splitOptional (decodedText link)).2

section Ssr

variable (config : ServerConfig)

theorem met_assignDecoded (value : CText) (assign : CText → ServerConfig) :
    (assignDecoded value assign).Met ↔ FieldOk value.chars := by
  rw [assignDecoded, met_bind, met_swapBuf]
  exact and_iff_left (met_pure _)

/-- The cases that decode. -/
def Param.coded : Param → Bool
  | .group | .udpport | .uot | .otEnable => false
  | .obfsparam | .protoparam | .remarks | .otDomain | .otPath => true

theorem met_paramCase (value : CText) (i : Param) :
    (paramCase config value i).Met ↔ (i.coded = true → FieldOk value.chars) := by
  cases i with
  | group | udpport | uot | otEnable => exact iff_of_true (met_pure _) nofun
  | obfsparam | protoparam | remarks | otDomain | otPath =>
      exact (met_assignDecoded value _).trans ⟨fun h _ => h, fun h => h rfl⟩

/-- The table of the keys agrees with the cases. -/
theorem coded_iff {key : Bytes} {i : Param} (h : params.lookup key = some i) :
    i.coded = true ↔ key ∈ codedKeys := by
  have hall : ∀ entry ∈ params, (entry.2.coded = true ↔ entry.1 ∈ codedKeys) := by decide +kernel
  rcases List.lookup_eq_some_iff.1 h with ⟨before, behind, hsplit, -⟩
  have hmem : (key, i) ∈ params := by
    rw [hsplit]
    exact List.mem_append_right before List.mem_cons_self
  exact hall (key, i) hmem

theorem not_mem_codedKeys {key : Bytes} (h : params.lookup key = none) : key ∉ codedKeys := by
  intro hmem
  have hall : ∀ key ∈ codedKeys, params.lookup key ≠ none := by decide +kernel
  exact hall key hmem h

theorem met_paramItem (item : CText) : (paramItem config item).Met ↔ ItemOk item.chars := by
  rw [paramItem, ItemOk]
  cases hcut : item.cutAt 0x3d with
  | none => exact iff_of_true (met_pure _) (forall_cutAt_none hcut)
  | some parts =>
      rcases parts with ⟨key, value⟩
      rw [forall_cutAt (P := fun key value => key ∈ codedKeys → FieldOk value) hcut]
      dsimp only
      cases hlookup : params.lookup key.chars with
      | none => exact iff_of_true (met_pure _) fun hmem => absurd hmem (not_mem_codedKeys hlookup)
      | some i =>
          rw [← coded_iff hlookup]
          exact met_paramCase config value i

theorem itemsOk_nil : ∀ item ∈ ([] : Bytes).splitOn 0x26, ItemOk item := by
  rw [List.splitOn_eq_singleton List.not_mem_nil, List.forall_mem_singleton]
  intro key value hitem
  exact absurd hitem.symm (List.append_ne_nil_of_right_ne_nil key (List.cons_ne_nil _ _))

/-- Every item is looked at. -/
theorem met_paramLoop {fuel : ℕ} {iter : CText} (hfuel : iter.chars.length < fuel) :
    (paramLoop fuel config iter).Met ↔ ∀ item ∈ iter.chars.splitOn 0x26, ItemOk item := by
  induction fuel generalizing config iter with
  | zero => exact absurd hfuel (Nat.not_lt_zero _)
  | succ fuel ih =>
      rw [paramLoop]
      cases hcut : iter.cutAt 0x26 with
      | none =>
          rw [List.splitOn_eq_singleton (CText.not_mem_of_cutAt hcut), List.forall_mem_singleton]
          exact met_paramItem config iter
      | some parts =>
          rcases parts with ⟨item, next⟩
          rcases CText.eq_of_cutAt hcut with ⟨hsep, hchars⟩
          have hshorter : next.chars.length < fuel := by
            rw [hchars, List.length_append, List.length_cons] at hfuel
            omega
          rw [hchars, List.splitOn_append_cons_self_of_not_mem hsep, List.forall_mem_cons]
          exact (met_bind _ _).trans (and_congr (met_paramItem config item) (ih _ hshorter))

/-- Five colons are found, or there are not so many. -/
theorem ssrParts_some {basic : CText} {parts : SsrParts} (h : ssrParts basic = some parts) :
    ∃ front, basic.cutAtLast 0x3a = some (front, parts.base64pass) ∧ 4 ≤ front.chars.count 0x3a := by
  simp only [ssrParts, Option.bind_eq_bind, Option.bind_eq_some_iff, Option.pure_def, Option.some.injEq] at h
  rcases h with ⟨⟨a, pass⟩, ha, ⟨b, obfs⟩, hb, ⟨c, method⟩, hc, ⟨d, protocol⟩, hd, ⟨e, port⟩, he, rfl⟩
  refine ⟨a, ha, ?_⟩
  have hb := count_of_cutAtLast hb
  have hc := count_of_cutAtLast hc
  have hd := count_of_cutAtLast hd
  have he := count_of_cutAtLast he
  dsimp only at hb hc hd he
  omega

theorem ssrParts_none {basic : CText} (h : ssrParts basic = none) : ¬ 5 ≤ basic.chars.count 0x3a := by
  intro hfive
  rcases exists_cutAtLast hfive with ⟨a, pass, ha, hfour⟩
  rcases exists_cutAtLast hfour with ⟨b, obfs, hb, hthree⟩
  rcases exists_cutAtLast hthree with ⟨c, method, hc, htwo⟩
  rcases exists_cutAtLast htwo with ⟨d, protocol, hd, hone⟩
  rcases exists_cutAtLast hone with ⟨e, port, he, -⟩
  simp [ssrParts, ha, hb, hc, hd, he] at h

/-- What is done with the fields. -/
theorem ssrFieldsOk_iff {basic : CText} {optional : Option CText} {parts : SsrParts}
    (h : ssrParts basic = some parts) :
    SsrFieldsOk basic.chars optional ↔ FieldOk parts.base64pass.chars ∧
      ∀ o, optional = some o → ∀ item ∈ o.chars.splitOn 0x26, ItemOk item := by
  rcases ssrParts_some h with ⟨front, hcut, hfour⟩
  have hpass := forall_cutAtLast (P := fun front pass => 4 ≤ front.count 0x3a → FieldOk pass) hcut
  have hfive : 5 ≤ basic.chars.count 0x3a := by
    rw [count_of_cutAtLast hcut]
    exact Nat.succ_le_succ hfour
  constructor
  · rintro ⟨hpassword, hitems⟩
    exact ⟨hpass.1 hpassword hfour, hitems hfive⟩
  · rintro ⟨hpassword, hitems⟩
    exact ⟨hpass.2 fun _ => hpassword, fun _ => hitems⟩

theorem ssrFieldsOk_of_none {basic : CText} (optional : Option CText) (h : ssrParts basic = none) :
    SsrFieldsOk basic.chars optional := by
  have hfew := ssrParts_none h
  refine ⟨fun front pass hsplit _ hfour => absurd ?_ hfew, fun hfive => absurd hfive hfew⟩
  rw [hsplit, List.count_append, List.count_cons_self]
  omega

/-- `decode_ssr` goes through when every text that it decodes is in order. -/
theorem met_decodeSsr (text : CText) :
    (decodeSsr text).Met ↔ ∀ link, behindHeader ssrHeader text = some link → SsrLinkOk link := by
  rw [decodeSsr]
  cases hheader : behindHeader ssrHeader text with
  | none => exact iff_of_true (met_pure _) nofun
  | some link =>
      have hsplit : SsrLinkOk link ↔ PlainOk link.chars ∧
          SsrFieldsOk (splitOptional (decodedText link)).1.chars (splitOptional (decodedText link)).2 :=
        ⟨fun h => ⟨h.plain, h.fields⟩, fun h => ⟨h.1, h.2⟩⟩
      simp only [Option.some.injEq, forall_eq']
      rw [hsplit, met_bind, met_decodePlainText, value_decodePlainText]
      refine and_congr_right fun _ => ?_
      rcases splitOptional (decodedText link) with ⟨basic, optional⟩
      dsimp only
      cases hparts : ssrParts basic with
      | none => exact iff_of_true (met_pure _) (ssrFieldsOk_of_none optional hparts)
      | some parts =>
          rw [ssrFieldsOk_iff hparts, met_bind, met_assignDecoded]
          refine and_congr_right fun _ => ?_
          cases optional with
          | none => exact iff_of_true (met_pure _) nofun
          | some o =>
              simp only [Option.some.injEq, forall_eq']
              by_cases hempty : o.chars.length = 0
              · rw [if_pos hempty, List.eq_nil_of_length_eq_zero hempty]
                exact iff_of_true (met_pure _) itemsOk_nil
              · rw [if_neg hempty, met_bind, met_paramLoop _ (Nat.lt_succ_self _)]
                exact and_iff_left (met_pure _)

end Ssr

/-! ## `ss://` -/

/-- `userinfo@hostname:port`: the user information is decoded when there is a port. -/
def UriOk (uri : Bytes) : Prop :=
  ∀ userinfo rest, uri = userinfo ++ 0x40 :: rest → 0x40 ∉ userinfo → 0x3a ∈ rest → PlainOk userinfo

/-- `method:password@hostname:port`: the method is looked up when the other separators are there. -/
def LegacyOk (plain : Bytes) : Prop :=
  ∀ method password rest, plain = method ++ 0x3a :: (password ++ 0x40 :: rest) → 0x3a ∉ method → 0x3a ∈ rest →
    Names ssCipherMap method

/-- What is behind `ss://` and in front of the `#`. -/
def SsLinkOk (contents : CText) : Prop :=
  (IsSsUri contents → UriOk (withoutPlugin contents).chars) ∧
    (¬ IsSsUri contents → PlainOk contents.chars ∧ LegacyOk (decodedText contents).chars)

section Ss

variable (contents : CText)

theorem mem_iff_cutAtLast {sep : UInt8} {t : CText} : sep ∈ t.chars ↔ t.cutAtLast sep ≠ none := by
  constructor
  · intro hmem hcut
    exact CText.not_mem_of_cutAtLast hcut hmem
  · intro hcut
    rcases Option.ne_none_iff_exists'.1 hcut with ⟨⟨a, b⟩, hsome⟩
    rw [(CText.eq_of_cutAtLast hsome).2]
    exact List.mem_append_right _ List.mem_cons_self

theorem met_ssUriParts : (ssUriParts contents).Met ↔ UriOk (withoutPlugin contents).chars := by
  rw [ssUriParts, UriOk]
  cases hat : (withoutPlugin contents).cutAt 0x40 with
  | none => exact iff_of_true (met_pure _) (forall_cutAt_none hat)
  | some parts =>
      rcases parts with ⟨userinfo, hostname⟩
      rw [forall_cutAt (P := fun userinfo rest => 0x3a ∈ rest → PlainOk userinfo) hat, mem_iff_cutAtLast]
      dsimp only
      cases hcolon : hostname.cutAtLast 0x3a with
      | none => exact iff_of_true (met_pure _) fun h => absurd rfl h
      | some parts =>
          rcases parts with ⟨hostname, port⟩
          have hthere : ((some (hostname, port) ≠ none) → PlainOk userinfo.chars) ↔ PlainOk userinfo.chars :=
            forall_prop_of_true nofun
          rw [hthere]
          dsimp only
          rw [met_bind, met_decodePlainText]
          refine and_iff_left ?_
          cases (decodePlainText userinfo).value.cutAt 0x3a with
          | none => exact met_pure _
          | some parts => exact met_pure _

/-- The method is looked up with the text in front of the first colon. -/
theorem legacyOk_iff (plain : CText) :
    LegacyOk plain.chars ↔ ∀ parts, legacyFields plain = some parts → Names ssCipherMap parts.method.chars := by
  constructor
  · intro h parts hparts
    simp only [legacyFields, Option.bind_eq_bind, Option.bind_eq_some_iff, Option.pure_def, Option.some.injEq]
      at hparts
    rcases hparts with ⟨⟨method, behind⟩, hmethod, ⟨front, port⟩, hport, ⟨password, hostname⟩, hhost, rfl⟩
    rcases CText.eq_of_cutAt hmethod with ⟨hnot, hplain⟩
    have hbehind := (CText.eq_of_cutAtLast hport).2
    have hfront := (CText.eq_of_cutAtLast hhost).2
    dsimp only at hbehind hfront
    refine h method.chars password.chars (hostname.chars ++ 0x3a :: port.chars) ?_ hnot ?_
    · rw [hplain, hbehind, hfront, List.append_assoc, List.cons_append]
    · exact List.mem_append_right _ List.mem_cons_self
  · intro h method password rest hplain hnot hcolon
    -- the last colon is in `rest`, so the `@` stays in front of it
    cases hrest : cutLast 0x3a rest with
    | none => exact absurd hcolon (not_mem_of_cutLast_eq_none hrest)
    | some parts =>
        rcases parts with ⟨host, port⟩
        rcases eq_of_cutLast hrest with ⟨hport, rfl⟩
        rcases CText.nul_not_mem_parts hplain with ⟨hmethod, hbehind⟩
        have hcutMethod := CText.cutAt_of_eq hplain hnot
        have hchars : (CText.ofBytes (password ++ 0x40 :: (host ++ 0x3a :: port))).chars =
            (password ++ 0x40 :: host) ++ 0x3a :: port := by
          rw [CText.ofBytes_chars hbehind, List.append_assoc, List.cons_append]
        have hcutPort := CText.cutAtLast_of_eq hchars hport
        have hat : 0x40 ∈ (CText.ofBytes (password ++ 0x40 :: host)).chars := by
          rw [CText.ofBytes_chars (CText.nul_not_mem_parts hchars).1]
          exact List.mem_append_right _ List.mem_cons_self
        rcases Option.ne_none_iff_exists'.1 (mem_iff_cutAtLast.1 hat) with ⟨⟨front, hostname⟩, hcutHost⟩
        have hparts : legacyFields plain =
            some ⟨CText.ofBytes method, front, hostname, CText.ofBytes port, false⟩ := by
          simp [legacyFields, hcutMethod, hcutPort, hcutHost]
        have hnames := h _ hparts
        rwa [CText.ofBytes_chars hmethod] at hnames

theorem met_legacyParts :
    (legacyParts contents).Met ↔ PlainOk contents.chars ∧ LegacyOk (decodedText contents).chars := by
  rw [legacyParts, met_bind, met_decodePlainText, value_decodePlainText, legacyOk_iff]
  refine and_congr_right fun _ => ?_
  cases hfields : legacyFields (decodedText contents) with
  | none => exact iff_of_true (met_pure _) nofun
  | some parts =>
      simp only [Option.some.injEq, forall_eq']
      rw [← met_ssCipherTypeOfName]
      exact (met_bind _ _).trans (and_iff_left (met_pure _))

theorem met_ssParts : (ssParts contents).Met ↔ SsLinkOk contents := by
  rw [ssParts, met_ite, SsLinkOk]
  by_cases huri : IsSsUri contents
  · rw [if_pos huri, met_ssUriParts]
    exact ⟨fun h => ⟨fun _ => h, fun hnot => absurd huri hnot⟩, fun h => h.1 huri⟩
  · rw [if_neg huri, met_legacyParts]
    exact ⟨fun h => ⟨fun hthere => absurd hthere huri, fun _ => h⟩, fun h => h.2 huri⟩

/-- `decode_shadowsocks` goes through when its user information is in order, or its method known. -/
theorem met_decodeShadowsocks (text : CText) :
    (decodeShadowsocks text).Met ↔
      ∀ link, behindHeader ssHeader text = some link → SsLinkOk (splitRemarks link).1 := by
  rw [decodeShadowsocks]
  cases hheader : behindHeader ssHeader text with
  | none => exact iff_of_true (met_pure _) nofun
  | some link =>
      simp only [Option.some.injEq, forall_eq']
      rw [← met_ssParts, met_bind]
      refine and_iff_left ?_
      cases (ssParts (splitRemarks link).1).value with
      | none => exact met_pure _
      | some parts => exact met_pure _

end Ss

/-! ## Any text -/

/-- What a link has to be like, of either kind. -/
def DecodesSafely (text : Option CText) : Prop :=
  ∀ t, text = some t →
    (∀ link, behindHeader ssHeader t = some link → SsLinkOk (splitRemarks link).1) ∧
      ∀ link, behindHeader ssrHeader t = some link → SsrLinkOk link

theorem behindHeader_none {header : Bytes} {t : CText} (h : ¬ header <+: t.chars) : behindHeader header t = none :=
  if_neg h

/-- No text has both headers. -/
theorem not_ssr_of_ss {t : CText} (h : ssHeader <+: t.chars) : ¬ ssrHeader <+: t.chars := by
  intro hssr
  have hboth := List.prefix_or_prefix_of_prefix h hssr
  exact absurd hboth (by decide)

/-- Decoding goes through exactly when every text in base64 that it comes to is in order. -/
theorem met_ssrQrCodeDecode (text : Option CText) : (ssrQrCodeDecode text).Met ↔ DecodesSafely text := by
  cases text with
  | none => exact iff_of_true (met_pure _) nofun
  | some t =>
      simp only [DecodesSafely, Option.some.injEq, forall_eq']
      rw [← met_decodeShadowsocks, ← met_decodeSsr, ssrQrCodeDecode]
      have hskipSs : ¬ ssHeader <+: t.chars → (decodeShadowsocks t).Met := fun h => by
        rw [decodeShadowsocks, behindHeader_none h]
        exact met_pure _
      have hskipSsr : ¬ ssrHeader <+: t.chars → (decodeSsr t).Met := fun h => by
        rw [decodeSsr, behindHeader_none h]
        exact met_pure _
      by_cases hempty : t.chars.length = 0
      · have hnil := List.eq_nil_of_length_eq_zero hempty
        rw [if_pos hempty]
        refine iff_of_true (met_pure _) ⟨hskipSs ?_, hskipSsr ?_⟩
        · rw [hnil]
          decide
        · rw [hnil]
          decide
      rw [if_neg hempty]
      by_cases hss : ssHeader <+: t.chars
      · rw [if_pos hss]
        exact (and_iff_left (hskipSsr (not_ssr_of_ss hss))).symm
      rw [if_neg hss, and_iff_right (hskipSs hss)]
      by_cases hssr : ssrHeader <+: t.chars
      · rw [if_pos hssr]
      · rw [if_neg hssr]
        exact iff_of_true (met_pure _) (hskipSsr hssr)

end QrCode
end SsrNative
