import SsrNative.QrCodeTexts

/-!
# QrCodeSsLink — an `ss://` link there and back

Only the user information and the remarks are encoded.  The hostname stands in the link as it is, and the names of
the protocol and of the obfuscation do not stand in it at all, so what `SsRestorable` says is true of every
configuration that is read from such a link, and a configuration of which it is true is read again.
-/

namespace SsrNative
namespace QrCode

open Bytes
open CString
open Base64
open Lib.Demand
open Lib.Demand.Demanding
open Lib.Search
open Lib.Text

/-- Fields that an `ss://` link has room for, and that have no sign in them which means something there. -/
structure SsRestorable (c : ServerConfig) : Prop where
  host : 0x23 ∉ textOf c.remoteHost
  plugin : ¬ ascii "/?" <:+: textOf c.remoteHost
  method : 0x3a ∉ textOf c.method
  protocol : c.protocol = literal "origin"
  obfs : c.obfs = literal "plain"

/-- What `decode_shadowsocks` makes of a configuration. -/
def ssRestored (c : ServerConfig) : ServerConfig :=
  { configCreate with
    remarks := kept c.remarks configCreate.remarks
    method := c.method
    password := c.password
    remoteHost := c.remoteHost
    remotePort := c.remotePort
    overTlsPath := literal ""
    protocol := literal "origin"
    obfs := literal "plain" }

/-! ## Making it -/

section Encode

variable (c : ServerConfig)

/-- `method:password`. -/
def userinfo : Bytes := textOf c.method ++ 0x3a :: textOf c.password

/-- `userinfo@hostname:port`. -/
def ssUri : Bytes := urlLetters (userinfo c) ++ 0x40 :: (textOf c.remoteHost ++ 0x3a :: portText c)

/-- The remarks behind it. -/
def ssTag : Bytes := if textOf c.remarks = [] then [] else 0x23 :: uriEncode (textOf c.remarks)

theorem nul_not_mem_userinfo : (0 : UInt8) ∉ userinfo c := by
  rw [userinfo]
  simp [nul_not_mem_textOf]

theorem nul_not_mem_ssUri : (0 : UInt8) ∉ ssUri c := by
  rw [ssUri]
  simp [zero_not_mem_urlLetters, nul_not_mem_textOf, not_mem_portText (x := 0) (by decide)]

theorem nul_not_mem_ssLink : (0 : UInt8) ∉ ssUri c ++ ssTag c := by
  have htag : (0 : UInt8) ∉ ssTag c := by
    rw [ssTag]
    split_ifs
    · exact List.not_mem_nil
    · simp [not_mem_uriEncode]
  rw [List.mem_append, not_or]
  exact ⟨nul_not_mem_ssUri c, htag⟩

theorem nul_not_mem_ssHeader : (0 : UInt8) ∉ ssHeader ++ (ssUri c ++ ssTag c) := by
  rw [List.mem_append, not_or]
  exact ⟨by decide, nul_not_mem_ssLink c⟩

theorem generateShadowsocksUri_eq (hpassword : 2 ≤ (textOf c.password).length) :
    generateShadowsocksUri c (fieldsOf c) = ssHeader ++ (ssUri c ++ ssTag c) := by
  have hcolon : ascii ":" = [0x3a] := by decide
  have hat : ascii "@" = [0x40] := by decide
  have hhash : ascii "#" = [0x23] := by decide
  have huserinfo : textOf c.method ++ [0x3a] ++ textOf c.password = userinfo c := by
    rw [userinfo, List.append_assoc, List.singleton_append]
  have htwo : 2 ≤ (userinfo c).length := by
    rw [userinfo, List.length_append, List.length_cons]
    omega
  rcases urlSafeBase64EncodeIn_value (fun _ => 0) _ htwo with ⟨k, hyields, -⟩
  rw [generateShadowsocksUri, fieldsOf, hcolon, hat, hhash]
  dsimp only
  rw [huserinfo, hyields.2, cString_zero (zero_not_mem_urlLetters _), ssTag, ssUri]
  cases c.remarks with
  | none => simp [textOf]
  | some remarks =>
      by_cases hempty : remarks.chars = []
      · simp [textOf, hempty]
      · simp [textOf, hempty]

end Encode

/-! ## Its pieces -/

section Pieces

variable {contents : CText}

theorem withoutPlugin_of_not (h : ¬ ascii "/?" <:+: contents.chars) : withoutPlugin contents = contents := by
  rw [withoutPlugin, findSub_eq_none_iff.2 h]

variable (contents) in
/-- What is left has no sign of a plugin. -/
theorem withoutPlugin_spec :
    (withoutPlugin contents).chars <+: contents.chars ∧ ¬ ascii "/?" <:+: (withoutPlugin contents).chars := by
  rw [withoutPlugin]
  cases hfind : findSub (ascii "/?") contents.chars with
  | none => exact ⟨List.prefix_rfl, findSub_eq_none_iff.1 hfind⟩
  | some i =>
      have hnul : (0 : UInt8) ∉ contents.chars.take i := fun hmem =>
        contents.nul_not_mem (List.mem_of_mem_take hmem)
      dsimp only
      rw [CText.ofBytes_chars hnul]
      -- everything behind the first `/?` is gone
      exact ⟨List.take_prefix _ _, not_infix_take hfind (by decide)⟩

/-- There is no `#` in front of the first one, and what came before it is still there. -/
theorem splitRemarks_spec {text : CText} {remarks : Option CText} (h : splitRemarks text = (contents, remarks)) :
    0x23 ∉ contents.chars ∧
      ∀ a x b, text.chars = a ++ x :: b → 0x23 ∉ a → x ≠ 0x23 → x ∈ contents.chars := by
  rw [splitRemarks] at h
  cases hcut : text.cutAt 0x23 with
  | none =>
      rw [hcut] at h
      cases h
      refine ⟨CText.not_mem_of_cutAt hcut, fun a x b hchars _ _ => ?_⟩
      rw [hchars]
      exact List.mem_append_right a List.mem_cons_self
  | some parts =>
      rw [hcut] at h
      cases h
      rcases CText.eq_of_cutAt hcut with ⟨hsep, hchars⟩
      exact ⟨hsep, fun a x b heq => mem_of_append_eq (heq.symm.trans hchars)⟩

/-- The parts of `userinfo@hostname:port`. -/
theorem ssUriParts_yields {method password host port : Bytes}
    (hchars : contents.chars = urlLetters (method ++ 0x3a :: password) ++ 0x40 :: (host ++ 0x3a :: port))
    (hplugin : ¬ ascii "/?" <:+: contents.chars) (hmethod : 0x3a ∉ method) (hport : 0x3a ∉ port)
    (hnul : (0 : UInt8) ∉ method ++ 0x3a :: password) (hlen : (method ++ 0x3a :: password).length < 2048) :
    (ssUriParts contents).Yields (some ⟨CText.ofBytes method, CText.ofBytes password, CText.ofBytes host,
      CText.ofBytes port, true⟩) := by
  have hhost := CText.ofBytes_chars (CText.nul_not_mem_parts hchars).2
  rw [ssUriParts, withoutPlugin_of_not hplugin, CText.cutAt_of_eq hchars (not_mem_urlLetters (by decide) _)]
  dsimp only
  rw [CText.cutAtLast_of_eq hhost hport]
  dsimp only
  rw [CText.ofBytes_eq (zero_not_mem_urlLetters _), ← coded, (decodePlainText_coded hnul hlen).bind,
    CText.cutAt_of_eq rfl hmethod]
  exact (yields_pure _ _).2 rfl

/-- Whatever is found, the hostname is a part of the text, and the method has no colon. -/
theorem ssUriParts_inv {parts : SsParts} (h : (ssUriParts contents).value = some parts) :
    parts.hostname.chars <:+: (withoutPlugin contents).chars ∧ 0x3a ∉ parts.method.chars := by
  rw [ssUriParts] at h
  cases hat : (withoutPlugin contents).cutAt 0x40 with
  | none =>
      rw [hat] at h
      cases h
  | some pair =>
      rcases pair with ⟨userinfo, rest⟩
      rw [hat] at h
      dsimp only at h
      cases hcolon : rest.cutAtLast 0x3a with
      | none =>
          rw [hcolon] at h
          cases h
      | some pair =>
          rcases pair with ⟨hostname, port⟩
          rw [hcolon] at h
          dsimp only at h
          rw [value_bind] at h
          cases hmethod : (decodePlainText userinfo).value.cutAt 0x3a with
          | none =>
              rw [hmethod] at h
              cases h
          | some pair =>
              rcases pair with ⟨method, password⟩
              rw [hmethod] at h
              cases h
              refine ⟨⟨userinfo.chars ++ [0x40], 0x3a :: port.chars, ?_⟩, (CText.eq_of_cutAt hmethod).1⟩
              rw [(CText.eq_of_cutAt hat).2, (CText.eq_of_cutAtLast hcolon).2]
              simp

end Pieces

/-! ## Reading it -/

section Decode

variable {c : ServerConfig}

/-- No sign of a plugin, and none of remarks. -/
theorem ssUri_plain (h : SsRestorable c) : ¬ ascii "/?" <:+: ssUri c ∧ 0x23 ∉ ssUri c := by
  have hplugin : ascii "/?" = [0x2f, 0x3f] := by decide
  have huri : ssUri c = (urlLetters (userinfo c) ++ [0x40]) ++ (textOf c.remoteHost ++ 0x3a :: portText c) := by
    rw [ssUri, List.append_assoc, List.singleton_append]
  constructor
  · intro hoccurs
    rw [huri] at hoccurs
    refine h.plugin (infix_of_append_left (infix_of_append_right hoccurs ?_) ?_)
    · rw [hplugin]
      simp [not_mem_urlLetters (x := 0x2f) (by decide), not_mem_urlLetters (x := 0x3f) (by decide)]
    · rw [hplugin]
      simp [not_mem_portText (x := 0x2f) (by decide), not_mem_portText (x := 0x3f) (by decide)]
  · rw [ssUri]
    simp [not_mem_urlLetters (x := 0x23) (by decide), h.host, not_mem_portText (x := 0x23) (by decide)]

theorem splitRemarks_ssLink (hhash : 0x23 ∉ ssUri c) :
    splitRemarks (CText.ofBytes (ssUri c ++ ssTag c)) = (CText.ofBytes (ssUri c),
      if textOf c.remarks = [] then none else some (CText.ofBytes (uriEncode (textOf c.remarks)))) := by
  have hnul := nul_not_mem_ssLink c
  rw [ssTag] at hnul ⊢
  rw [splitRemarks]
  by_cases hempty : textOf c.remarks = []
  · have hchars := CText.ofBytes_chars (nul_not_mem_ssUri c)
    rw [if_pos hempty, if_pos hempty, List.append_nil]
    cases hcut : (CText.ofBytes (ssUri c)).cutAt 0x23 with
    | none => rfl
    | some parts =>
        rw [(CText.eq_of_cutAt hcut).2] at hchars
        rw [← hchars] at hhash
        exact absurd (List.mem_append_right _ List.mem_cons_self) hhash
  · rw [if_neg hempty] at hnul
    rw [if_neg hempty, if_neg hempty, CText.cutAt_of_eq (CText.ofBytes_chars hnul) hhash]

/-- The remarks as they are read from the link. -/
theorem ssConfig_remarks {parts : SsParts} (haead : parts.isAead = true) :
    (ssConfig parts (if textOf c.remarks = [] then none
      else some (CText.ofBytes (uriEncode (textOf c.remarks))))).remarks = kept c.remarks configCreate.remarks := by
  rw [kept]
  by_cases hempty : textOf c.remarks = []
  · rw [if_pos hempty, if_pos hempty]
    rfl
  · rw [if_neg hempty, if_neg hempty, ssConfig]
    dsimp only
    rw [if_pos haead, CText.ofBytes_chars (not_mem_uriEncode (by decide) _), uriDecode_uriEncode]
    cases hremarks : c.remarks with
    | none =>
        rw [hremarks] at hempty
        exact absurd rfl hempty
    | some remarks => rw [textOf, CText.ofBytes_eq remarks.nul_not_mem]

variable (c) in
/-- What is found in a link that nothing is wrong with. -/
def ssLinkParts : SsParts :=
  ⟨CText.ofBytes (textOf c.method), CText.ofBytes (textOf c.password), CText.ofBytes (textOf c.remoteHost),
    CText.ofBytes (portText c), true⟩

theorem ssParts_ssUri (h : SsRestorable c) (hlen : (userinfo c).length < 2048) :
    (ssParts (CText.ofBytes (ssUri c))).Yields (some (ssLinkParts c)) := by
  have hchars := CText.ofBytes_chars (nul_not_mem_ssUri c)
  have hthere : IsSsUri (CText.ofBytes (ssUri c)) := by
    refine ⟨0x40, ?_, by decide⟩
    rw [hchars, ssUri]
    exact List.mem_append_right _ List.mem_cons_self
  rw [ssParts, if_pos hthere]
  refine ssUriParts_yields hchars ?_ h.method (not_mem_portText (by decide) c) (nul_not_mem_userinfo c) hlen
  rw [hchars]
  exact (ssUri_plain h).1

/-- The configuration that is filled then. -/
theorem ssConfig_restored (hp : Present c) :
    ssConfig (ssLinkParts c) (if textOf c.remarks = [] then none
      else some (CText.ofBytes (uriEncode (textOf c.remarks)))) = ssRestored c := by
  have hremarks := ssConfig_remarks (c := c) (rfl : (ssLinkParts c).isAead = true)
  rw [ssRestored, ← hremarks, ← hp.method, ← hp.password, ← hp.host, ← portOf_decimal c.remotePort, ← portText]
  rfl

/-- A link that nothing is wrong with is read again. -/
theorem decode_ssLink (hp : Present c) (h : SsRestorable c) (hpassword : 2 ≤ (textOf c.password).length)
    (hlen : (userinfo c).length < 2048) :
    (ssrQrCodeDecode (some (CText.ofBytes (generateShadowsocksUri c (fieldsOf c))))).Yields
      (some (ssRestored c)) := by
  have hdigit : isDigit (byteAt (ssLinkParts c).port.chars 0) = true := by
    rw [ssLinkParts, portText, CText.ofBytes_chars (not_mem_decimal (by decide) _)]
    exact isDigit_byteAt_decimal _
  rw [generateShadowsocksUri_eq c hpassword, ssrQrCodeDecode_ss (nul_not_mem_ssHeader c), decodeShadowsocks,
    behindHeader_append (nul_not_mem_ssHeader c)]
  dsimp only
  rw [splitRemarks_ssLink (ssUri_plain h).2]
  dsimp only
  rw [(ssParts_ssUri h hlen).bind]
  dsimp only
  rw [if_pos hdigit, yields_pure, ssConfig_restored hp]

/-- Whatever else is read from such a link has the names of Shadowsocks and no such signs. -/
theorem decode_ssLink_inv {c' : ServerConfig} (hpassword : 2 ≤ (textOf c.password).length)
    (h : (ssrQrCodeDecode (some (CText.ofBytes (generateShadowsocksUri c (fieldsOf c))))).value = some c') :
    SsRestorable c' := by
  have hchars : (CText.ofBytes (ssUri c ++ ssTag c)).chars =
      urlLetters (userinfo c) ++ 0x40 :: (textOf c.remoteHost ++ 0x3a :: portText c ++ ssTag c) := by
    rw [CText.ofBytes_chars (nul_not_mem_ssLink c), ssUri, List.append_assoc, List.cons_append]
  rw [generateShadowsocksUri_eq c hpassword, ssrQrCodeDecode_ss (nul_not_mem_ssHeader c), decodeShadowsocks,
    behindHeader_append (nul_not_mem_ssHeader c)] at h
  dsimp only at h
  rcases hsplit : splitRemarks (CText.ofBytes (ssUri c ++ ssTag c)) with ⟨contents, remarks⟩
  rcases splitRemarks_spec hsplit with ⟨hhash, hfirst⟩
  -- the `@` comes before any `#` that the hostname may have
  have hthere : IsSsUri contents :=
    ⟨0x40, hfirst _ _ _ hchars (not_mem_urlLetters (by decide) _) (by decide), by decide⟩
  rw [hsplit] at h
  dsimp only at h
  rw [ssParts, if_pos hthere, value_bind] at h
  cases hparts : (ssUriParts contents).value with
  | none =>
      rw [hparts] at h
      cases h
  | some parts =>
      rw [hparts] at h
      dsimp only at h
      rw [value_pure] at h
      split_ifs at h
      cases h
      rcases ssUriParts_inv hparts with ⟨hoccurs, hcolon⟩
      rcases withoutPlugin_spec contents with ⟨hfront, hplugin⟩
      refine ⟨fun hmem => ?_, fun hsub => ?_, hcolon, rfl, rfl⟩
      · exact hhash (hfront.subset (hoccurs.subset hmem))
      · exact hplugin (hsub.trans hoccurs)

end Decode

end QrCode
end SsrNative
