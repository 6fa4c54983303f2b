import SsrNative.QrCodeSsLink
import SsrNative.QrCodeSsrLink

/-!
# QrCodeRoundTrip — which configurations come back from their links

A link says nothing about a field that is empty, and the decoder starts from a new configuration, which has remarks
and a path.  `decode_shadowsocks` clears that path, `decode_ssr` does not.  Besides, the fields that are not in
base64 stand in the link unescaped.  Everything else comes back (`share_link_roundTrips_iff`).
-/

namespace SsrNative
namespace QrCode

open Bytes
open Base64
open CipherNames
open Lib.Demand
open Lib.Demand.Demanding

/-! ## What is to come back -/

/-- What every link is to bring back. -/
structure Restores (c c' : ServerConfig) : Prop where
  remoteHost : c'.remoteHost = c.remoteHost
  remotePort : c'.remotePort = c.remotePort
  protocol : c'.protocol = c.protocol
  method : c'.method = c.method
  obfs : c'.obfs = c.obfs
  password : c'.password = c.password
  remarks : textOf c'.remarks = textOf c.remarks

/-- What an `ssr://` link is to bring back besides. -/
structure RestoresOptional (c c' : ServerConfig) : Prop where
  obfsParam : textOf c'.obfsParam = textOf c.obfsParam
  protocolParam : textOf c'.protocolParam = textOf c.protocolParam
  overTlsEnable : c'.overTlsEnable = c.overTlsEnable
  overTlsServerDomain : textOf c'.overTlsServerDomain = textOf c.overTlsServerDomain
  overTlsPath : textOf c'.overTlsPath = textOf c.overTlsPath

/-- A link is made and read, and says what the configuration says. -/
def LinkRoundTrips (c : ServerConfig) : Prop :=
  ∃ link c', (ssrQrCodeEncode (some c) true).Yields (some link) ∧
    (ssrQrCodeDecode (some (CText.ofBytes link))).Yields (some c') ∧ Restores c c' ∧
      (ssrHeader <+: link → RestoresOptional c c')

/-- A password of two characters at least, and texts that the arrays have room for. -/
structure InRange (c : ServerConfig) : Prop where
  password : 2 ≤ (textOf c.password).length
  encodes : (ssrQrCodeEncode (some c) true).Met
  userinfo : IsShadowsocks c → (userinfo c).length < 2048
  texts : ¬ IsShadowsocks c → ∀ field ∈ c.password :: optionalFields c, (textOf field).length < 2048

/-- What a link asks of a configuration. -/
structure Restorable (c : ServerConfig) : Prop where
  fields : (linkFields c).isSome = true
  remarks : textOf c.remarks ≠ []
  ss : IsShadowsocks c → SsRestorable c
  ssr : ¬ IsShadowsocks c → NoSeparators c ∧ textOf c.overTlsPath ≠ []

section RoundTrip

variable {c c' : ServerConfig} {f : LinkFields}

/-! ## Making the link -/

theorem encode_ss (hfields : linkFields c = some f) (hss : IsShadowsocks c) :
    (ssrQrCodeEncode (some c) true).Yields (some (generateShadowsocksUri c (fieldsOf c))) := by
  rw [ssrQrCodeEncode, if_neg Bool.true_eq_false.mp, hfields, (linkFields_some hfields).1]
  dsimp only
  rw [if_pos hss, yields_pure]

theorem InRange.codable (h : InRange c) (hfields : linkFields c = some f) (hss : ¬ IsShadowsocks c) :
    Codable c := by
  have htexts := h.texts hss
  rw [List.forall_mem_cons] at htexts
  refine ⟨?_, htexts.1, htexts.2⟩
  rw [← (linkFields_some hfields).1]
  exact (met_ssrQrCodeEncode _ _).1 h.encodes c f rfl rfl hfields hss

theorem encode_ssr (h : InRange c) (hfields : linkFields c = some f) (hss : ¬ IsShadowsocks c) :
    (ssrQrCodeEncode (some c) true).Yields (some (ssrHeader ++ urlLetters (plainLink c))) := by
  refine ⟨h.encodes, ?_⟩
  rw [ssrQrCodeEncode, if_neg Bool.true_eq_false.mp, hfields, (linkFields_some hfields).1]
  dsimp only
  rw [if_neg hss, value_bind, (ssrLink_value (h.codable hfields hss)).1, value_pure]

/-- The link that is made is the one that is read. -/
theorem linkRoundTrips_of_yields {link : Bytes} (h : (ssrQrCodeEncode (some c) true).Yields (some link)) :
    LinkRoundTrips c ↔ ∃ c', (ssrQrCodeDecode (some (CText.ofBytes link))).Yields (some c') ∧ Restores c c' ∧
      (ssrHeader <+: link → RestoresOptional c c') := by
  constructor
  · rintro ⟨link', c', henc, hrest⟩
    rw [Option.some.inj (h.unique henc)]
    exact ⟨c', hrest⟩
  · rintro ⟨c', hrest⟩
    exact ⟨link, c', h, hrest⟩

/-! ## What came back -/

/-- What is known of the configuration that is read is true of the other one as well. -/
theorem Restores.ssRestorable (h : Restores c c') (hr : SsRestorable c') : SsRestorable c := by
  rcases hr with ⟨hhost, hplugin, hmethod, hprotocol, hobfs⟩
  rw [h.remoteHost] at hhost hplugin
  rw [h.method] at hmethod
  rw [h.protocol] at hprotocol
  rw [h.obfs] at hobfs
  exact ⟨hhost, hplugin, hmethod, hprotocol, hobfs⟩

theorem Restores.noSeparators (h : Restores c c') (hr : NoSeparators c') : NoSeparators c := by
  rcases hr with ⟨hslash, hcolon⟩
  rw [h.remoteHost, h.protocol, h.method, h.obfs] at hslash
  rw [h.protocol, h.method, h.obfs] at hcolon
  exact ⟨hslash, hcolon⟩

theorem fresh_remarks : textOf configCreate.remarks ≠ [] := by decide

theorem fresh_path : textOf configCreate.overTlsPath ≠ [] := by decide

/-- A field that a new configuration has comes back unless it was empty. -/
theorem kept_restored {field fresh : Option CText} (h : textOf fresh ≠ []) :
    textOf (kept field fresh) = textOf field ↔ textOf field ≠ [] := by
  rw [textOf_kept, or_iff_right h]

theorem kept_empty (field : Option CText) : textOf (kept field (literal "")) = textOf field :=
  (textOf_kept field _).2 (Or.inl (by decide))

theorem restores_ssRestored (h : SsRestorable c) : Restores c (ssRestored c) ↔ textOf c.remarks ≠ [] := by
  rw [← kept_restored fresh_remarks]
  exact ⟨fun hres => hres.remarks, fun hremarks => ⟨rfl, rfl, h.protocol.symm, rfl, h.obfs.symm, rfl, hremarks⟩⟩

theorem restores_ssrRestored : Restores c (ssrRestored c) ↔ textOf c.remarks ≠ [] := by
  rw [← kept_restored fresh_remarks]
  exact ⟨fun hres => hres.remarks, fun hremarks => ⟨rfl, rfl, rfl, rfl, rfl, rfl, hremarks⟩⟩

theorem restoresOptional_ssrRestored : RestoresOptional c (ssrRestored c) ↔ textOf c.overTlsPath ≠ [] := by
  rw [← kept_restored fresh_path]
  exact ⟨fun hres => hres.overTlsPath, fun hpath => ⟨kept_empty _, kept_empty _, rfl, kept_empty _, hpath⟩⟩

/-! ## Either kind of link -/

theorem ss_roundTrips_iff (h : InRange c) (hfields : linkFields c = some f) (hss : IsShadowsocks c) :
    LinkRoundTrips c ↔ textOf c.remarks ≠ [] ∧ SsRestorable c := by
  have hp := (linkFields_some hfields).2
  have hyields : SsRestorable c → _ := fun hr => decode_ssLink hp hr h.password (h.userinfo hss)
  rw [linkRoundTrips_of_yields (encode_ss hfields hss)]
  constructor
  · rintro ⟨c', hdec, hres, -⟩
    -- it holds of what is read, so it holds of the configuration, and that settles what is read
    have hr := hres.ssRestorable (decode_ssLink_inv h.password hdec.2)
    rw [Option.some.inj (hdec.unique (hyields hr))] at hres
    exact ⟨(restores_ssRestored hr).1 hres, hr⟩
  · rintro ⟨hremarks, hr⟩
    refine ⟨ssRestored c, hyields hr, (restores_ssRestored hr).2 hremarks, fun hssr => ?_⟩
    have hheader : ssHeader <+: generateShadowsocksUri c (fieldsOf c) := by
      rw [generateShadowsocksUri_eq c h.password]
      exact List.prefix_append _ _
    exact absurd (List.prefix_or_prefix_of_prefix hheader hssr) (by decide)

theorem ssr_roundTrips_iff (h : InRange c) (hfields : linkFields c = some f) (hss : ¬ IsShadowsocks c) :
    LinkRoundTrips c ↔ textOf c.remarks ≠ [] ∧ NoSeparators c ∧ textOf c.overTlsPath ≠ [] := by
  have hp := (linkFields_some hfields).2
  have hyields : NoSeparators c → _ := fun hsep => decode_ssrLink hp (h.codable hfields hss) hsep
  have hlink : ssrHeader <+: ssrHeader ++ urlLetters (plainLink c) := List.prefix_append _ _
  rw [linkRoundTrips_of_yields (encode_ssr h hfields hss)]
  constructor
  · rintro ⟨c', hdec, hres, hoptional⟩
    have hread := hdec.2
    rw [ssrQrCodeDecode_ssr (nul_not_mem_ssrLink c)] at hread
    -- as above
    have hsep := hres.noSeparators (decodeSsr_noSeparators hread)
    rw [Option.some.inj (hdec.unique (hyields hsep))] at hres hoptional
    exact ⟨restores_ssrRestored.1 hres, hsep, restoresOptional_ssrRestored.1 (hoptional hlink)⟩
  · rintro ⟨hremarks, hsep, hpath⟩
    exact ⟨ssrRestored c, hyields hsep, restores_ssrRestored.2 hremarks,
      fun _ => restoresOptional_ssrRestored.2 hpath⟩

end RoundTrip

/-- A configuration comes back from its link exactly when its fields are there, the link has room for them as they
are, and neither its remarks nor, in an `ssr://` link, its path are empty. -/
theorem share_link_roundTrips_iff (c : ServerConfig) (h : InRange c) : LinkRoundTrips c ↔ Restorable c := by
  cases hfields : linkFields c with
  | none =>
      refine iff_of_false ?_ fun hr => ?_
      · rintro ⟨link, c', henc, -⟩
        have hnone := henc.2
        rw [ssrQrCodeEncode, if_neg Bool.true_eq_false.mp, hfields, value_pure] at hnone
        cases hnone
      · have hthere := hr.fields
        rw [hfields] at hthere
        cases hthere
  | some f =>
      have hthere : (linkFields c).isSome = true := by rw [hfields, Option.isSome_some]
      by_cases hss : IsShadowsocks c
      · rw [ss_roundTrips_iff h hfields hss]
        constructor
        · rintro ⟨hremarks, hr⟩
          exact ⟨hthere, hremarks, fun _ => hr, fun hnot => absurd hss hnot⟩
        · intro hr
          exact ⟨hr.remarks, hr.ss hss⟩
      · rw [ssr_roundTrips_iff h hfields hss]
        constructor
        · rintro ⟨hremarks, hr⟩
          exact ⟨hthere, hremarks, fun hnot => absurd hnot hss, fun _ => hr⟩
        · intro hr
          exact ⟨hr.remarks, hr.ssr hss⟩

/-! ## Configurations of either kind -/

def ssrSample : ServerConfig :=
  { configCreate with
    remoteHost := literal "h.org"
    protocol := literal "auth_sha1"
    method := literal "rc4"
    obfs := literal "http_post"
    password := literal "a:b"
    obfsParam := literal "c/d"
    remarks := literal "my node"
    overTlsEnable := true
    overTlsPath := literal "/v" }

def ssSample : ServerConfig :=
  { configCreate with
    remoteHost := literal "fe80::1"
    method := literal "rc4"
    password := literal "a:b"
    remarks := literal "my #1" }

theorem share_links_come_back : LinkRoundTrips ssrSample ∧ LinkRoundTrips ssSample := by
  have hkind : ¬ IsShadowsocks ssrSample ∧ IsShadowsocks ssSample := by decide +kernel
  have hssr : InRange ssrSample := by
    refine ⟨by decide, by decide +kernel, fun h => absurd h hkind.1, fun _ => ?_⟩
    decide +kernel
  have hss : InRange ssSample := by
    refine ⟨by decide, by decide +kernel, fun _ => ?_, fun h => absurd hkind.2 h⟩
    decide +kernel
  constructor
  · refine (share_link_roundTrips_iff ssrSample hssr).2 ⟨rfl, by decide, fun h => absurd h hkind.1, fun _ => ?_⟩
    exact ⟨⟨by decide +kernel, by decide +kernel⟩, by decide⟩
  · refine (share_link_roundTrips_iff ssSample hss).2 ⟨rfl, by decide, fun _ => ?_, fun h => absurd hkind.2 h⟩
    exact ⟨by decide, by decide, by decide, rfl, rfl⟩

/-- The same without a path. -/
def ssrNoPath : ServerConfig := { ssrSample with overTlsPath := literal "" }

/-- It comes back with the path of a new configuration. -/
theorem share_link_invents_path : InRange ssrNoPath ∧ ¬ LinkRoundTrips ssrNoPath := by
  have hkind : ¬ IsShadowsocks ssrNoPath := by decide +kernel
  refine ⟨⟨by decide, by decide +kernel, fun h => absurd h hkind, fun _ => by decide +kernel⟩, ?_⟩
  rintro ⟨link, c', henc, hdec, -, hoptional⟩
  have hheader : ∀ link ∈ (ssrQrCodeEncode (some ssrNoPath) true).value, ssrHeader <+: link := by decide +kernel
  have hread : ((ssrQrCodeEncode (some ssrNoPath) true).value.bind fun link =>
      (ssrQrCodeDecode (some (CText.ofBytes link))).value).map (fun c => textOf c.overTlsPath) =
        some (ascii "/abcd1234/") := by decide +kernel
  have hpath := (hoptional (hheader link henc.2)).overTlsPath
  rw [henc.2, Option.bind_some, hdec.2, Option.map_some, Option.some.injEq, hpath] at hread
  exact absurd hread (by decide)

end QrCode
end SsrNative
