import SsrNative.QrCodeEncode

/-!
# QrCodeTexts — the texts in a link

A field comes back from its base64 (`decodedText_coded`), the remarks from their percent encoding
(`uriDecode_uriEncode`) and the port from its digits (`portOf_decimal`).  None of these has a separator of the link
in it.
-/

namespace SsrNative
namespace QrCode

open Bytes
open CString
open Base64
open Lib.Demand
open Lib.Demand.Demanding
open Lib.Hash (of_byte)

/-! ## Base64 -/

/-- What means something in a link.  No letter of the alphabet for URLs does. -/
def separators : Bytes := ascii "#&/:=?@"

theorem not_mem_urlLetters {x : UInt8} (hx : x ∈ separators) (s : Bytes) : x ∉ urlLetters s := by
  have hall : ∀ c : UInt8, IsLetter c → urlLetter c ∉ separators := of_byte (by decide +kernel)
  intro hmem
  rcases List.mem_map.1 hmem with ⟨c, hc, rfl⟩
  exact hall c (isLetter_of_mem_letters hc) hx

theorem urlLetters_length (s : Bytes) : (urlLetters s).length = (4 * s.length + 2) / 3 := by
  rw [urlLetters, List.length_map, letters_length]

/-- A text as it is in a link. -/
def coded (s : Bytes) : CText := ⟨urlLetters s, zero_not_mem_urlLetters s⟩

theorem coded_mod (s : Bytes) : (coded s).chars.length % 4 ≠ 1 := by
  rw [coded, urlLetters_length]
  omega

theorem letterCountUrl_coded (s : Bytes) : letterCountUrl (coded s).chars = (4 * s.length + 2) / 3 := by
  rw [← letterCount_std (coded s) 0, coded, urlLetters_std, letterCount_padded]

section Coded

variable {s : Bytes} (hnul : (0 : UInt8) ∉ s) (hlen : s.length < 2048)
include hnul hlen

/-- The letters of a text are decoded to the text. -/
theorem decodedText_coded : decodedText (coded s) = ⟨s, hnul⟩ := by
  rcases strUrlSafe_of_not (coded s) (coded_mod s) with ⟨k, hstd⟩
  have hletters : (coded s).chars.map stdLetter = letters s := urlLetters_std s
  have hcount : letterCount (letters s ++ List.replicate k 0x3d ++ [0]) + 3 < 2147483648 := by
    rw [letterCount_padded]
    omega
  have hyields := stdBase64DecodeIn_yields (fun _ => 0) _ hcount
  rw [cString_zero (zero_not_mem_padded s k), takeWhile_letters_append, decodeLoop_letters] at hyields
  -- the padding that was left out is put back, and the decoder stops there
  have hwritten : urlSafeBase64Written (coded s) = some (s ++ [0]) := by
    rw [urlSafeBase64Written, hstd, hletters, Option.map_some, hyields.2]
  rw [decodedText, hwritten, CText.mk.injEq]
  exact cString_zero hnul []

theorem decodePlainText_coded : (decodePlainText (coded s)).Yields ⟨s, hnul⟩ := by
  refine ⟨(met_decodePlainText _).2 ⟨coded_mod s, ?_⟩, ?_⟩
  · rw [letterCountUrl_coded, toInt32_of_lt (by omega), toInt32_of_lt (by omega)]
    omega
  · rw [value_decodePlainText, decodedText_coded hnul hlen]

theorem assignDecoded_coded (assign : CText → ServerConfig) :
    (assignDecoded (coded s) assign).Yields (assign ⟨s, hnul⟩) := by
  refine ⟨(met_assignDecoded _ assign).2 ⟨coded_mod s, ?_⟩, ?_⟩
  · rw [letterCountUrl_coded, toInt32_of_lt (by omega)]
    omega
  · rw [assignDecoded, value_bind, value_urlSafeBase64Decode, decodedText_coded hnul hlen, value_pure]

end Coded

/-- All of a text is encoded when an `int` counts it. -/
theorem urlSafeBase64Encode_whole {s : Bytes} (h : Encodable s) (hlen : s.length < 2147483648) :
    (urlSafeBase64Encode s).value = urlLetters s := by
  rw [urlSafeBase64Encode_value s h, toInt32_of_lt hlen, Int.toNat_natCast, List.take_length]

/-! ## Percent encoding -/

theorem uriDecode_cons {c : UInt8} (h : c ≠ 0x25) (l : Bytes) : uriDecode (c :: l) = copyChar c :: uriDecode l := by
  match l with
  | [] => rfl
  | [_] => rfl
  | _ :: _ :: _ => rw [uriDecode, if_neg fun hboth => h hboth.1]

/-- A character that stands for itself. -/
theorem copyChar_unreserved {c : UInt8} (h : isUnreserved c = true) : c ≠ 0x25 ∧ copyChar c = c := by
  have hall : ∀ c : UInt8, isUnreserved c = true → c ≠ 0x25 ∧ copyChar c = c := of_byte (by decide +kernel)
  exact hall c h

/-- The two digits of a character. -/
theorem hexval_upperHex : ∀ c : UInt8, hexval (upperHex (c >>> 4)) ||| hexval (upperHex (c &&& 0xf)) ≠ 0xff ∧
    hexval (upperHex (c >>> 4)) <<< 4 ||| hexval (upperHex (c &&& 0xf)) = c := of_byte (by decide +kernel)

theorem uriDecode_uriEncode (s : Bytes) : uriDecode (uriEncode s) = s := by
  induction s with
  | nil => rfl
  | cons c s ih =>
      have hcons : uriEncode (c :: s) =
          (if isUnreserved c then [c] else [0x25, upperHex (c >>> 4), upperHex (c &&& 0xf)]) ++ uriEncode s :=
        List.flatMap_cons
      rw [hcons]
      by_cases hc : isUnreserved c = true
      · rcases copyChar_unreserved hc with ⟨hpercent, hcopy⟩
        rw [if_pos hc, List.singleton_append, uriDecode_cons hpercent, hcopy, ih]
      · rcases hexval_upperHex c with ⟨hvalid, hvalue⟩
        rw [if_neg hc, List.cons_append, List.cons_append, List.singleton_append, uriDecode,
          if_pos ⟨rfl, hvalid⟩, hvalue, ih]

/-- Neither the terminator nor the sign in front of the remarks. -/
theorem not_mem_uriEncode {sep : UInt8} (hsep : sep ∈ [0, 0x23]) (s : Bytes) : sep ∉ uriEncode s := by
  have hall : ∀ c : UInt8, ∀ sep ∈ [(0 : UInt8), 0x23],
      sep ∉ if isUnreserved c then [c] else [0x25, upperHex (c >>> 4), upperHex (c &&& 0xf)] :=
    of_byte (by decide +kernel)
  rw [uriEncode, List.mem_flatMap]
  rintro ⟨c, -, hmem⟩
  exact hall c sep hsep hmem

/-! ## Ports -/

theorem portOf_decimal (port : UInt16) : portOf (CText.ofBytes (decimal port.toNat)) = port := by
  have hlt := port.toNat_lt
  have hlong : port.toNat ≤ LONG_MAX := by
    rw [LONG_MAX]
    omega
  rw [portOf, atoi, CText.ofBytes_chars (not_mem_decimal (by decide) _), strtol_decimal hlong,
    Int32.toInt_ofInt_of_le (by omega) (by omega)]
  apply UInt16.toNat_inj.1
  rw [UInt16.ofInt, UInt16.toNat_ofNat']
  omega

theorem not_mem_portText {x : UInt8} (h : isDigit x = false) (c : ServerConfig) : x ∉ portText c :=
  not_mem_decimal h _

/-! ## Fields -/

/-- The characters of a field; a missing field has none. -/
def textOf : Option CText → Bytes
  | none => []
  | some s => s.chars

theorem nul_not_mem_textOf (field : Option CText) : (0 : UInt8) ∉ textOf field := by
  cases field with
  | none => exact List.not_mem_nil
  | some s => exact s.nul_not_mem

/-- What is looked at when a link is made. -/
def fieldsOf (c : ServerConfig) : LinkFields :=
  ⟨textOf c.remoteHost, textOf c.method, textOf c.password, textOf c.protocol, textOf c.obfs⟩

/-- The fields that a link cannot do without are there. -/
structure Present (c : ServerConfig) : Prop where
  host : some (CText.ofBytes (textOf c.remoteHost)) = c.remoteHost
  method : some (CText.ofBytes (textOf c.method)) = c.method
  password : some (CText.ofBytes (textOf c.password)) = c.password
  protocol : some (CText.ofBytes (textOf c.protocol)) = c.protocol
  obfs : some (CText.ofBytes (textOf c.obfs)) = c.obfs

theorem linkFields_some {c : ServerConfig} {f : LinkFields} (h : linkFields c = some f) :
    f = fieldsOf c ∧ Present c := by
  have hthere : ∀ {field : Option CText} {s : CText}, field = some s →
      s.chars = textOf field ∧ some (CText.ofBytes (textOf field)) = field := by
    rintro - s rfl
    exact ⟨rfl, congrArg some (CText.ofBytes_eq s.nul_not_mem)⟩
  rw [linkFields] at h
  split_ifs at h
  simp only [Option.bind_eq_bind, Option.bind_eq_some_iff, Option.pure_def, Option.some.injEq] at h
  rcases h with ⟨host, hhost, method, hmethod, password, hpassword, protocol, hprotocol, obfs, hobfs, rfl⟩
  refine ⟨?_, (hthere hhost).2, (hthere hmethod).2, (hthere hpassword).2, (hthere hprotocol).2, (hthere hobfs).2⟩
  rw [fieldsOf, (hthere hhost).1, (hthere hmethod).1, (hthere hpassword).1, (hthere hprotocol).1, (hthere hobfs).1]

/-- What a field is when it is only in the link if it is not empty. -/
def kept (field fresh : Option CText) : Option CText := if textOf field = [] then fresh else field

theorem textOf_kept (field fresh : Option CText) :
    textOf (kept field fresh) = textOf field ↔ textOf fresh = [] ∨ textOf field ≠ [] := by
  rw [kept]
  by_cases hempty : textOf field = []
  · rw [if_pos hempty, hempty]
    simp
  · rw [if_neg hempty]
    simp [hempty]

/-! ## Headers -/

theorem behindHeader_append {header more : Bytes} (h : (0 : UInt8) ∉ header ++ more) :
    behindHeader header (CText.ofBytes (header ++ more)) = some (CText.ofBytes more) := by
  rw [behindHeader, CText.ofBytes_chars h, if_pos (List.prefix_append header more), List.drop_left]

theorem ssrQrCodeDecode_ss {more : Bytes} (h : (0 : UInt8) ∉ ssHeader ++ more) :
    ssrQrCodeDecode (some (CText.ofBytes (ssHeader ++ more))) =
      decodeShadowsocks (CText.ofBytes (ssHeader ++ more)) := by
  have hheader : ssHeader <+: (CText.ofBytes (ssHeader ++ more)).chars := by
    rw [CText.ofBytes_chars h]
    exact List.prefix_append _ _
  have hlen := hheader.length_le
  have hfive : ssHeader.length = 5 := by decide
  rw [ssrQrCodeDecode, if_neg (by omega), if_pos hheader]

theorem ssrQrCodeDecode_ssr {more : Bytes} (h : (0 : UInt8) ∉ ssrHeader ++ more) :
    ssrQrCodeDecode (some (CText.ofBytes (ssrHeader ++ more))) = decodeSsr (CText.ofBytes (ssrHeader ++ more)) := by
  have hheader : ssrHeader <+: (CText.ofBytes (ssrHeader ++ more)).chars := by
    rw [CText.ofBytes_chars h]
    exact List.prefix_append _ _
  have hlen := hheader.length_le
  have hsix : ssrHeader.length = 6 := by decide
  rw [ssrQrCodeDecode, if_neg (by omega), if_neg fun hss => not_ssr_of_ss hss hheader, if_pos hheader]

end QrCode
end SsrNative
