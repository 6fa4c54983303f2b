import SsrNative.Lib.Hash
import SsrNative.Obfs.HttpBounds

/-!
# HttpRequest — the request direction of http_simple, http_post and http_mix

`server_decode` marks the header as received on its first call, whatever that call was given.  The
first segment therefore decides: it has to hold the whole header and enough bytes behind it.  Before that the
header has to fit into the arrays that `client_encode` writes it to.
-/

namespace SsrNative
namespace Obfs
namespace HttpSimple

open Bytes
open Lib.Demand
open Lib.Hash (of_byte)
open Lib.Search
open Lib.Segments

/-! ## Percent encoding -/

theorem fromHex_httpSimpleHex :
    ∀ c : UInt8, fromHex (httpSimpleHex (c >>> 4)) <<< 4 ||| fromHex (httpSimpleHex (c &&& 0xF)) = c :=
  of_byte (by decide +kernel)

theorem encodeHead_cons (c : UInt8) (data : Bytes) :
    encodeHead (c :: data) =
      percent :: httpSimpleHex (c >>> 4) :: httpSimpleHex (c &&& 0xF) :: encodeHead data := rfl

@[simp] theorem encodeHead_length (data : Bytes) : (encodeHead data).length = 3 * data.length := by
  induction data with
  | nil => rfl
  | cons c data ih =>
      rw [encodeHead_cons]
      simp only [List.length_cons, ih]
      omega

/-- The hexadecimal digits are printable. -/
theorem httpSimpleHex_ge {c : UInt8} (hc : c.toNat < 16) : 48 ≤ (httpSimpleHex c).toNat := by
  rw [httpSimpleHex]
  split
  · simp only [UInt8.toNat_add, UInt8.reduceToNat]
    omega
  · rename_i hge
    simp only [UInt8.lt_iff_toNat_lt, UInt8.reduceToNat] at hge
    simp only [UInt8.toNat_add, UInt8.toNat_sub, UInt8.reduceToNat]
    omega

theorem encodeHead_not_mem {x : UInt8} (hx : x = 0 ∨ x = 0x0d) (data : Bytes) :
    x ∉ encodeHead data := by
  have hsmall : x.toNat < 48 := by rcases hx with rfl | rfl <;> decide
  have hhex : ∀ c : UInt8, c.toNat < 16 → x ≠ httpSimpleHex c := by
    rintro c hc rfl
    have hge := httpSimpleHex_ge hc
    omega
  induction data with
  | nil => simp [encodeHead]
  | cons c data ih =>
      have hhigh : (c >>> 4).toNat < 16 := by
        have hc := c.toNat_lt
        simp only [UInt8.toNat_shiftRight, UInt8.reduceToNat, Nat.shiftRight_eq_div_pow,
          Nat.reduceMod, Nat.reducePow]
        omega
      have hlow : (c &&& 0xF).toNat < 16 := by
        rw [UInt8.toNat_and]
        exact Nat.and_lt_two_pow _ (by decide : (0xF : UInt8).toNat < 2 ^ 4)
      rw [encodeHead_cons]
      simp only [List.mem_cons, not_or]
      exact ⟨by rcases hx with rfl | rfl <;> decide, hhex _ hhigh, hhex _ hlow, ih⟩

/-- One pass of the loop over one encoded byte. -/
theorem decodeHead_step (a t : Bytes) (c : UInt8) (fuel : ℕ) :
    decodeHead (a ++ (encodeHead [c] ++ t)) (fuel + 1) a.length =
      c :: if byteAt t 0 = percent then
        decodeHead (a ++ (encodeHead [c] ++ t)) fuel (a ++ encodeHead [c]).length else [] := by
  have hbyte : ∀ i, byteAt (a ++ (encodeHead [c] ++ t)) (a.length + i) =
      byteAt (encodeHead [c] ++ t) i := by
    intro i
    rw [byteAt_append_right (Nat.le_add_right _ _), Nat.add_sub_cancel_left]
  have hvalue : fromHex (byteAt (encodeHead [c] ++ t) 1) <<< 4 |||
      fromHex (byteAt (encodeHead [c] ++ t) 2) = c := fromHex_httpSimpleHex c
  have hnext : byteAt (encodeHead [c] ++ t) 3 = byteAt t 0 :=
    byteAt_append_right (by simp)
  have hlen : (a ++ encodeHead [c]).length = a.length + 3 := by simp
  rw [decodeHead, hbyte, hbyte, hbyte, hvalue, hnext, hlen]

/-- The loop reads encoded data back, up to the first byte that is not a `'%'`. -/
theorem decodeHead_encodeHead (a : Bytes) (c : UInt8) (data : Bytes) {z : Bytes}
    (hz : byteAt z 0 ≠ percent) {fuel : ℕ} (hfuel : data.length < fuel) :
    decodeHead (a ++ (encodeHead (c :: data) ++ z)) fuel a.length = c :: data := by
  induction data generalizing a c fuel with
  | nil =>
      obtain ⟨k, rfl⟩ : ∃ k, fuel = k + 1 := ⟨fuel - 1, by rw [List.length_nil] at hfuel; omega⟩
      rw [decodeHead_step, if_neg hz]
  | cons c' data ih =>
      rw [List.length_cons] at hfuel
      obtain ⟨k, rfl⟩ : ∃ k, fuel = k + 1 := ⟨fuel - 1, by omega⟩
      have hsplit : encodeHead (c :: c' :: data) ++ z =
          encodeHead [c] ++ (encodeHead (c' :: data) ++ z) := rfl
      have hnext : byteAt (encodeHead (c' :: data) ++ z) 0 = percent := rfl
      rw [hsplit, decodeHead_step, if_pos hnext, ← List.append_assoc a]
      rw [ih (a ++ encodeHead [c]) c' (by omega)]

/-- Encoded data are whole groups. -/
theorem groups_encodeHead (data : Bytes) {z : Bytes} (hz : byteAt z 0 ≠ percent) :
    Groups data.length (encodeHead data ++ z) := by
  induction data with
  | nil => exact groups_zero.2 hz
  | cons c data ih => exact (groups_succ rfl (by simp [encodeHead_cons])).2 ih

/-- The decoder finds the data behind a text without `'%'`. -/
theorem getDataFromHttpHeader_encodeHead {a data z : Bytes} (ha : percent ∉ a)
    (ha₀ : (0 : UInt8) ∉ a) (hdata : data ≠ []) (hz : byteAt z 0 ≠ percent) :
    getDataFromHttpHeader (a ++ (encodeHead data ++ z)) = data := by
  obtain ⟨c, data, rfl⟩ := List.exists_cons_of_ne_nil hdata
  have hcstr : cString (encodeHead (c :: data) ++ z) =
      [percent] ++ cString ((encodeHead (c :: data) ++ z).tail) := by
    rw [← cString_append (by decide)]
    rfl
  have hfind : strstr (a ++ (encodeHead (c :: data) ++ z)) [percent] = some a.length := by
    rw [strstr, cString_append ha₀, hcstr]
    exact findSub_clash_needle (clash_of_not_mem ha) _
  rw [getDataFromHttpHeader, hfind]
  refine decodeHead_encodeHead a c data hz ?_
  simp only [List.length_append, encodeHead_length, List.length_cons]
  omega

/-- It returns nothing exactly when there is no `'%'`. -/
theorem getDataFromHttpHeader_eq_nil_iff (m : Bytes) :
    getDataFromHttpHeader m = [] ↔ percent ∉ cString m := by
  cases hfind : strstr m [percent] with
  | none =>
      have hnil : getDataFromHttpHeader m = [] := by simp [getDataFromHttpHeader, hfind]
      refine ⟨fun _ hmem => ?_, fun _ => hnil⟩
      rcases List.append_of_mem hmem with ⟨u, w, huw⟩
      refine findSub_ne_none (i := u.length) ?_ hfind
      rw [huw, List.drop_left]
      exact ⟨w, rfl⟩
  | some i =>
      have hmem : percent ∈ cString m := by
        have hpre := prefix_drop_of_findSub hfind
        exact List.mem_of_mem_drop (hpre.subset (by simp))
      have hlen : 0 < m.length :=
        Nat.lt_of_lt_of_le (List.length_pos_of_mem hmem) (cString_initial m).length_le
      obtain ⟨k, hk⟩ : ∃ k, m.length = k + 1 := ⟨m.length - 1, by omega⟩
      simp [getDataFromHttpHeader, hfind, hk, decodeHead, hmem]

/-! ## The first call -/

theorem serverDecode_of_short {s : Bytes} (h : s.length ≤ 10) :
    (serverDecode localDataInit s).2.1 = [] := by
  simp [serverDecode, localDataInit, h]

theorem serverDecode_of_oversize {s : Bytes} (hm : matchHttpHeader s = true)
    (h : 65536 < s.length) : (serverDecode localDataInit s).2.1 = [] := by
  have h10 : ¬ s.length ≤ 10 := by omega
  simp [serverDecode, localDataInit, hm, h, h10]

theorem serverDecode_of_none {s : Bytes} (hm : matchHttpHeader s = true) (h10 : ¬ s.length ≤ 10)
    (h : ¬ 65536 < s.length) (hq : strstr s crlfcrlf = none) :
    (serverDecode localDataInit s).2.1 = [] := by
  simp [serverDecode, localDataInit, hm, h, h10, hq]

theorem serverDecode_of_found {s : Bytes} {q : ℕ} (hm : matchHttpHeader s = true)
    (h10 : ¬ s.length ≤ 10) (h : ¬ 65536 < s.length) (hq : strstr s crlfcrlf = some q) :
    (serverDecode localDataInit s).2.1 =
      if (getDataFromHttpHeader (s.set q 0) ++ s.drop (q + 4)).length < 13 then s
      else getDataFromHttpHeader (s.set q 0) ++ s.drop (q + 4) := by
  simp [serverDecode, localDataInit, hm, h, h10, hq]

/-! ## Request headers -/

/-- A byte of the request line: neither NUL, nor a line end, nor `'%'`. -/
def Plain (x : UInt8) : Prop := x ≠ 0 ∧ x ≠ 0x0d ∧ x ≠ percent

instance (x : UInt8) : Decidable (Plain x) :=
  inferInstanceAs (Decidable (x ≠ 0 ∧ x ≠ 0x0d ∧ x ≠ percent))

/-- Where the first segment may end, for a header that encodes `data`.  Either the segment holds the
header, whose first terminator is its last, not more than `server_decode` accepts and enough for
thirteen bytes of payload; or it has no terminator, room for a NUL behind it, and the header bytes that it leaves to the later
segments happen to be the bytes that the header encodes. -/
def FirstCutOk (header data s : Bytes) : Prop :=
  (strstr header crlfcrlf = some (header.length - 4) ∧ (data ≠ [] ∨ percent ∉ header) ∧
    header.length ≤ s.length ∧ s.length ≤ 65536 ∧ 13 + header.length ≤ data.length + s.length) ∨
  (strstr s crlfcrlf = none ∧ s.length < SSR_BUFF_SIZE ∧ s.length + data.length = header.length ∧
    header.drop s.length = data)

instance (header data s : Bytes) : Decidable (FirstCutOk header data s) :=
  inferInstanceAs (Decidable ((strstr header crlfcrlf = some (header.length - 4) ∧
    (data ≠ [] ∨ percent ∉ header) ∧ header.length ≤ s.length ∧ s.length ≤ 65536 ∧
    13 + header.length ≤ data.length + s.length) ∨
    (strstr s crlfcrlf = none ∧ s.length < SSR_BUFF_SIZE ∧ s.length + data.length = header.length ∧
      header.drop s.length = data)))

/-- A header around encoded data, cut where the decoder looks: the data, the end of the request
line, and the terminator. -/
structure RequestText (data : Bytes) where
  front : Bytes
  back : Bytes
  lines : Bytes
  verb : ∃ v ∈ [ascii "GET ", ascii "POST "], v <+: front
  front_plain : ∀ x ∈ front, Plain x
  back_plain : ∀ x ∈ back, Plain x
  back_length : 9 ≤ back.length
  lines_nul : (0 : UInt8) ∉ lines

namespace RequestText

variable {data : Bytes} (T : RequestText data)

/-- The request line. -/
def line : Bytes := T.front ++ (encodeHead data ++ T.back)

def bytes : Bytes := T.line ++ (T.lines ++ crlfcrlf)

theorem line_length : T.line.length = T.front.length + (3 * data.length + T.back.length) := by
  simp [line]

theorem bytes_length : T.bytes.length = T.line.length + (T.lines.length + 4) := by simp [bytes]

theorem front_length : 4 ≤ T.front.length := by
  rcases T.verb with ⟨v, hv, hpre⟩
  have hlen : ∀ v ∈ [ascii "GET ", ascii "POST "], 4 ≤ v.length := by decide
  exact (hlen v hv).trans hpre.length_le

theorem nul_not_mem_line : (0 : UInt8) ∉ T.line := by
  simp only [line, List.mem_append, not_or]
  exact ⟨fun h => (T.front_plain _ h).1 rfl, encodeHead_not_mem (Or.inl rfl) data,
    fun h => (T.back_plain _ h).1 rfl⟩

theorem nul_not_mem_bytes : (0 : UInt8) ∉ T.bytes := by
  have hterm : (0 : UInt8) ∉ crlfcrlf := by decide
  simp only [bytes, List.mem_append, not_or]
  exact ⟨T.nul_not_mem_line, T.lines_nul, hterm⟩

theorem clash_line : Clash crlfcrlf T.line := by
  have hcr : (0x0d : UInt8) ∉ T.line := by
    simp only [line, List.mem_append, not_or]
    exact ⟨fun h => (T.front_plain _ h).2.1 rfl, encodeHead_not_mem (Or.inr rfl) data,
      fun h => (T.back_plain _ h).2.1 rfl⟩
  have hclash : Clash (0x0d :: [0x0a, 0x0d, 0x0a]) T.line := clash_of_not_mem hcr
  exact hclash

theorem strstr_bytes_ne_none : strstr T.bytes crlfcrlf ≠ none := by
  rw [strstr, cString_of_not_mem T.nul_not_mem_bytes]
  refine findSub_ne_none (i := (T.line ++ T.lines).length) ?_
  have hsplit : T.bytes = (T.line ++ T.lines) ++ crlfcrlf := by
    simp only [bytes, List.append_assoc]
  rw [hsplit, List.drop_left]

/-- Payload behind the header does not change what is found in it. -/
theorem strstr_bytes_append {j : ℕ} (h : strstr T.bytes crlfcrlf = some j) (z : Bytes) :
    strstr (T.bytes ++ z) crlfcrlf = some j := by
  rw [strstr, cString_of_not_mem T.nul_not_mem_bytes] at h
  rw [strstr, cString_append T.nul_not_mem_bytes]
  exact findSub_append_of_some h _

/-- A terminator that is found lies behind the request line and not behind the header. -/
theorem found_bounds {R s rest : Bytes} {q : ℕ} (hcat : s ++ rest = T.bytes ++ R)
    (hq : strstr s crlfcrlf = some q) :
    T.line.length ≤ q ∧ q + 4 ≤ T.bytes.length ∧ q + 4 ≤ s.length := by
  have hin : q + 4 ≤ (cString s).length := findSub_le hq (by decide)
  have hs := (cString_initial s).length_le
  have hocc : crlfcrlf <+: (T.line ++ (T.lines ++ crlfcrlf ++ R)).drop q := by
    have hpre : crlfcrlf <+: s.drop q :=
      (prefix_drop_of_findSub hq).trans ((cString_initial s).drop q)
    have hstream : s.drop q ++ rest = (T.line ++ (T.lines ++ crlfcrlf ++ R)).drop q := by
      rw [← List.drop_append_of_le_length (by omega), hcat, bytes]
      simp only [List.append_assoc]
    rw [← hstream]
    exact hpre.trans (List.prefix_append _ _)
  refine ⟨T.clash_line.le_of_start hocc, ?_, by omega⟩
  by_cases hlong : T.bytes.length ≤ s.length
  · -- the header is complete, so the terminator at its end bounds the first one
    obtain ⟨z, rfl⟩ : T.bytes <+: s :=
      List.prefix_of_prefix_length_le ⟨R, rfl⟩ ⟨rest, hcat⟩ hlong
    obtain ⟨j, hj⟩ := Option.ne_none_iff_exists'.1 T.strstr_bytes_ne_none
    have hle : j + 4 ≤ (cString T.bytes).length := findSub_le hj (by decide)
    have hb := (cString_initial T.bytes).length_le
    have hqj := T.strstr_bytes_append hj z
    rw [hq, Option.some.injEq] at hqj
    omega
  · omega

/-- What is decoded from a segment in which the terminator is found. -/
theorem getData_of_found (hdata : data ≠ []) {R s rest : Bytes} {q : ℕ}
    (hcat : s ++ rest = T.bytes ++ R) (hq : strstr s crlfcrlf = some q) :
    getDataFromHttpHeader (s.set q 0) = data := by
  obtain ⟨hline, -, hs⟩ := T.found_bounds hcat hq
  obtain ⟨z, rfl⟩ : T.line <+: s := by
    refine List.prefix_of_prefix_length_le ⟨T.lines ++ crlfcrlf ++ R, ?_⟩ ⟨rest, hcat⟩ (by omega)
    simp only [bytes, List.append_assoc]
  rw [List.set_append_right _ _ hline]
  have hplain : percent ∉ T.front := fun h => (T.front_plain _ h).2.2 rfl
  have hnul : (0 : UInt8) ∉ T.front := fun h => (T.front_plain _ h).1 rfl
  have hback := T.back_length
  have hstop : ∀ w, byteAt (T.back ++ w) 0 ≠ percent := by
    intro w
    have hpos : 0 < T.back.length := by omega
    rw [byteAt_append_left hpos, byteAt, List.getD_eq_getElem?_getD, List.getElem?_eq_getElem hpos]
    exact (T.back_plain _ (List.getElem_mem hpos)).2.2
  have hdec := getDataFromHttpHeader_encodeHead hplain hnul hdata
    (hstop (z.set (q - T.line.length) 0))
  simpa only [line, List.append_assoc] using hdec

theorem getData_eq_nil_iff_of_found {R s rest : Bytes} {q : ℕ} (hcat : s ++ rest = T.bytes ++ R)
    (hq : strstr s crlfcrlf = some q) :
    getDataFromHttpHeader (s.set q 0) = [] ↔ percent ∉ T.bytes.take q := by
  obtain ⟨-, hhead, hs⟩ := T.found_bounds hcat hq
  have htake : s.take q = T.bytes.take q := by
    have h := congrArg (List.take q) hcat
    rwa [List.take_append_of_le_length (by omega), List.take_append_of_le_length (by omega)] at h
  have hnul : (0 : UInt8) ∉ s.take q := by
    rw [htake]
    exact fun h => T.nul_not_mem_bytes (List.mem_of_mem_take h)
  rw [getDataFromHttpHeader_eq_nil_iff, cString_set_zero hnul (by omega), htake]

theorem matchHttpHeader_of_cat {R s rest : Bytes} (hcat : s ++ rest = T.bytes ++ R)
    (hs : 10 < s.length) : matchHttpHeader s = true := by
  rcases T.verb with ⟨v, hv, hpre⟩
  have hlen : ∀ v ∈ [ascii "GET ", ascii "POST "], v.length ≤ 10 := by decide
  have hvs : v <+: s := by
    refine List.prefix_of_prefix_length_le ?_ ⟨rest, hcat⟩ (by have := hlen v hv; omega)
    refine hpre.trans ⟨encodeHead data ++ T.back ++ (T.lines ++ crlfcrlf) ++ R, ?_⟩
    simp only [bytes, line, List.append_assoc]
  obtain ⟨z, rfl⟩ := hvs
  simp only [matchHttpHeader, ne_eq, Bool.and_eq_true, decide_eq_true_eq, List.any_eq_true]
  exact ⟨by omega, v, hv, window_zero_append rfl⟩

/-- A first call that returns nothing loses the segment. -/
theorem lost_iff {R s rest : Bytes} (hcat : s ++ rest = T.bytes ++ R) :
    rest = data ++ R ↔ s.length + data.length = T.bytes.length ∧ T.bytes.drop s.length = data := by
  constructor
  · rintro rfl
    rw [← List.append_assoc] at hcat
    have hhead : s ++ data = T.bytes := List.append_cancel_right hcat
    rw [← hhead]
    exact ⟨by simp, List.drop_left⟩
  · rintro ⟨hlen, hdrop⟩
    have h := congrArg (List.drop s.length) hcat
    rwa [List.drop_left, List.drop_append_of_le_length (by omega), hdrop] at h

/-- The length of what arrives when the terminator is found at `q`. -/
theorem found_length {R s rest : Bytes} {q : ℕ} (hcat : s ++ rest = T.bytes ++ R)
    (hq : strstr s crlfcrlf = some q) (g : Bytes) :
    ((g ++ s.drop (q + 4)) ++ rest).length + (q + 4) = g.length + (T.bytes.length + R.length) := by
  obtain ⟨-, hhead, hs⟩ := T.found_bounds hcat hq
  have hlen := congrArg List.length hcat
  simp only [List.length_append, List.length_drop] at hlen ⊢
  omega

/-- At least the encoded bytes are decoded, and more only from a `'%'` elsewhere. -/
theorem getData_length_of_found {R s rest : Bytes} {q : ℕ} (hcat : s ++ rest = T.bytes ++ R)
    (hq : strstr s crlfcrlf = some q) :
    data.length ≤ (getDataFromHttpHeader (s.set q 0)).length ∧
      ((getDataFromHttpHeader (s.set q 0)).length = data.length →
        getDataFromHttpHeader (s.set q 0) = data) := by
  by_cases hdata : data = []
  · refine ⟨by simp [hdata], fun h => ?_⟩
    rw [hdata, List.length_nil] at h
    rw [hdata, List.length_eq_zero_iff.1 h]
  · rw [T.getData_of_found hdata hcat hq]
    exact ⟨Nat.le_refl _, fun _ => rfl⟩

/-- The terminator is found at the end of the header and the encoded bytes are decoded. -/
theorem found_exact_iff {R s rest : Bytes} {q : ℕ} (hcat : s ++ rest = T.bytes ++ R)
    (hq : strstr s crlfcrlf = some q) :
    (q + 4 = T.bytes.length ∧ getDataFromHttpHeader (s.set q 0) = data) ↔
      strstr T.bytes crlfcrlf = some (T.bytes.length - 4) ∧ (data ≠ [] ∨ percent ∉ T.bytes) ∧
        T.bytes.length ≤ s.length := by
  obtain ⟨-, -, hin⟩ := T.found_bounds hcat hq
  have hsplit : T.bytes = (T.line ++ T.lines) ++ crlfcrlf := by
    simp only [bytes, List.append_assoc]
  have hbig := T.bytes_length
  constructor
  · rintro ⟨hqe, hg⟩
    obtain ⟨z, rfl⟩ : T.bytes <+: s :=
      List.prefix_of_prefix_length_le ⟨R, rfl⟩ ⟨rest, hcat⟩ (by omega)
    refine ⟨?_, ?_, by omega⟩
    · have hend : T.bytes.length - 4 = q := by omega
      rw [hend, strstr, cString_of_not_mem T.nul_not_mem_bytes]
      have hfind := hq
      rw [strstr, cString_append T.nul_not_mem_bytes] at hfind
      exact findSub_of_append hfind (by rw [crlfcrlf_length]; omega)
    · by_cases hdata : data = []
      · refine Or.inr ?_
        have hpct := (T.getData_eq_nil_iff_of_found hcat hq).1 (hg.trans hdata)
        have hterm : percent ∉ crlfcrlf := by decide
        have htake : T.bytes.take q = T.line ++ T.lines := by
          rw [hsplit]
          exact List.take_left' (by rw [List.length_append]; omega)
        rw [htake] at hpct
        rw [hsplit]
        simp only [List.mem_append, not_or] at hpct ⊢
        exact ⟨hpct, hterm⟩
      · exact Or.inl hdata
  · rintro ⟨hstr, hpct, hle⟩
    obtain ⟨z, rfl⟩ : T.bytes <+: s :=
      List.prefix_of_prefix_length_le ⟨R, rfl⟩ ⟨rest, hcat⟩ hle
    have hqj := T.strstr_bytes_append hstr z
    rw [hq, Option.some.injEq] at hqj
    refine ⟨by omega, ?_⟩
    by_cases hdata : data = []
    · rw [(T.getData_eq_nil_iff_of_found hcat hq).2, hdata]
      exact fun h => hpct.resolve_left (not_not.2 hdata) (List.mem_of_mem_take h)
    · exact T.getData_of_found hdata hcat hq

theorem found_iff {R s rest : Bytes} {q : ℕ} (hcat : s ++ rest = T.bytes ++ R)
    (hq : strstr s crlfcrlf = some q) (hs : s.length ≤ 65536) :
    (if (getDataFromHttpHeader (s.set q 0) ++ s.drop (q + 4)).length < 13 then s
      else getDataFromHttpHeader (s.set q 0) ++ s.drop (q + 4)) ++ rest = data ++ R ↔
      FirstCutOk T.bytes data s := by
  obtain ⟨-, hhead, hin⟩ := T.found_bounds hcat hq
  obtain ⟨hglen, hgeq⟩ := T.getData_length_of_found hcat hq
  have hexact := T.found_exact_iff hcat hq
  have htotal := T.found_length hcat hq (getDataFromHttpHeader (s.set q 0))
  have hbig := T.bytes_length
  have hlinelen := T.line_length
  have hlen := congrArg List.length hcat
  simp only [List.length_append] at hlen
  generalize getDataFromHttpHeader (s.set q 0) = g at *
  constructor
  · intro heq
    have heqlen := congrArg List.length heq
    by_cases hshort : (g ++ s.drop (q + 4)).length < 13
    · -- the segment is handed on with its header
      rw [if_pos hshort] at heqlen
      simp only [List.length_append] at heqlen
      omega
    · rw [if_neg hshort] at heqlen
      simp only [List.length_append, List.length_drop] at heqlen htotal hshort
      obtain ⟨hstr, hpct, hle⟩ := hexact.1 ⟨by omega, hgeq (by omega)⟩
      exact Or.inl ⟨hstr, hpct, hle, hs, by omega⟩
  · rintro (⟨hstr, hpct, hle, -, hmin⟩ | ⟨hnone, -⟩)
    · obtain ⟨hqe, hgd⟩ := hexact.2 ⟨hstr, hpct, hle⟩
      have hlong : ¬ (g ++ s.drop (q + 4)).length < 13 := by
        rw [hgd, List.length_append, List.length_drop]
        omega
      have hdrop := congrArg (List.drop T.bytes.length) hcat
      rw [List.drop_left, List.drop_append_of_le_length hle] at hdrop
      rw [if_neg hlong, hgd, hqe, List.append_assoc, hdrop]
    · rw [hq] at hnone
      cases hnone

/-- A segment without a terminator that ends in the header. -/
theorem searchEnds_iff_of_none {R s rest : Bytes} (hcat : s ++ rest = T.bytes ++ R)
    (hlen : s.length ≤ T.bytes.length) (hnone : strstr s crlfcrlf = none) :
    SearchEnds s ↔ s.length < SSR_BUFF_SIZE := by
  have hpre : s <+: T.bytes := List.prefix_of_prefix_length_le ⟨rest, hcat⟩ ⟨R, rfl⟩ hlen
  have hnul : (0 : UInt8) ∉ s := fun hmem => T.nul_not_mem_bytes (hpre.subset hmem)
  rw [strstr, cString_of_not_mem hnul] at hnone
  simp only [SearchEnds, hnul, hnone, ne_eq, not_true_eq_false, or_false]

/-- What arrives is the payload exactly when the first segment ends at an allowed place. -/
theorem first_segment_iff {R s rest : Bytes} (hcat : s ++ rest = T.bytes ++ R)
    (hfits : T.bytes.length ≤ data.length + 65536) (hends : Accepted localDataInit s → SearchEnds s) :
    (serverDecode localDataInit s).2.1 ++ rest = data ++ R ↔ FirstCutOk T.bytes data s := by
  have hbig := T.bytes_length
  have hlinelen := T.line_length
  have hfront := T.front_length
  have hback := T.back_length
  have hlost := T.lost_iff hcat
  -- a segment that is dropped without a search
  have hdropped : s.length ≤ 10 ∨ 65536 < s.length → (rest = data ++ R ↔ FirstCutOk T.bytes data s) := by
    intro hout
    rw [hlost]
    constructor
    · rintro ⟨hlen, -⟩
      omega
    · rintro (⟨-, -, hle, hmax, -⟩ | ⟨-, -, hlen, -⟩) <;> omega
  by_cases hshort : s.length ≤ 10
  · rw [serverDecode_of_short hshort]
    exact hdropped (Or.inl hshort)
  · have hmatch := T.matchHttpHeader_of_cat hcat (by omega)
    by_cases hover : 65536 < s.length
    · rw [serverDecode_of_oversize hmatch hover]
      exact hdropped (Or.inr hover)
    · cases hq : strstr s crlfcrlf with
      | none =>
          rw [serverDecode_of_none hmatch hshort hover hq, List.nil_append, hlost]
          constructor
          · rintro ⟨hlen, hdrop⟩
            have hsearch := hends ⟨rfl, by omega, hmatch, by omega⟩
            exact Or.inr ⟨hq, (T.searchEnds_iff_of_none hcat (by omega) hq).1 hsearch, hlen, hdrop⟩
          · rintro (⟨hstr, -, hle, -⟩ | ⟨-, -, hlen, hdrop⟩)
            · -- a complete header would have been found
              obtain ⟨z, rfl⟩ : T.bytes <+: s :=
                List.prefix_of_prefix_length_le ⟨R, rfl⟩ ⟨rest, hcat⟩ hle
              rw [T.strstr_bytes_append hstr z] at hq
              cases hq
            · exact ⟨hlen, hdrop⟩
      | some q =>
          rw [serverDecode_of_found hmatch hshort hover hq]
          exact T.found_iff hcat hq (by omega)

/-! The request is parsed inside the arrays of the server. -/

/-- What stands in front of the terminator. -/
def head : Bytes := T.line ++ T.lines

/-- The encoded data consists of whole groups. -/
theorem encodedFits_head (hroom : data.length ≤ SSR_BUFF_SIZE) (hpct : data ≠ [] ∨ percent ∉ T.bytes) :
    EncodedFits T.head := by
  intro i hi
  have hsplit : T.head = T.front ++ (encodeHead data ++ (T.back ++ T.lines)) := by
    simp only [head, line, List.append_assoc]
  by_cases hdata : data = []
  · have hbytes : T.bytes = T.head ++ crlfcrlf := by simp only [bytes, head, List.append_assoc]
    have hout : percent ∉ T.head := fun hmem =>
      hpct.resolve_left (not_not.2 hdata) (hbytes ▸ List.mem_append_left _ hmem)
    have hhead : T.head.drop i = percent :: (T.head.drop i).tail := by
      rcases prefix_drop_of_findSub hi with ⟨rest, hrest⟩
      rw [← hrest]
      rfl
    exact absurd (List.mem_of_mem_drop (hhead ▸ List.mem_cons_self)) hout
  · obtain ⟨c, tail, rfl⟩ := List.exists_cons_of_ne_nil hdata
    have hplain : percent ∉ T.front := fun h => (T.front_plain _ h).2.2 rfl
    have hfind : findSub [percent] T.head = some T.front.length := by
      rw [hsplit]
      exact findSub_clash_needle (clash_of_not_mem hplain) _
    rw [hi, Option.some.injEq] at hfind
    refine ⟨_, hroom, ?_⟩
    rw [hfind, hsplit, List.drop_left]
    have hback := T.back_length
    refine groups_encodeHead _ ?_
    rw [byteAt_append_left (by omega), byteAt, List.getD_eq_getElem?_getD,
      List.getElem?_eq_getElem (by omega)]
    exact (T.back_plain _ (List.getElem_mem _)).2.2

variable (behind : ℕ → UInt8)

/-- The first call stays in its arrays when its segment ends at an allowed place. -/
theorem first_segment_met {R s rest : Bytes} (hcat : s ++ rest = T.bytes ++ R)
    (hroom : data.length ≤ SSR_BUFF_SIZE) (hhost : HostFits T.head) (hcut : FirstCutOk T.bytes data s) :
    (serverDecodeIn behind localDataInit s).Met := by
  rw [header_parsing_iff]
  intro _
  have hinit : localDataInit.recvBuffer ++ s = s := rfl
  rw [hinit]
  rcases hcut with ⟨hstr, hpct, hle, -⟩ | ⟨hnone, hshort, -⟩
  · obtain ⟨z, rfl⟩ : T.bytes <+: s := List.prefix_of_prefix_length_le ⟨R, rfl⟩ ⟨rest, hcat⟩ hle
    have hsplit : T.bytes = T.head ++ crlfcrlf := by simp only [bytes, head, List.append_assoc]
    have hfound := T.strstr_bytes_append hstr z
    refine ⟨Or.inr (Or.inr ?_), fun h hh => ?_⟩
    · refine findSub_ne_none (i := T.head.length) ?_
      rw [hsplit, List.append_assoc, List.drop_left]
      exact List.prefix_append _ _
    · have hhead : (T.bytes ++ z).take (T.bytes.length - 4) = T.head := by
        rw [hsplit, List.append_assoc]
        exact List.take_left' (by rw [List.length_append, crlfcrlf_length, Nat.add_sub_cancel])
      rw [requestHead, hfound, Option.map_some, Option.some.injEq, hhead] at hh
      subst hh
      exact ⟨T.encodedFits_head hroom hpct, hhost⟩
  · exact ⟨Or.inl hshort, by simp [requestHead, hnone]⟩

/-- The first call has a result that goes on with the payload exactly when its segment ends at an allowed
place. -/
theorem first_call_iff {R s rest : Bytes} (hcat : s ++ rest = T.bytes ++ R)
    (hroom : data.length ≤ SSR_BUFF_SIZE) (hfits : T.bytes.length ≤ data.length + 65536)
    (hhost : HostFits T.head) :
    (∃ r, serverDecodeChecked behind localDataInit s = some r ∧ r.2.1 ++ rest = data ++ R) ↔
      FirstCutOk T.bytes data s := by
  simp only [serverDecodeChecked_eq_some_iff]
  constructor
  · rintro ⟨_, ⟨hmet, rfl⟩, harrives⟩
    have hends : Accepted localDataInit s → SearchEnds s := fun hacc =>
      ((header_parsing_iff behind localDataInit s).1 hmet hacc).1
    exact (T.first_segment_iff hcat hfits hends).1 harrives
  · intro hcut
    have hmet := T.first_segment_met behind hcat hroom hhost hcut
    have hends : Accepted localDataInit s → SearchEnds s := fun hacc =>
      ((header_parsing_iff behind localDataInit s).1 hmet hacc).1
    exact ⟨_, ⟨hmet, rfl⟩, (T.first_segment_iff hcat hfits hends).2 hcut⟩

end RequestText

/-! ## The headers that the client writes -/

theorem mem_of_mem_splitHosts {s name : Bytes} (h : name ∈ splitHosts s) {x : UInt8}
    (hx : x ∈ name) : x ∈ s := by
  induction s generalizing name with
  | nil =>
      rw [splitHosts, List.mem_singleton] at h
      simp [h] at hx
  | cons c s ih =>
      rw [splitHosts] at h
      split at h
      · rcases List.mem_cons.1 h with rfl | h
        · simp at hx
        · exact List.mem_cons_of_mem _ (ih h hx)
      · cases hs : splitHosts s with
        | nil =>
            simp only [hs, List.mem_singleton] at h
            simp only [h, List.mem_singleton] at hx
            simp [hx]
        | cons n ns =>
            simp only [hs, List.mem_cons] at h
            rcases h with rfl | h
            · rcases List.mem_cons.1 hx with rfl | hx
              · simp
              · exact List.mem_cons_of_mem _ (ih (by simp [hs]) hx)
            · exact List.mem_cons_of_mem _ (ih (by simp [hs, h]) hx)

theorem nul_not_mem_hostsText (info : ServerInfo) : (0 : UInt8) ∉ hostsText info :=
  fun h => not_mem_cString _ (List.mem_of_mem_take h)

theorem nul_not_mem_unescapeBody {s : Bytes} (h : (0 : UInt8) ∉ s) (esc : Bool) :
    (0 : UInt8) ∉ unescapeBody esc s := by
  have hcrlf : (0 : UInt8) ∉ crlf := by decide
  induction s generalizing esc with
  | nil => cases esc <;> simp [unescapeBody]
  | cons c s ih =>
      have hc : (0 : UInt8) ≠ c := fun hc => h (by simp [hc])
      have hs : (0 : UInt8) ∉ s := fun hs => h (List.mem_cons_of_mem _ hs)
      cases esc with
      | true =>
          simp only [unescapeBody, List.mem_append, not_or]
          refine ⟨?_, ih hs false⟩
          split
          · simpa using hc
          · split
            · exact hcrlf
            · simpa using hc
      | false =>
          rw [unescapeBody]
          split
          · exact ih hs true
          · simp only [List.mem_append, not_or]
            refine ⟨?_, ih hs false⟩
            split <;> simpa using hc

theorem nul_not_mem_hostport (info : ServerInfo) (d : RequestDraws) :
    (0 : UInt8) ∉ hostport info d := by
  have hname : ∀ k, (0 : UInt8) ∉ (hostNames info).getD k [] := by
    intro k hmem
    by_cases hk : k < (hostNames info).length
    · rw [List.getD_eq_getElem?_getD, List.getElem?_eq_getElem hk] at hmem
      have hin := mem_of_mem_splitHosts (List.getElem_mem hk) hmem
      exact nul_not_mem_hostsText info ((List.takeWhile_prefix _).subset hin)
    · rw [List.getD_eq_getElem?_getD, List.getElem?_eq_none (by omega)] at hmem
      simp at hmem
  have hcolon : (0 : UInt8) ∉ ascii ":" := by decide
  have hport : (0 : UInt8) ∉ decimal info.port := by
    intro hmem
    have hdigit := decimal_digit _ _ hmem
    simp at hdigit
  simp only [hostport]
  split
  · exact hname _
  · simp only [List.mem_append, not_or]
    exact ⟨⟨hname _, hcolon⟩, hport⟩

/-- The texts are looked at as lists of characters, which the kernel computes with faster than with
string literals. -/
theorem nul_not_mem_userAgents : ∀ s ∈ userAgents, (0 : UInt8) ∉ ascii s := by
  simp only [userAgents, List.forall_mem_cons]
  refine ⟨?_, ?_, ?_, ?_, ?_, ?_, ?_, ?_, ?_, ?_, ?_, ?_, by simp⟩
  all_goals
    rw [ascii, String.toList_ofList]
    decide

theorem nul_not_mem_requestFields (info : ServerInfo) (d : RequestDraws) {extra : Bytes}
    (hextra : (0 : UInt8) ∉ extra) : (0 : UInt8) ∉ requestFields info d extra := by
  rw [requestFields]
  split
  · rename_i body hbody
    rw [bodyBuffer] at hbody
    split at hbody
    · cases hbody
    · rename_i c rest hdrop
      cases hbody
      refine nul_not_mem_unescapeBody (fun hmem => ?_) false
      have hsub : rest <:+ hostsText info :=
        (List.suffix_cons c rest).trans (hdrop ▸ List.dropWhile_suffix _)
      exact nul_not_mem_hostsText info (hsub.subset hmem)
  · have hagent : (0 : UInt8) ∉ ascii (userAgents.getD d.userAgent "") := by
      refine nul_not_mem_userAgents _ ?_
      rw [List.getD_eq_getElem?_getD, List.getElem?_eq_getElem d.userAgent.isLt]
      exact List.getElem_mem _
    simp only [defaultFields, List.mem_append, not_or]
    exact ⟨⟨⟨⟨by decide +kernel, hagent⟩, by decide +kernel⟩, hextra⟩, by decide +kernel⟩

theorem nul_not_mem_contentType (d : RequestDraws) : (0 : UInt8) ∉ contentType d := by
  have hchars : ∀ k < boundaryChars.length, byteAt boundaryChars k ≠ 0 := by
    rw [boundaryChars, ascii, String.toList_ofList]
    decide
  have hpos : 0 < boundaryChars.length := by decide
  have hboundary : (0 : UInt8) ∉ boundary d.boundary := by
    simp only [boundary, List.mem_map, not_exists, not_and]
    intro k _
    exact hchars _ (Nat.mod_lt _ hpos)
  simp only [contentType, List.mem_append, not_or]
  exact ⟨⟨by decide, hboundary⟩, by decide⟩

theorem requestPath_plain : ∀ p ∈ requestPath,
    (∀ x ∈ ascii p.1, Plain x) ∧ ∀ x ∈ ascii p.2, Plain x := by
  simp only [requestPath, List.forall_mem_cons]
  refine ⟨⟨?_, ?_⟩, ⟨?_, ?_⟩, ⟨?_, ?_⟩, ⟨?_, ?_⟩, ⟨?_, ?_⟩, ⟨?_, ?_⟩, ⟨?_, ?_⟩, by simp⟩
  all_goals
    rw [ascii, String.toList_ofList]
    decide +kernel

/-- The chosen pair is one of the table. -/
theorem pathAround_mem (d : RequestDraws) :
    requestPath.getD (d.pathPick % requestPath.length) ("", "") ∈ requestPath := by
  have hlt : d.pathPick % requestPath.length < requestPath.length := Nat.mod_lt _ (by decide)
  rw [List.getD_eq_getElem?_getD, List.getElem?_eq_getElem hlt]
  exact List.getElem_mem _

theorem pathAround_plain (d : RequestDraws) :
    (∀ x ∈ (pathAround d).1, Plain x) ∧ ∀ x ∈ (pathAround d).2, Plain x :=
  requestPath_plain _ (pathAround_mem d)

/-- A header that `sprintf` does not cut, taken apart. -/
def requestText (verb extra : Bytes) (info : ServerInfo) (d : RequestDraws) (buf : Bytes)
    (hverb : verb ∈ [ascii "GET /", ascii "POST /"]) (hextra : (0 : UInt8) ∉ extra) :
    RequestText (buf.take (headSize info d buf)) where
  front := verb ++ (pathAround d).1
  back := (pathAround d).2 ++ ascii " HTTP/1.1"
  lines := ascii "\r\nHost: " ++ (hostport info d ++ (crlf ++ requestFields info d extra))
  verb := by
    have h : ∀ v ∈ [ascii "GET /", ascii "POST /"],
        ∃ w ∈ [ascii "GET ", ascii "POST "], w <+: v := by decide
    rcases h verb hverb with ⟨w, hw, hpre⟩
    exact ⟨w, hw, hpre.trans (List.prefix_append _ _)⟩
  front_plain := by
    have h : ∀ v ∈ [ascii "GET /", ascii "POST /"], ∀ x ∈ v, Plain x := by decide +kernel
    simp only [List.forall_mem_append]
    exact ⟨h verb hverb, (pathAround_plain d).1⟩
  back_plain := by
    simp only [List.forall_mem_append]
    exact ⟨(pathAround_plain d).2, by decide +kernel⟩
  back_length := by
    have h : (ascii " HTTP/1.1").length = 9 := by decide
    rw [List.length_append]
    omega
  lines_nul := by
    simp only [List.mem_append, not_or]
    exact ⟨by decide, nul_not_mem_hostport info d, by decide,
      nul_not_mem_requestFields info d hextra⟩

theorem requestText_bytes (verb extra : Bytes) (info : ServerInfo) (d : RequestDraws) (buf : Bytes)
    (hverb : verb ∈ [ascii "GET /", ascii "POST /"]) (hextra : (0 : UInt8) ∉ extra) :
    (requestText verb extra info d buf hverb hextra).bytes =
      requestHeader verb extra id id info d buf := by
  have hproto : ascii " HTTP/1.1\r\nHost: " = ascii " HTTP/1.1" ++ ascii "\r\nHost: " := by
    decide
  simp only [RequestText.bytes, RequestText.line, requestText, requestHeader, fakeRequestData,
    hproto, id_eq, List.append_assoc]

/-- `'H'`. -/
def capitalH : UInt8 := 0x48

theorem httpSimpleHex_ne_capitalH : ∀ c : UInt8,
    httpSimpleHex (c >>> 4) ≠ capitalH ∧ httpSimpleHex (c &&& 0xF) ≠ capitalH :=
  of_byte (by decide +kernel)

theorem capitalH_not_mem_encodeHead (data : Bytes) : capitalH ∉ encodeHead data := by
  induction data with
  | nil => simp [encodeHead]
  | cons c data ih =>
      have hhex := httpSimpleHex_ne_capitalH c
      rw [encodeHead_cons]
      simp only [List.mem_cons, not_or]
      exact ⟨by decide, hhex.1.symm, hhex.2.symm, ih⟩

theorem requestPath_no_capitalH : ∀ p ∈ requestPath, capitalH ∉ ascii p.1 ∧ capitalH ∉ ascii p.2 := by
  simp only [requestPath, List.forall_mem_cons]
  refine ⟨⟨?_, ?_⟩, ⟨?_, ?_⟩, ⟨?_, ?_⟩, ⟨?_, ?_⟩, ⟨?_, ?_⟩, ⟨?_, ?_⟩, ⟨?_, ?_⟩, by simp⟩
  all_goals
    rw [ascii, String.toList_ofList]
    decide +kernel

/-- The request line holds no `Host: `. -/
theorem clash_hoststr_line {verb extra : Bytes} (info : ServerInfo) (d : RequestDraws) (buf : Bytes)
    (hverb : verb ∈ [ascii "GET /", ascii "POST /"]) (hextra : (0 : UInt8) ∉ extra) :
    Clash hoststr ((requestText verb extra info d buf hverb hextra).line ++ crlf) := by
  have hplain {a : Bytes} (ha : capitalH ∉ a) : Clash hoststr a := by
    have hclash : Clash (capitalH :: ascii "ost: ") a := clash_of_not_mem ha
    exact hclash
  have hverbs : ∀ v ∈ [ascii "GET /", ascii "POST /"], capitalH ∉ v := by decide +kernel
  have hproto : Clash hoststr (ascii " HTTP/1.1") := by decide +kernel
  have hend : Clash hoststr crlf := by decide +kernel
  have hpath := requestPath_no_capitalH _ (pathAround_mem d)
  have hfront := (hplain (hverbs verb hverb)).append (hplain hpath.1)
  have hback := (hplain hpath.2).append hproto
  exact (hfront.append ((hplain (capitalH_not_mem_encodeHead _)).append hback)).append hend

theorem requestText_hostFits {verb extra : Bytes} {info : ServerInfo} {d : RequestDraws} (buf : Bytes)
    (hverb : verb ∈ [ascii "GET /", ascii "POST /"]) (hextra : (0 : UInt8) ∉ extra)
    (hhost : HostPortFits info d) :
    HostFits (requestText verb extra info d buf hverb hextra).head := by
  have hlead : ascii "\r\nHost: " = crlf ++ hoststr := by decide
  have hsplit : (requestText verb extra info d buf hverb hextra).head =
      ((requestText verb extra info d buf hverb hextra).line ++ crlf) ++
        (hoststr ++ (hostport info d ++ (crlf ++ requestFields info d extra))) := by
    simp only [RequestText.head, requestText, hlead, List.append_assoc]
  intro i hi len hlen
  rw [hsplit, findSub_clash_needle (clash_hoststr_line info d buf hverb hextra), Option.some.injEq] at hi
  rw [hsplit, ← hi, ← List.drop_drop, List.drop_left, List.drop_left] at hlen
  -- the line ends where the host does, or in it
  by_contra hlong
  have hocc : crlf <+: (hostport info d ++ (crlf ++ requestFields info d extra)).drop
      (hostport info d).length := by
    rw [List.drop_left]
    exact List.prefix_append _ _
  have hshort : (hostport info d).length ≤ 127 := hhost
  exact not_prefix_of_lt hlen (by omega) hocc

/-! ## Segmentation of the request -/

/-- The header as the format string spells it out. -/
def fullHeader (v : Variant) (info : ServerInfo) (d : RequestDraws) (buf : Bytes) : Bytes :=
  if usesPost d v = true then requestHeader (ascii "POST /") (contentType d) id id info d buf
  else requestHeader (ascii "GET /") [] id id info d buf

/-- The header fits into the arrays that it is written to, and none of it is cut off. -/
def HeaderFits (v : Variant) (info : ServerInfo) (d : RequestDraws) (buf : Bytes) : Prop :=
  PathEnds info d buf ∧
    if usesPost d v = true then (fullHeader v info d buf).length ≤ SSR_BUFF_SIZE - 1
    else OutBufferFits info d buf

instance (v : Variant) (info : ServerInfo) (d : RequestDraws) (buf : Bytes) :
    Decidable (HeaderFits v info d buf) :=
  inferInstanceAs (Decidable (_ ∧ _))

theorem fullHeader_of_get {d : RequestDraws} {v : Variant} (hget : usesPost d v = false) (info : ServerInfo)
    (buf : Bytes) : fullHeader v info d buf = getHeader info d buf := by
  rw [fullHeader, if_neg (by simp [hget])]
  rfl

/-- The header taken apart.  The line behind its `Host: ` is the chosen host. -/
theorem exists_requestText (v : Variant) {info : ServerInfo} {d : RequestDraws} (hhost : HostPortFits info d)
    (buf : Bytes) :
    ∃ T : RequestText (buf.take (headSize info d buf)),
      T.bytes = fullHeader v info d buf ∧ HostFits T.head := by
  cases hpost : usesPost d v with
  | true =>
      refine ⟨requestText (ascii "POST /") (contentType d) info d buf (by simp)
        (nul_not_mem_contentType d), ?_, requestText_hostFits _ _ _ hhost⟩
      rw [requestText_bytes, fullHeader, if_pos hpost]
  | false =>
      refine ⟨requestText (ascii "GET /") [] info d buf (by simp) (by simp), ?_,
        requestText_hostFits _ _ _ hhost⟩
      rw [requestText_bytes, fullHeader, if_neg (by simp [hpost])]

theorem headSize_le (info : ServerInfo) (d : RequestDraws) (buf : Bytes) :
    headSize info d buf ≤ buf.length := Nat.min_le_right _ _

theorem fullHeader_length_le {v : Variant} {info : ServerInfo} {d : RequestDraws} {buf : Bytes}
    (h : HeaderFits v info d buf) :
    (fullHeader v info d buf).length ≤ headSize info d buf + SSR_BUFF_SIZE := by
  have hle := headSize_le info d buf
  have hheader := h.2
  split at hheader
  · omega
  · rename_i hpost
    rw [fullHeader_of_get (by simpa using hpost)]
    have hroom := hheader.2
    omega

/-- A path that ends has a third of its room for the encoded data. -/
theorem PathEnds.data_length {info : ServerInfo} {d : RequestDraws} {buf : Bytes}
    (h : PathEnds info d buf) : (buf.take (headSize info d buf)).length ≤ SSR_BUFF_SIZE := by
  rw [PathEnds, fakeRequestData, List.length_append, List.length_append, encodeHead_length] at h
  omega

/-- A header that fits is written out in full. -/
theorem postHeader_of_fits {v : Variant} {info : ServerInfo} {d : RequestDraws} {buf : Bytes}
    (hhost : HostPortFits info d) (hpost : usesPost d v = true)
    (hheader : (fullHeader v info d buf).length ≤ SSR_BUFF_SIZE - 1) :
    postHeader info d buf = fullHeader v info d buf := by
  have hkept : (hostport info d).take 127 = id (hostport info d) := List.take_of_length_le hhost
  rw [fullHeader, if_pos hpost] at hheader ⊢
  rw [postHeader]
  simp only [requestHeader, hkept] at hheader ⊢
  exact List.take_of_length_le hheader

theorem clientEncode_first {v : Variant} {info : ServerInfo} {d : RequestDraws} {buf : Bytes}
    (hhost : HostPortFits info d) (h : HeaderFits v info d buf) :
    v.clientEncode info d localDataInit buf =
      ({ localDataInit with hasSentHeader := true },
        fullHeader v info d buf ++ buf.drop (headSize info d buf)) := by
  have hpost : usesPost d v = true → postHeader info d buf = fullHeader v info d buf := fun hp => by
    have hheader := h.2
    rw [if_pos hp] at hheader
    exact postHeader_of_fits hhost hp hheader
  have hget : usesPost d v = false → getHeader info d buf = fullHeader v info d buf := fun hg =>
    (fullHeader_of_get hg info buf).symm
  cases v with
  | httpSimple =>
      rw [← hget rfl]
      rfl
  | httpPost =>
      rw [← hpost rfl]
      rfl
  | httpMix =>
      by_cases hp : d.mixPick % (d.mixRate % 4 + 3) = 0
      · rw [← hpost (by simp [usesPost, hp])]
        simp [Variant.clientEncode, httpMixClientEncode, hp, httpPostClientEncode, encodeBehind,
          localDataInit]
      · rw [← hget (by simp [usesPost, hp])]
        simp [Variant.clientEncode, httpMixClientEncode, hp, httpSimpleClientEncode, encodeBehind,
          localDataInit]

/-- A header that fits is the work of a call that stays in its arrays. -/
theorem HeaderFits.arraysHold {v : Variant} {info : ServerInfo} {d : RequestDraws} {buf : Bytes}
    (h : HeaderFits v info d buf) (hlist : HostListFits info) (hhost : HostPortFits info d) :
    ArraysHold v info d buf := by
  refine ⟨hlist, h.1, fun hget => ⟨hhost, ?_⟩⟩
  have hheader := h.2
  rwa [if_neg (by simp [hget])] at hheader

/-- The converse, where `snprintf` cuts nothing off. -/
theorem ArraysHold.headerFits {v : Variant} {info : ServerInfo} {d : RequestDraws} {buf : Bytes}
    (h : ArraysHold v info d buf)
    (huncut : usesPost d v = true → (fullHeader v info d buf).length ≤ SSR_BUFF_SIZE - 1) :
    HeaderFits v info d buf := by
  refine ⟨h.2.1, ?_⟩
  split
  · rename_i hpost
    exact huncut hpost
  · rename_i hpost
    exact (h.2.2 (by simpa using hpost)).2

theorem clientEncode_open {l : LocalData} (hl : l.hasSentHeader = true) (v : Variant)
    (info : ServerInfo) (d : RequestDraws) (buf : Bytes) :
    v.clientEncode info d l buf = (l, buf) := by
  cases v with
  | httpSimple => simp [Variant.clientEncode, httpSimpleClientEncode, encodeBehind, hl]
  | httpPost => simp [Variant.clientEncode, httpPostClientEncode, encodeBehind, hl]
  | httpMix =>
      simp [Variant.clientEncode, httpMixClientEncode, httpPostClientEncode,
        httpSimpleClientEncode, encodeBehind, hl]

/-- One call, with its random choices. -/
def clientCall (v : Variant) (info : ServerInfo) (l : LocalData) (s : RequestDraws × Bytes) :
    Option (LocalData × Bytes) :=
  clientEncodeChecked v info s.1 l s.2

/-- The bytes that `client_encode` emits for a sequence of payloads, if it stays in its arrays. -/
def requestStream (v : Variant) (info : ServerInfo) (sends : List (RequestDraws × Bytes)) : Option Bytes :=
  (runChecked (clientCall v info) localDataInit sends).map fun r => r.2.flatten

/-- What `server_decode` returns for a sequence of segments, if it stays in its arrays. -/
def received (behind : ℕ → UInt8) (segs : List Bytes) : Option Bytes :=
  (runChecked (serverDecodeChecked behind) localDataInit segs).map fun r => (r.2.map Prod.fst).flatten

/-- The request is emitted, and the segments are returned as its payloads. -/
def Delivered (behind : ℕ → UInt8) (v : Variant) (info : ServerInfo) (sends : List (RequestDraws × Bytes))
    (segs : List Bytes) : Prop :=
  (requestStream v info sends).isSome = true ∧ received behind segs = some (sends.map Prod.snd).flatten

instance (behind : ℕ → UInt8) (v : Variant) (info : ServerInfo) (sends : List (RequestDraws × Bytes))
    (segs : List Bytes) : Decidable (Delivered behind v info sends segs) :=
  inferInstanceAs (Decidable (_ ∧ _))

section Request

variable {v : Variant} {info : ServerInfo} {d : RequestDraws} {p : Bytes}
  (later : List (RequestDraws × Bytes))

theorem clientCall_open {l : LocalData} (hl : l.hasSentHeader = true) (s : RequestDraws × Bytes) :
    clientCall v info l s = some (l, s.2) := by
  rw [clientCall, clientEncodeChecked, if_pos (Or.inl hl), clientEncode_open hl]

theorem requestStream_cons (hlist : HostListFits info) (hhost : HostPortFits info d)
    (h : HeaderFits v info d p) :
    requestStream v info ((d, p) :: later) =
      some (fullHeader v info d p ++ (p.drop (headSize info d p) ++ (later.map Prod.snd).flatten)) := by
  have hfirst : clientCall v info localDataInit (d, p) =
      some ({ localDataInit with hasSentHeader := true },
        fullHeader v info d p ++ p.drop (headSize info d p)) := by
    rw [clientCall, clientEncodeChecked, if_pos (Or.inr (h.arraysHold hlist hhost)),
      clientEncode_first hhost h]
  have hopen (s : RequestDraws × Bytes) :
      clientCall v info { localDataInit with hasSentHeader := true } s =
        some ({ localDataInit with hasSentHeader := true }, s.2) := clientCall_open rfl s
  rw [requestStream, runChecked_cons, hfirst, Option.bind_some, runChecked_of_kept hopen, Option.bind_some,
    Option.map_some, List.flatten_cons, List.append_assoc]

/-- A first call that leaves its arrays emits nothing. -/
theorem arraysHold_of_requestStream (h : (requestStream v info ((d, p) :: later)).isSome = true) :
    ArraysHold v info d p := by
  by_contra hout
  have hfirst : clientCall v info localDataInit (d, p) = none := by
    rw [clientCall, clientEncodeChecked, if_neg]
    rintro (hsent | hhold)
    · cases hsent
    · exact hout hhold
  rw [requestStream, runChecked_cons_none hfirst] at h
  cases h

theorem serverDecode_hasRecvHeader (l : LocalData) (seg : Bytes) :
    (serverDecode l seg).1.hasRecvHeader = true := by
  unfold serverDecode
  split
  · assumption
  · dsimp only
    split
    · rfl
    · split
      · rfl
      · split
        · rfl
        · split <;> rfl

variable (behind : ℕ → UInt8)

/-- After its first call the server passes everything on. -/
theorem serverDecodeChecked_open {l : LocalData} (hl : l.hasRecvHeader = true) (seg : Bytes) :
    serverDecodeChecked behind l seg = some (l, (seg, true)) := by
  rw [serverDecodeChecked_eq_some_iff, header_parsing_iff]
  refine ⟨fun hacc => ?_, by simp [serverDecode, hl]⟩
  rw [hacc.first] at hl
  cases hl

theorem received_cons_iff (s : Bytes) (segs : List Bytes) (out : Bytes) :
    received behind (s :: segs) = some out ↔
      ∃ r, serverDecodeChecked behind localDataInit s = some r ∧ r.2.1 ++ segs.flatten = out := by
  rw [received, runChecked_cons]
  cases hcall : serverDecodeChecked behind localDataInit s with
  | none => simp
  | some r =>
      have hopen : r.1.hasRecvHeader = true := by
        rw [← ((serverDecodeChecked_eq_some_iff behind _ _).1 hcall).2]
        exact serverDecode_hasRecvHeader _ _
      rw [Option.bind_some, runChecked_of_kept (serverDecodeChecked_open behind hopen)]
      simp [Function.comp_def]

/-- The payloads arrive when the header fits into its arrays and the first segment ends at an allowed place,
and only then, as far as `snprintf` cuts nothing of the header off. -/
theorem request_segmentation_iff (hlist : HostListFits info) (hhost : HostPortFits info d) (segs : List Bytes)
    (hcut : ∀ stream, requestStream v info ((d, p) :: later) = some stream → segs.flatten = stream) :
    (HeaderFits v info d p ∧
        FirstCutOk (fullHeader v info d p) (p.take (headSize info d p)) (segs.headD []) →
      Delivered behind v info ((d, p) :: later) segs) ∧
    ((usesPost d v = true → (fullHeader v info d p).length ≤ SSR_BUFF_SIZE - 1) →
      Delivered behind v info ((d, p) :: later) segs →
        HeaderFits v info d p ∧
          FirstCutOk (fullHeader v info d p) (p.take (headSize info d p)) (segs.headD [])) := by
  obtain ⟨T, hT, hline⟩ := exists_requestText v hhost p
  -- with a header that fits, the end of the first segment decides
  have hiff (hfits : HeaderFits v info d p) :
      received behind segs = some (((d, p) :: later).map Prod.snd).flatten ↔
        FirstCutOk (fullHeader v info d p) (p.take (headSize info d p)) (segs.headD []) := by
    have hstream := hcut _ (requestStream_cons later hlist hhost hfits)
    have hlen := fullHeader_length_le hfits
    rw [← hT] at hstream hlen ⊢
    have hhead : (p.take (headSize info d p)).length = headSize info d p := by
      rw [List.length_take]
      exact Nat.min_eq_left (headSize_le info d p)
    cases segs with
    | nil =>
        have hzero := congrArg List.length hstream
        rw [List.length_append, T.bytes_length] at hzero
        simp only [List.flatten_nil, List.length_nil] at hzero
        omega
    | cons s segs =>
        have hpay : (((d, p) :: later).map Prod.snd).flatten = p.take (headSize info d p) ++
            (p.drop (headSize info d p) ++ (later.map Prod.snd).flatten) := by
          rw [List.map_cons, List.flatten_cons, ← List.append_assoc, List.take_append_drop]
        rw [received_cons_iff, hpay]
        refine T.first_call_iff behind (by rw [← List.flatten_cons]; exact hstream) hfits.1.data_length ?_ hline
        rw [hhead]
        simp only [SSR_BUFF_SIZE] at hlen
        omega
  constructor
  · rintro ⟨hfits, hfirst⟩
    refine ⟨?_, (hiff hfits).2 hfirst⟩
    rw [requestStream_cons later hlist hhost hfits]
    rfl
  · rintro huncut ⟨hemitted, hreceived⟩
    have hfits := (arraysHold_of_requestStream later hemitted).headerFits huncut
    exact ⟨hfits, (hiff hfits).1 hreceived⟩

end Request

def sampleInfo : ServerInfo := ⟨ascii "127.0.0.1", 443, 30, ascii "a.com,b.org"⟩

def sampleDraws : RequestDraws := ⟨5, 1, 4, 2, fun i => 7 * i, 1, 1⟩

def samplePayload : Bytes := (List.range 60).map fun i => UInt8.ofNat (37 * i)

def sampleStream (v : Variant) : Bytes :=
  (requestStream v sampleInfo [(sampleDraws, samplePayload)]).getD []

/-- The first segment has the header and eleven bytes behind it. -/
theorem request_segmentation_sample :
    Delivered (fun _ => 0) .httpPost sampleInfo [(sampleDraws, samplePayload)]
      [(sampleStream .httpPost).take 540, (sampleStream .httpPost).drop 540] :=
  (request_segmentation_iff [] (fun _ => 0) (by decide +kernel) (by decide +kernel) _
    (fun stream h => by simp [sampleStream, h])).1 (by decide +kernel)

/-- A first segment of a hundred bytes is lost, and the rest of the header is taken for payload.  A `head_len`
of seven hundred gives a path that `sprintf` does not find the end of. -/
theorem request_lost_in_header :
    ((requestStream .httpSimple sampleInfo [(sampleDraws, samplePayload)]).isSome = true ∧
      13 ≤ samplePayload.length ∧
      received (fun _ => 0) [(sampleStream .httpSimple).take 100, (sampleStream .httpSimple).drop 100] =
        some ((sampleStream .httpSimple).drop 100) ∧
      ¬ Delivered (fun _ => 0) .httpSimple sampleInfo [(sampleDraws, samplePayload)]
        [(sampleStream .httpSimple).take 100, (sampleStream .httpSimple).drop 100]) ∧
    HostListFits sampleInfo ∧ HostPortFits sampleInfo sampleDraws ∧
      requestStream .httpSimple { sampleInfo with headLen := 700 }
        [(sampleDraws, List.replicate 1000 0x61)] = none := by
  decide +kernel

end HttpSimple
end Obfs
end SsrNative
