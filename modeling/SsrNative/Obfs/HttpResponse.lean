import SsrNative.Obfs.HttpSimple

/-!
# HttpResponse — the response direction of http_simple

`client_decode` looks for the end of the header in each segment separately, so the four bytes of
the terminator have to arrive in one segment.
-/

namespace SsrNative
namespace Obfs
namespace HttpSimple

open Bytes
open Lib.Search
open Lib.Segments

/-! ## The header -/

/-- The header up to its terminator. -/
def responseLines (t : Tm) : Bytes :=
  header1 ++ (httpDate t ++ ascii "\r\nServer: nginx\r\nVary: Accept-Encoding")

theorem responseHeader_eq (t : Tm) : responseHeader t = responseLines t ++ crlfcrlf := by
  have h : header2 = ascii "\r\nServer: nginx\r\nVary: Accept-Encoding" ++ crlfcrlf := by
    decide
  simp only [responseHeader, responseLines, h, List.append_assoc]

/-- A byte of a text line: neither NUL nor a line end. -/
def Printable (x : UInt8) : Prop := x ≠ 0 ∧ x ≠ 0x0d

instance (x : UInt8) : Decidable (Printable x) :=
  inferInstanceAs (Decidable (x ≠ 0 ∧ x ≠ 0x0d))

theorem twoDigits_printable (n : ℕ) : ∀ x ∈ twoDigits n, Printable x := by
  intro x hx
  have hdigit : ∀ d : ℕ, d < 10 → Printable (UInt8.ofNat (48 + d)) := by decide
  simp only [twoDigits, List.mem_cons, List.not_mem_nil, or_false] at hx
  rcases hx with rfl | rfl
  · exact hdigit _ (Nat.mod_lt _ (by omega))
  · exact hdigit _ (Nat.mod_lt _ (by omega))

theorem decimal_printable (n : ℕ) : ∀ x ∈ decimal n, Printable x := by
  intro x hx
  have hdigit := decimal_digit n x hx
  refine ⟨?_, ?_⟩ <;> rintro rfl <;> simp at hdigit

theorem httpDate_printable (t : Tm) : ∀ x ∈ httpDate t, Printable x := by
  have hday : ∀ w : Fin 7, ∀ x ∈ ascii (weekdays.getD w ""), Printable x := by decide +kernel
  have hmon : ∀ m : Fin 12, ∀ x ∈ ascii (months.getD m ""), Printable x := by decide +kernel
  have hsep : ∀ s ∈ [", ", " ", ":", " GMT"], ∀ x ∈ ascii s, Printable x := by decide +kernel
  have hcomma := hsep ", " (by simp)
  have hspace := hsep " " (by simp)
  have hcolon := hsep ":" (by simp)
  have hgmt := hsep " GMT" (by simp)
  have htwo := twoDigits_printable
  simp only [httpDate, List.forall_mem_append, and_assoc]
  exact ⟨hday _, hcomma, htwo _, hspace, hmon _, hspace, decimal_printable _, hspace, htwo _, hcolon,
    htwo _, hcolon, htwo _, hgmt⟩

theorem clash_responseLines (t : Tm) : Clash crlfcrlf (responseLines t) := by
  have h1 : Clash crlfcrlf header1 := by decide
  have h2 : Clash crlfcrlf (ascii "\r\nServer: nginx\r\nVary: Accept-Encoding") := by
    decide
  have hdate : Clash (0x0d :: [0x0a, 0x0d, 0x0a]) (httpDate t) :=
    clash_of_not_mem fun hmem => (httpDate_printable t _ hmem).2 rfl
  exact h1.append (hdate.append h2)

theorem zero_not_mem_responseLines (t : Tm) : (0 : UInt8) ∉ responseLines t := by
  have h1 : (0 : UInt8) ∉ header1 := by decide
  have h2 : (0 : UInt8) ∉ ascii "\r\nServer: nginx\r\nVary: Accept-Encoding" := by decide
  have hdate : (0 : UInt8) ∉ httpDate t := fun hmem => (httpDate_printable t _ hmem).1 rfl
  simp only [responseLines, List.mem_append, not_or]
  exact ⟨h1, hdate, h2⟩

/-! ## One segment -/

/-- Nothing is found before the header is complete. -/
theorem strstr_of_incomplete {t : Tm} {n : ℕ} {seg : Bytes}
    (hseg : seg <+: (responseLines t).drop n ++ crlfcrlf)
    (hlen : seg.length < ((responseLines t).drop n).length + 4) : strstr seg crlfcrlf = none := by
  have hpre : cString seg <+: (responseLines t).drop n ++ crlfcrlf :=
    (cString_initial seg).trans hseg
  apply findSub_of_clash_short ((clash_responseLines t).drop n) hpre
  have hle := (cString_initial seg).length_le
  rw [crlfcrlf_length]
  omega

/-- The end of the header is found in the segment that has all of the terminator, whatever follows
it there. -/
theorem strstr_of_complete (t : Tm) (n : ℕ) (p : Bytes) :
    strstr ((responseLines t).drop n ++ (crlfcrlf ++ p)) crlfcrlf =
      some ((responseLines t).drop n).length := by
  have hlines : (0 : UInt8) ∉ (responseLines t).drop n :=
    fun hmem => zero_not_mem_responseLines t (List.mem_of_mem_drop hmem)
  have hterm : (0 : UInt8) ∉ crlfcrlf := by decide
  rw [strstr, cString_append hlines, cString_append hterm]
  exact findSub_clash_needle ((clash_responseLines t).drop n) (cString p)

theorem clientDecode_of_none {l : LocalData} {seg : Bytes} (hl : l.hasRecvHeader = false)
    (h : strstr seg crlfcrlf = none) : clientDecode l seg = (l, []) := by
  simp [clientDecode, hl, h]

theorem clientDecode_of_complete {l : LocalData} (hl : l.hasRecvHeader = false) (t : Tm) (n : ℕ)
    (p : Bytes) :
    clientDecode l ((responseLines t).drop n ++ (crlfcrlf ++ p)) =
      ({ l with hasRecvHeader := true }, p) := by
  simp only [clientDecode, hl, Bool.false_eq_true, if_false, strstr_of_complete]
  congr 1
  rw [← List.append_assoc]
  exact shortenedTo_append (by simp)

/-! ## A run of segments -/

/-- Behind the header the segments are passed on as they are. -/
theorem clientDecode_run_open {l : LocalData} (hl : l.hasRecvHeader = true) (segs : List Bytes) :
    (run clientDecode l segs).2 = segs := by
  have hstep : ∀ seg, clientDecode l seg = (l, seg) := fun seg => by simp [clientDecode, hl]
  induction segs with
  | nil => rfl
  | cons seg segs ih => rw [run_cons, hstep, ih]

/-- A segment in which no terminator is found is lost. -/
theorem clientDecode_run_none {l : LocalData} {seg : Bytes} (hl : l.hasRecvHeader = false)
    (h : strstr seg crlfcrlf = none) (segs : List Bytes) :
    (run clientDecode l (seg :: segs)).2.flatten = (run clientDecode l segs).2.flatten := by
  rw [run_cons, clientDecode_of_none hl h, List.flatten_cons, List.nil_append]

/-- Until it has seen a terminator, a decoder returns at least four bytes less than it is given. -/
theorem clientDecode_run_length_le {l : LocalData} (hl : l.hasRecvHeader = false)
    (segs : List Bytes) :
    (run clientDecode l segs).2.flatten.length ≤ segs.flatten.length - 4 := by
  induction segs with
  | nil => simp
  | cons seg segs ih =>
      rw [List.flatten_cons, List.length_append]
      cases hpos : strstr seg crlfcrlf with
      | none =>
          rw [clientDecode_run_none hl hpos]
          omega
      | some pos =>
          have hin : pos + 4 ≤ (cString seg).length := findSub_le hpos (by decide)
          have hle := (cString_initial seg).length_le
          have hdec : clientDecode l seg =
              ({ l with hasRecvHeader := true }, seg.drop (pos + 4)) := by
            simp only [clientDecode, hl, hpos, Bool.false_eq_true, if_false]
            rw [shortenedTo_drop (by omega)]
          rw [run_cons, hdec, clientDecode_run_open rfl, List.flatten_cons, List.length_append,
            List.length_drop]
          omega

/-- Segments that leave the terminator in one piece deliver the payload.  The segments start `n`
bytes into the header. -/
theorem clientDecode_run_of_spans {l : LocalData} (hl : l.hasRecvHeader = false) {t : Tm} {n : ℕ}
    {p : Bytes} {segs : List Bytes} (hn : n ≤ (responseLines t).length)
    (hcat : segs.flatten = (responseLines t).drop n ++ (crlfcrlf ++ p))
    (hspans : Spans (fun _ e => e + 4 ≤ (responseHeader t).length ∨ (responseHeader t).length ≤ e)
      n segs) :
    (run clientDecode l segs).2.flatten = p := by
  have hhead : (responseHeader t).length = (responseLines t).length + 4 := by
    simp [responseHeader_eq]
  induction segs generalizing n with
  | nil =>
      have hlen := congrArg List.length hcat
      simp only [List.flatten_nil, List.length_nil, List.length_append, crlfcrlf_length] at hlen
      omega
  | cons seg segs ih =>
      rw [List.flatten_cons] at hcat
      rw [hhead] at hspans
      rcases hspans.1 with hshort | hlong
      · -- the segment ends inside the header lines: nothing is found and nothing is kept
        have hle : seg.length ≤ ((responseLines t).drop n).length := by
          rw [List.length_drop]
          omega
        have hseg : seg <+: (responseLines t).drop n :=
          List.prefix_of_prefix_length_le ⟨_, hcat⟩ (List.prefix_append _ _) hle
        have hnone : strstr seg crlfcrlf = none :=
          strstr_of_incomplete (hseg.trans (List.prefix_append _ _)) (by omega)
        have hrest : segs.flatten = (responseLines t).drop (n + seg.length) ++ (crlfcrlf ++ p) := by
          have hdrop := congrArg (List.drop seg.length) hcat
          rwa [List.drop_left, List.drop_append_of_le_length hle, List.drop_drop] at hdrop
        rw [clientDecode_run_none hl hnone]
        exact ih (by omega) hrest (hhead ▸ hspans.2)
      · -- the segment has the whole terminator
        have hle : ((responseLines t).drop n ++ crlfcrlf).length ≤ seg.length := by
          rw [List.length_append, List.length_drop, crlfcrlf_length]
          omega
        rw [← List.append_assoc] at hcat
        obtain ⟨q, rfl⟩ : (responseLines t).drop n ++ crlfcrlf <+: seg :=
          List.prefix_of_prefix_length_le ⟨_, rfl⟩ ⟨_, hcat⟩ hle
        rw [List.append_assoc _ q] at hcat
        have hq : q ++ segs.flatten = p := List.append_cancel_left hcat
        rw [run_cons, List.append_assoc, clientDecode_of_complete hl,
          clientDecode_run_open rfl, List.flatten_cons]
        exact hq

/-- A segment that ends inside the terminator loses payload. -/
theorem clientDecode_run_of_not_spans {l : LocalData} (hl : l.hasRecvHeader = false) {t : Tm} {n : ℕ}
    {p : Bytes} {segs : List Bytes} (hn : n ≤ (responseLines t).length)
    (hcat : segs.flatten = (responseLines t).drop n ++ (crlfcrlf ++ p))
    (hspans : ¬ Spans
      (fun _ e => e + 4 ≤ (responseHeader t).length ∨ (responseHeader t).length ≤ e) n segs) :
    (run clientDecode l segs).2.flatten.length ≤ p.length - 1 := by
  have hhead : (responseHeader t).length = (responseLines t).length + 4 := by
    simp [responseHeader_eq]
  induction segs generalizing n with
  | nil => exact absurd (spans_nil _ _) hspans
  | cons seg segs ih =>
      have hlen := congrArg List.length hcat
      simp only [List.flatten_cons, List.length_append, List.length_drop, crlfcrlf_length] at hlen
      rw [List.flatten_cons] at hcat
      by_cases hlong : (responseHeader t).length ≤ n + seg.length
      · -- past the header every later end is harmless
        refine absurd ⟨Or.inr hlong, ?_⟩ hspans
        exact spans_of_le (fun _ e he => Or.inr he) hlong segs
      · have hseg : seg <+: (responseLines t).drop n ++ crlfcrlf := by
          refine List.prefix_of_prefix_length_le ⟨_, hcat⟩ ⟨p, by simp⟩ ?_
          rw [List.length_append, List.length_drop, crlfcrlf_length]
          omega
        have hnone : strstr seg crlfcrlf = none := by
          refine strstr_of_incomplete hseg ?_
          rw [List.length_drop]
          omega
        rw [clientDecode_run_none hl hnone]
        by_cases hin : n + seg.length ≤ (responseLines t).length
        · have hrest :
              segs.flatten = (responseLines t).drop (n + seg.length) ++ (crlfcrlf ++ p) := by
            have hdrop := congrArg (List.drop seg.length) hcat
            rwa [List.drop_left, List.drop_append_of_le_length (by rw [List.length_drop]; omega),
              List.drop_drop] at hdrop
          exact ih hin hrest fun h => hspans ⟨Or.inl (by omega), h⟩
        · have hle := clientDecode_run_length_le hl segs
          omega

/-! ## Segmentation of the response -/

/-- The bytes that `server_encode` emits for a sequence of payloads, each with the time of its
call. -/
def responseStream (sends : List (Tm × Bytes)) : Bytes :=
  (run (fun l s => serverEncode s.1 l s.2) localDataInit sends).2.flatten

/-- The length of the header in front of the first payload. -/
def responseHeaderLength : List (Tm × Bytes) → ℕ
  | [] => 0
  | s :: _ => (responseHeader s.1).length

theorem serverEncode_run_open {l : LocalData} (hl : l.hasSentHeader = true)
    (sends : List (Tm × Bytes)) :
    (run (fun l s => serverEncode s.1 l s.2) l sends).2 = sends.map Prod.snd := by
  have hstep : ∀ s : Tm × Bytes, serverEncode s.1 l s.2 = (l, s.2) :=
    fun s => by simp [serverEncode, hl]
  induction sends with
  | nil => rfl
  | cons s sends ih => rw [run_cons, hstep, ih, List.map_cons]

theorem responseStream_cons (t : Tm) (b : Bytes) (sends : List (Tm × Bytes)) :
    responseStream ((t, b) :: sends) =
      responseLines t ++ (crlfcrlf ++ (b ++ (sends.map Prod.snd).flatten)) := by
  have hstep : serverEncode t localDataInit b =
      ({ localDataInit with hasSentHeader := true }, responseHeader t ++ b) := rfl
  rw [responseStream, run_cons, hstep, serverEncode_run_open rfl, List.flatten_cons,
    responseHeader_eq]
  simp only [List.append_assoc]

/-- The payloads arrive unchanged exactly when there are none, or when no segment ends inside the
four bytes that end the header. -/
theorem response_segmentation_iff (sends : List (Tm × Bytes)) (segs : List Bytes)
    (hcat : segs.flatten = responseStream sends) :
    (run clientDecode localDataInit segs).2.flatten = (sends.map Prod.snd).flatten ↔
      (sends.map Prod.snd).flatten = [] ∨
        Spans (fun _ e => e + 4 ≤ responseHeaderLength sends ∨ responseHeaderLength sends ≤ e)
          0 segs := by
  have hinit : localDataInit.hasRecvHeader = false := rfl
  cases sends with
  | nil =>
      have hle := clientDecode_run_length_le hinit segs
      have hempty : segs.flatten.length = 0 := congrArg List.length hcat
      have hout : (run clientDecode localDataInit segs).2.flatten = [] :=
        List.length_eq_zero_iff.1 (by omega)
      simp [hout]
  | cons s sends =>
      obtain ⟨t, b⟩ := s
      rw [responseStream_cons] at hcat
      generalize hp : b ++ (sends.map Prod.snd).flatten = p at hcat
      have hcat₀ : segs.flatten = (responseLines t).drop 0 ++ (crlfcrlf ++ p) := hcat
      simp only [List.map_cons, List.flatten_cons, hp, responseHeaderLength]
      constructor
      · intro hrun
        by_contra hnot
        rw [not_or] at hnot
        have hle := clientDecode_run_of_not_spans hinit (Nat.zero_le _) hcat₀ hnot.2
        have hpos := List.length_pos_iff.2 hnot.1
        rw [hrun] at hle
        omega
      · rintro (hnil | hspans)
        · -- without payload there are only header bytes, and these are never returned
          by_cases hspans : Spans (fun _ e => e + 4 ≤ (responseHeader t).length ∨
              (responseHeader t).length ≤ e) 0 segs
          · exact clientDecode_run_of_spans hinit (Nat.zero_le _) hcat₀ hspans
          · have hle := clientDecode_run_of_not_spans hinit (Nat.zero_le _) hcat₀ hspans
            rw [hnil] at hle ⊢
            exact List.length_eq_zero_iff.1 (Nat.le_zero.1 hle)
        · exact clientDecode_run_of_spans hinit (Nat.zero_le _) hcat₀ hspans

def sampleTm : Tm := ⟨1, 6, ⟨0, by decide⟩, 2020, 8, 30, 5⟩

/-- A payload with a NUL and a CRLFCRLF of its own, behind a header cut in its third line. -/
theorem response_segmentation_sample :
    (run clientDecode localDataInit
      [(responseStream [(sampleTm, [0, 13, 10, 13, 10]), (sampleTm, [7])]).take 50,
        (responseStream [(sampleTm, [0, 13, 10, 13, 10]), (sampleTm, [7])]).drop 50]).2.flatten =
      [0, 13, 10, 13, 10, 7] :=
  (response_segmentation_iff [(sampleTm, [0, 13, 10, 13, 10]), (sampleTm, [7])] _
    (by simp)).2 (Or.inr (by decide +kernel))

/-- A cut inside the terminator: the header and the payload are lost. -/
theorem response_lost_in_terminator :
    (run clientDecode localDataInit
      [(responseStream [(sampleTm, [1, 2, 3])]).take ((responseHeader sampleTm).length - 2),
        (responseStream [(sampleTm, [1, 2, 3])]).drop ((responseHeader sampleTm).length - 2)]).2 =
      [[], []] ∧
    ¬ (run clientDecode localDataInit
      [(responseStream [(sampleTm, [1, 2, 3])]).take ((responseHeader sampleTm).length - 2),
        (responseStream [(sampleTm, [1, 2, 3])]).drop
          ((responseHeader sampleTm).length - 2)]).2.flatten = [1, 2, 3] := by
  decide +kernel

end HttpSimple
end Obfs
end SsrNative
