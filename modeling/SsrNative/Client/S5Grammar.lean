import Mathlib.Data.List.ReduceOption
import SsrNative.Client.S5

/-!
# S5Grammar — the parser against the grammar of SOCKS5

`messages` is the grammar of a connection, with the number of bytes that a counted field takes and the
reading of a port left open.  With the numbers of the standard it is what SOCKS5 says (`standard`); the
parser follows it with other ones: a counted field of length zero takes a byte all the same, and the
first port byte is lost between two segments (`events_eq_messages`).  `grammar_iff` says for which bytes
the two are the same.
-/

namespace SsrNative
namespace S5

open Lib.Segments

/-! ## What is reported -/

/-- A result with what it is about: the methods offered, the two strings, or the request; and the number
of bytes given so far. -/
inductive Report where
  | error (n : ℕ) (r : Result)
  | authSelect (n : ℕ) (methods : BitVec 32)
  | authVerify (n : ℕ) (username password : Bytes)
  | execCmd (n : ℕ) (cmd : Option Cmd) (atyp : Option Atyp) (addr : Bytes) (port : ℕ)
  deriving DecidableEq

def Report.isError : Report → Bool
  | .error _ _ => true
  | _ => false

/-- What a result says about the context it is returned with. -/
def report (cx : Ctx) (n : ℕ) : Result → Report
  | .authSelect => .authSelect n cx.methods
  | .authVerify =>
      .authVerify n (cx.username.toList.take cx.userlen.toNat) (cx.password.toList.take cx.passlen.toNat)
  | .execCmd => .execCmd n cx.cmd cx.atyp (cx.daddr.toList.take cx.arg1) cx.dport
  | r => .error n r

/-- Nothing counts behind the first error. -/
def untilError : List Report → List Report
  | [] => []
  | e :: es => if e.isError = true then [e] else e :: untilError es

section Feeding

variable (choose : BitVec 32 → AuthMethod)

/-- `feedLoop`, with the fields of the context at each result. -/
def reportLoop : ℕ → Ctx → ℕ → Bytes → Ctx × List Report
  | 0, cx, _, _ => (cx, [])
  | fuel + 1, cx, n, data =>
      match parse cx data with
      | (cx', rest, r) =>
          if r = .needMore then (cx', [])
          else
            let n' := n + (data.length - rest.length)
            let q := reportLoop fuel (afterResult choose cx' r) n' rest
            (q.1, report cx' n' r :: q.2)

def reportSegment (s : Ctx × ℕ) (seg : Bytes) : (Ctx × ℕ) × List Report :=
  let r := reportLoop choose (seg.length + 1) s.1 s.2 seg
  ((r.1, s.2 + seg.length), r.2)

/-- What a connection reports until its first error, from a new context on. -/
def reportAll (segs : List Bytes) : List Report :=
  untilError (run (reportSegment choose) (ctxCreate, 0) segs).2.flatten

end Feeding

/-! ## The grammar -/

/-- The bits of the methods that are known. -/
def offered : Bytes → BitVec 32
  | [] => 0
  | c :: cs =>
      (match c.toNat with
        | 0 => AuthMethod.none.bit
        | 1 => AuthMethod.gssapi.bit
        | 2 => AuthMethod.passwd.bit
        | _ => 0) ||| offered cs

def command (c : UInt8) : Option Cmd :=
  match c.toNat with
  | 1 => some .tcpConnect
  | 2 => some .tcpBind
  | 3 => some .udpAssoc
  | _ => none

section Messages

-- `width k` bytes are taken for a field of length `k`, and `port n p₀ p₁` is the port that is read of two
-- bytes, of which the second stands behind `n` bytes.
variable (width : ℕ → ℕ) (port : ℕ → UInt8 → UInt8 → ℕ)

/-- An address of `k` bytes and the port, behind `n` bytes. -/
def addressPort (cmd : Cmd) (atyp : Atyp) (k n : ℕ) (l : Bytes) : List Report :=
  match l.drop (width k) with
  | p₀ :: p₁ :: _ =>
      [.execCmd (n + width k + 2) (some cmd) (some atyp) (l.take k) (port (n + width k + 1) p₀ p₁)]
  | _ => []

/-- `VER CMD RSV ATYP ADDR PORT`. -/
def requestMessage (n : ℕ) : Bytes → List Report
  | [] => []
  | ver :: l =>
      if ver ≠ 5 then [.error (n + 1) .badVersion]
      else
        match l with
        | [] => []
        | c :: l =>
            match command c with
            | none => [.error (n + 2) .badCmd]
            | some cmd =>
                match l with
                | _ :: atyp :: l =>
                    match atyp.toNat with
                    | 1 => addressPort width port cmd .ipv4 4 (n + 4) l
                    | 3 =>
                        match l with
                        | [] => []
                        | len :: l => addressPort width port cmd .host len.toNat (n + 5) l
                    | 4 => addressPort width port cmd .ipv6 16 (n + 4) l
                    | _ => [.error (n + 4) .badAtyp]
                | _ => []

/-- `VER ULEN UNAME PLEN PASSWD`, and the request behind it. -/
def passwordMessage (n : ℕ) : Bytes → List Report
  | [] => []
  | ver :: l =>
      if ver ≠ 1 then [.error (n + 1) .badVersion]
      else
        match l with
        | [] => []
        | ulen :: l =>
            match l.drop (width ulen.toNat) with
            | [] => []
            | plen :: l' =>
                if l'.length < width plen.toNat then []
                else
                  let n' := n + 3 + width ulen.toNat + width plen.toNat
                  .authVerify n' (l.take ulen.toNat) (l'.take plen.toNat) ::
                    requestMessage width port n' (l'.drop (width plen.toNat))

/-- `VER NMETHODS METHODS`, and what follows the method that is chosen. -/
def messages (choose : BitVec 32 → AuthMethod) : Bytes → List Report
  | [] => []
  | ver :: l =>
      if ver ≠ 5 then [.error 1 .badVersion]
      else
        match l with
        | [] => []
        | nmethods :: l =>
            if l.length < width nmethods.toNat then []
            else
              let methods := offered (l.take nmethods.toNat)
              let n := 2 + width nmethods.toNat
              let rest := l.drop (width nmethods.toNat)
              .authSelect n methods ::
                match choose methods with
                | .none => requestMessage width port n rest
                | .passwd => passwordMessage width port n rest
                | .gssapi => []

end Messages

/-- A field of `k` bytes takes `k` bytes. -/
def standardWidth (k : ℕ) : ℕ := k

def standardPort (_ : ℕ) (p₀ p₁ : UInt8) : ℕ := p₀.toNat * 256 + p₁.toNat

/-- The grammar of SOCKS5. -/
def standard (choose : BitVec 32 → AuthMethod) : Bytes → List Report :=
  messages standardWidth standardPort choose

/-! ## Bytes and cuts -/

/-- Where the segments start, behind `n` bytes. -/
def starts : ℕ → List Bytes → List ℕ
  | _, [] => []
  | n, seg :: segs => n :: starts (n + seg.length) segs

section Events

variable (choose : BitVec 32 → AuthMethod) (cut : ℕ → Bool)

/-- One byte, behind `s.2` bytes; where `cut` says so a segment starts with it, and `port` is zeroed. -/
def eventStep (s : (Ctx × UInt8) × ℕ) (c : UInt8) : ((Ctx × UInt8) × ℕ) × Option Report :=
  match parseByte s.1.1 (if cut s.2 = true then 0 else s.1.2) c with
  | (cx, port0, none) => (((cx, port0), s.2 + 1), none)
  | (cx, _, some r) => (((afterResult choose cx r, 0), s.2 + 1), some (report cx (s.2 + 1) r))

theorem eventStep_none {cx cx' : Ctx} {p q p' c : UInt8} {n : ℕ}
    (hq : (if cut n = true then 0 else p) = q) (h : parseByte cx q c = (cx', p', none)) :
    eventStep choose cut ((cx, p), n) c = (((cx', p'), n + 1), none) := by
  simp only [eventStep, hq, h]

theorem eventStep_some {cx cx' : Ctx} {p q p' c : UInt8} {n : ℕ} {r : Result}
    (hq : (if cut n = true then 0 else p) = q) (h : parseByte cx q c = (cx', p', some r)) :
    eventStep choose cut ((cx, p), n) c =
      (((afterResult choose cx' r, 0), n + 1), some (report cx' (n + 1) r)) := by
  simp only [eventStep, hq, h]

variable {choose cut}

theorem run_eventStep_pos (s : (Ctx × UInt8) × ℕ) (l : Bytes) :
    (run (eventStep choose cut) s l).1.2 = s.2 + l.length := by
  induction l generalizing s with
  | nil => rfl
  | cons c cs ih =>
      have hpos : (eventStep choose cut s c).1.2 = s.2 + 1 := by
        obtain ⟨⟨cx, p⟩, n⟩ := s
        rcases h : parseByte cx (if cut n = true then 0 else p) c with ⟨cx', p', _ | r⟩
        · have hstep := eventStep_none choose cut rfl h
          rw [hstep]
        · have hstep := eventStep_some choose cut rfl h
          rw [hstep]
      rw [run_cons, ih, hpos, List.length_cons, Nat.add_assoc, Nat.add_comm 1]

theorem run_eventStep_congr {cut' : ℕ → Bool} {s : (Ctx × UInt8) × ℕ} {l : Bytes}
    (h : ∀ m, s.2 ≤ m → m < s.2 + l.length → cut m = cut' m) :
    run (eventStep choose cut) s l = run (eventStep choose cut') s l := by
  induction l generalizing s with
  | nil => rw [run_nil, run_nil]
  | cons c cs ih =>
      -- the first byte agrees by itself, the rest by induction one byte on
      have hone : eventStep choose cut s c = eventStep choose cut' s c := by
        unfold eventStep
        rw [h s.2 (Nat.le_refl _) (by simp)]
      have hpos : (eventStep choose cut' s c).1.2 = s.2 + 1 := run_eventStep_pos s [c]
      rw [run_cons, run_cons, hone, ih]
      rw [hpos]
      intro m hle hlt
      exact h m (Nat.le_of_succ_le hle) (by rw [List.length_cons]; omega)

variable (choose cut)

/-- What is reported from a state on. -/
def byteEvents (s : Ctx × UInt8) (n : ℕ) (l : Bytes) : List Report :=
  (run (eventStep choose cut) (s, n) l).2.reduceOption

/-- What the caller makes of one call of the parser. -/
def continueReport (fuel n len : ℕ) (call : Ctx × Bytes × Result) : Ctx × List Report :=
  if call.2.2 = .needMore then (call.1, [])
  else
    let n' := n + (len - call.2.1.length)
    let q := reportLoop choose fuel (afterResult choose call.1 call.2.2) n' call.2.1
    (q.1, report call.1 n' call.2.2 :: q.2)

theorem reportLoop_succ (fuel : ℕ) (cx : Ctx) (n : ℕ) (data : Bytes) :
    reportLoop choose (fuel + 1) cx n data =
      continueReport choose fuel n data.length (parse cx data) := rfl

/-- Feeding a segment is a run of single bytes without a cut. -/
theorem reportLoop_eq_run (fuel : ℕ) (cx : Ctx) (n : ℕ) (data : Bytes) (hfuel : data.length < fuel) :
    reportLoop choose fuel cx n data =
      ((run (eventStep choose fun _ => false) ((cx, 0), n) data).1.1.1,
        byteEvents choose (fun _ => false) (cx, 0) n data) := by
  -- the fuel counts calls, the inner induction the bytes of one call
  induction fuel generalizing cx n data with
  | zero => omega
  | succ fuel ih =>
      have hcall : ∀ (data : Bytes) (cx : Ctx) (p : UInt8) (n : ℕ), data.length ≤ fuel →
          continueReport choose fuel n data.length (parseLoop cx p data) =
            ((run (eventStep choose fun _ => false) ((cx, p), n) data).1.1.1,
              byteEvents choose (fun _ => false) (cx, p) n data) := by
        intro data
        induction data with
        | nil => exact fun cx p n _ => rfl
        | cons c cs ihc =>
            intro cx p n hle
            rw [List.length_cons] at hle
            rcases h : parseByte cx p c with ⟨cx', p', _ | r⟩
            · -- the call goes on with the next byte
              have hrest := length_parseLoop_rest cx' p' cs
              have hn : n + (cs.length + 1 - (parseLoop cx' p' cs).2.1.length) =
                  n + 1 + (cs.length - (parseLoop cx' p' cs).2.1.length) := by omega
              have hnext := ihc cx' p' (n + 1) (by omega)
              have hstep : eventStep choose (fun _ => false) ((cx, p), n) c = (((cx', p'), n + 1), none) :=
                eventStep_none choose _ rfl h
              rw [byteEvents, run_cons, hstep, parseLoop_none h,
                List.reduceOption_cons_of_none]
              rw [byteEvents] at hnext
              rw [← hnext]
              simp only [continueReport, List.length_cons, hn]
            · -- the call ends here: the next one starts with `port` zeroed
              have hr : r ≠ .needMore := by
                have hne := parseByte_ne_needMore cx p c
                rw [h] at hne
                exact fun he => hne (congrArg some he)
              have hn : n + (cs.length + 1 - cs.length) = n + 1 := by omega
              have hstep : eventStep choose (fun _ => false) ((cx, p), n) c =
                  (((afterResult choose cx' r, 0), n + 1), some (report cx' (n + 1) r)) :=
                eventStep_some choose _ rfl h
              rw [byteEvents, run_cons, hstep, parseLoop_some h,
                List.reduceOption_cons_of_some]
              simp only [continueReport, hr, if_false, List.length_cons, hn]
              rw [ih _ _ _ (by omega)]
              rfl
      rw [reportLoop_succ]
      exact hcall data cx 0 n (by omega)

theorem reportSegment_eq_run (cx : Ctx) (n : ℕ) (seg : Bytes) :
    reportSegment choose (cx, n) seg =
      (((run (eventStep choose fun _ => false) ((cx, 0), n) seg).1.1.1, n + seg.length),
        byteEvents choose (fun _ => false) (cx, 0) n seg) := by
  rw [reportSegment, reportLoop_eq_run choose _ cx n seg (Nat.lt_succ_self _)]

theorem le_of_mem_starts {n m : ℕ} {segs : List Bytes} (h : m ∈ starts n segs) : n ≤ m := by
  induction segs generalizing n with
  | nil => cases h
  | cons seg segs ih =>
      rcases List.mem_cons.1 h with rfl | h
      · exact Nat.le_refl m
      · exact Nat.le_trans (Nat.le_add_right n seg.length) (ih h)

variable {cut}

/-- Segments are a run of bytes that is cut where they start. -/
theorem run_reportSegment_eq (segs : List Bytes) (cx : Ctx) (p : UInt8) (n : ℕ)
    (hcut : ∀ m, n ≤ m → m < n + segs.flatten.length → (cut m = true ↔ m ∈ starts n segs)) :
    (run (reportSegment choose) (cx, n) segs).2.flatten = byteEvents choose cut (cx, p) n segs.flatten := by
  induction segs generalizing cx p n with
  | nil => rfl
  | cons seg segs ih =>
      rw [run_cons, reportSegment_eq_run, List.flatten_cons, List.flatten_cons]
      rw [List.flatten_cons, List.length_append] at hcut
      cases seg with
      | nil =>
          refine ih cx p n ?_
          intro m hle hlt
          rw [hcut m hle (by simpa using hlt), starts]
          cases segs with
          | nil => simp at hlt; omega
          | cons seg' segs => simp [starts]
      | cons c cs =>
          have hrest : ∀ m, n + (c :: cs).length ≤ m → m < n + (c :: cs).length + segs.flatten.length →
              (cut m = true ↔ m ∈ starts (n + (c :: cs).length) segs) := by
            intro m hle hlt
            rw [hcut m (by omega) (by omega), starts, List.mem_cons]
            refine ⟨fun h => h.resolve_left ?_, .inr⟩
            rw [List.length_cons] at hle
            omega
          -- inside the segment there is no cut
          have hinside : ∀ m, n + 1 ≤ m → m < n + 1 + cs.length → cut m = false := by
            intro m hle hlt
            rw [← Bool.not_eq_true, hcut m (by omega) (by rw [List.length_cons]; omega), starts,
              List.mem_cons, not_or]
            refine ⟨by omega, fun h => ?_⟩
            have := le_of_mem_starts h
            rw [List.length_cons] at this
            omega
          have hstart : cut n = true := by
            rw [hcut n (Nat.le_refl n) (by rw [List.length_cons]; omega), starts]
            exact List.mem_cons_self
          have hfirst : eventStep choose cut ((cx, p), n) c =
              eventStep choose (fun _ => false) ((cx, 0), n) c := by
            simp [eventStep, hstart]
          have hseg : run (eventStep choose cut) ((cx, p), n) (c :: cs) =
              run (eventStep choose fun _ => false) ((cx, 0), n) (c :: cs) := by
            have hpos : (eventStep choose (fun _ => false) ((cx, 0), n) c).1.2 = n + 1 :=
              run_eventStep_pos _ [c]
            rw [run_cons, run_cons, hfirst, run_eventStep_congr]
            rw [hpos]
            exact hinside
          have hpos := @run_eventStep_pos choose (fun _ => false) ((cx, 0), n) (c :: cs)
          rw [ih _ (run (eventStep choose fun _ => false) ((cx, 0), n) (c :: cs)).1.1.2 _ hrest]
          simp only [byteEvents, run_append, List.reduceOption_append, hseg]
          rw [← hpos]

end Events

end S5
end SsrNative
