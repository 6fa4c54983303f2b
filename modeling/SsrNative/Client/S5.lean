import SsrNative.Bytes
import SsrNative.Lib.Segments

/-!
# S5 — the SOCKS5 parser

`s5_parse` of `client/s5.c` is a machine that is driven byte by byte.  Everything it knows about the
bytes already read is in `struct s5_ctx`, with one exception: the first byte of the destination port
is kept in a local array and is gone when the call ends.

`segmentation_iff` says exactly which segmentations of a byte sequence are parsed like the whole
sequence at once.
-/

namespace SsrNative
namespace S5

open Lib.Segments

/-! ## Data -/

inductive Stage where
  | version
  | nmethods
  | methods
  | authPwVersion
  | authPwUserlen
  | authPwUsername
  | authPwPasslen
  | authPwPassword
  | reqVersion
  | reqCmd
  | reqReserved
  | reqAtyp
  | reqAtypHost
  | reqDaddr
  | reqDport0
  | reqDport1
  | dead
deriving DecidableEq

inductive Result where
  | badVersion
  | badCmd
  | badAtyp
  | needMore
  | authSelect
  | authVerify
  | execCmd
deriving DecidableEq

inductive Cmd where
  | tcpConnect
  | tcpBind
  | udpAssoc
deriving DecidableEq

inductive Atyp where
  | ipv4
  | host
  | ipv6
deriving DecidableEq

inductive AuthMethod where
  | none
  | gssapi
  | passwd
deriving DecidableEq

/-- The bit of a method in `methods`. -/
def AuthMethod.bit : AuthMethod → BitVec 32
  | .none => 1 <<< 0
  | .gssapi => 1 <<< 1
  | .passwd => 1 <<< 2

/-- `struct s5_ctx`; `cmd` and `atyp` are zero, which is none of their values, until they are set. -/
structure Ctx where
  arg0 : ℕ
  arg1 : ℕ
  stage : Stage
  methods : BitVec 32
  cmd : Option Cmd
  atyp : Option Atyp
  userlen : UInt8
  passlen : UInt8
  dport : ℕ
  username : Vector UInt8 257
  password : Vector UInt8 257
  daddr : Vector UInt8 257

/-- `s5_ctx_create`. -/
def ctxCreate : Ctx where
  arg0 := 0
  arg1 := 0
  stage := .version
  methods := 0
  cmd := none
  atyp := none
  userlen := 0
  passlen := 0
  dport := 0
  username := Vector.replicate 257 0
  password := Vector.replicate 257 0
  daddr := Vector.replicate 257 0

/-! ## The parser -/

/-- The body of the loop of `s5_parse` for the byte `c`, in the stages that do not use `port`: the
context, and the result if the loop is left. -/
def stageByte (cx : Ctx) (c : UInt8) : Ctx × Option Result :=
  match cx.stage with
  | .version =>
      if c ≠ 5 then (cx, some .badVersion) else ({ cx with stage := .nmethods }, none)
  | .nmethods => ({ cx with arg0 := 0, arg1 := c.toNat, stage := .methods }, none)
  | .methods =>
      let cx :=
        if cx.arg0 < cx.arg1 then
          { cx with
            methods :=
              match c.toNat with
              | 0 => cx.methods ||| AuthMethod.none.bit
              | 1 => cx.methods ||| AuthMethod.gssapi.bit
              | 2 => cx.methods ||| AuthMethod.passwd.bit
              | _ => cx.methods
            arg0 := cx.arg0 + 1 }
        else cx
      if cx.arg0 = cx.arg1 then (cx, some .authSelect) else (cx, none)
  | .authPwVersion =>
      if c ≠ 1 then (cx, some .badVersion)
      else ({ cx with stage := .authPwUserlen }, none)
  | .authPwUserlen =>
      ({ cx with arg0 := 0, userlen := c, stage := .authPwUsername }, none)
  | .authPwUsername =>
      let cx :=
        if cx.arg0 < cx.userlen.toNat then
          { cx with username := cx.username.setIfInBounds cx.arg0 c, arg0 := cx.arg0 + 1 }
        else cx
      if cx.arg0 = cx.userlen.toNat then
        ({ cx with
            username := cx.username.setIfInBounds cx.userlen.toNat 0
            stage := .authPwPasslen }, none)
      else (cx, none)
  | .authPwPasslen =>
      ({ cx with arg0 := 0, passlen := c, stage := .authPwPassword }, none)
  | .authPwPassword =>
      let cx :=
        if cx.arg0 < cx.passlen.toNat then
          { cx with password := cx.password.setIfInBounds cx.arg0 c, arg0 := cx.arg0 + 1 }
        else cx
      if cx.arg0 = cx.passlen.toNat then
        ({ cx with
            password := cx.password.setIfInBounds cx.passlen.toNat 0
            stage := .reqVersion }, some .authVerify)
      else (cx, none)
  | .reqVersion =>
      if c ≠ 5 then (cx, some .badVersion) else ({ cx with stage := .reqCmd }, none)
  | .reqCmd =>
      match c.toNat with
      | 1 => ({ cx with cmd := some .tcpConnect, stage := .reqReserved }, none)
      | 2 => ({ cx with cmd := some .tcpBind, stage := .reqReserved }, none)
      | 3 => ({ cx with cmd := some .udpAssoc, stage := .reqReserved }, none)
      | _ => (cx, some .badCmd)
  | .reqReserved => ({ cx with stage := .reqAtyp }, none)
  | .reqAtyp =>
      let cx := { cx with arg0 := 0 }
      match c.toNat with
      | 1 => ({ cx with stage := .reqDaddr, atyp := some .ipv4, arg1 := 4 }, none)
      | 3 => ({ cx with stage := .reqAtypHost, atyp := some .host, arg1 := 0 }, none)
      | 4 => ({ cx with stage := .reqDaddr, atyp := some .ipv6, arg1 := 16 }, none)
      | _ => (cx, some .badAtyp)
  | .reqAtypHost => ({ cx with arg1 := c.toNat, stage := .reqDaddr }, none)
  | .reqDaddr =>
      let cx :=
        if cx.arg0 < cx.arg1 then
          { cx with daddr := cx.daddr.setIfInBounds cx.arg0 c, arg0 := cx.arg0 + 1 }
        else cx
      if cx.arg0 = cx.arg1 then
        ({ cx with daddr := cx.daddr.setIfInBounds cx.arg1 0, stage := .reqDport0 }, none)
      else (cx, none)
  | .dead => (cx, none)
  -- these two are in `parseByte`
  | .reqDport0 => (cx, none)
  | .reqDport1 => (cx, none)

/-- The body of the loop of `s5_parse`; `port0` is `port[0]`, which is passed on beside the
context. -/
def parseByte (cx : Ctx) (port0 c : UInt8) : Ctx × UInt8 × Option Result :=
  match cx.stage with
  | .reqDport0 => ({ cx with stage := .reqDport1 }, c, none)
  | .reqDport1 =>
      ({ cx with dport := port0.toNat * 256 + c.toNat, stage := .dead }, port0, some .execCmd)
  | _ =>
      let r := stageByte cx c
      (r.1, port0, r.2)

/-- The loop of `s5_parse`: the context, the unread bytes and the result. -/
def parseLoop : Ctx → UInt8 → Bytes → Ctx × Bytes × Result
  | cx, _, [] => (cx, [], .needMore)
  | cx, port0, c :: cs =>
      match parseByte cx port0 c with
      | (cx', _, some r) => (cx', cs, r)
      | (cx', port0', none) => parseLoop cx' port0' cs

/-- `s5_parse`: `port` is zeroed at every call. -/
def parse (cx : Ctx) (data : Bytes) : Ctx × Bytes × Result := parseLoop cx 0 data

/-- `s5_select_auth`; a method it does not know leaves the context as it is. -/
def selectAuth (cx : Ctx) : AuthMethod → Ctx
  | .none => { cx with stage := .reqVersion }
  | .passwd => { cx with stage := .authPwVersion }
  | .gssapi => cx

section Feeding

variable (choose : BitVec 32 → AuthMethod)

/-- What the caller does after a result. -/
def afterResult (cx : Ctx) (r : Result) : Ctx :=
  if r = .authSelect then selectAuth cx (choose cx.methods) else cx

/-- Give a segment to `s5_parse`, and again what it leaves unread after each result.  Every result
is reported with the number of bytes consumed so far; `n` were consumed before.  Each result needs a
byte, so `fuel` only has to exceed the length of the segment. -/
def feedLoop : ℕ → Ctx → ℕ → Bytes → Ctx × List (Result × ℕ)
  | 0, cx, _, _ => (cx, [])
  | fuel + 1, cx, n, data =>
      match parse cx data with
      | (cx', rest, r) =>
          if r = .needMore then (cx', [])
          else
            let n' := n + (data.length - rest.length)
            let q := feedLoop fuel (afterResult choose cx' r) n' rest
            (q.1, (r, n') :: q.2)

/-- One segment; the state is the context and the number of bytes consumed so far. -/
def feedSegment (s : Ctx × ℕ) (seg : Bytes) : (Ctx × ℕ) × List (Result × ℕ) :=
  let r := feedLoop choose (seg.length + 1) s.1 s.2 seg
  ((r.1, s.2 + seg.length), r.2)

/-- All segments of a connection, from a new context on. -/
def feedAll (segs : List Bytes) : Ctx × List (Result × ℕ) :=
  let r := run (feedSegment choose) (ctxCreate, 0) segs
  (r.1.1, r.2.flatten)

/-! ## Byte by byte -/

/-- One byte, with the caller's answer to a result.  After a result a new call starts, so `port` is
zeroed. -/
def byteStep (s : Ctx × UInt8) (c : UInt8) : (Ctx × UInt8) × Option Result :=
  match parseByte s.1 s.2 c with
  | (cx, port0, none) => ((cx, port0), none)
  | (cx, _, some r) => ((afterResult choose cx r, 0), some r)

/-- The results of single bytes, each with the number of bytes consumed so far. -/
def resultsAt : ℕ → List (Option Result) → List (Result × ℕ)
  | _, [] => []
  | n, none :: rs => resultsAt (n + 1) rs
  | n, some r :: rs => (r, n + 1) :: resultsAt (n + 1) rs

theorem resultsAt_append (n : ℕ) (rs rs' : List (Option Result)) :
    resultsAt n (rs ++ rs') = resultsAt n rs ++ resultsAt (n + rs.length) rs' := by
  induction rs generalizing n with
  | nil => rfl
  | cons r rs ih =>
      have hlen : n + (rs.length + 1) = n + 1 + rs.length := by omega
      cases r with
      | none => simp [resultsAt, ih, hlen]
      | some r => simp [resultsAt, ih, hlen]

/-- No stage asks for more data itself, and only the first port byte leads to the second one. -/
theorem stageByte_spec (cx : Ctx) (c : UInt8) :
    (stageByte cx c).2 ≠ some .needMore ∧
      (cx.stage ≠ .reqDport1 → (stageByte cx c).1.stage ≠ .reqDport1) := by
  cases h : cx.stage
  all_goals
    simp only [stageByte, h]
    (try split_ifs) <;> (try split) <;> simp [h]

theorem parseByte_of_ne {cx : Ctx} (h0 : cx.stage ≠ .reqDport0) (h1 : cx.stage ≠ .reqDport1)
    (port0 c : UInt8) :
    parseByte cx port0 c = ((stageByte cx c).1, port0, (stageByte cx c).2) := by
  cases h : cx.stage
  case reqDport0 => exact absurd h h0
  case reqDport1 => exact absurd h h1
  all_goals simp only [parseByte, h]

theorem parseByte_ne_needMore (cx : Ctx) (port0 c : UInt8) :
    (parseByte cx port0 c).2.2 ≠ some .needMore := by
  by_cases h0 : cx.stage = .reqDport0
  · simp [parseByte, h0]
  · by_cases h1 : cx.stage = .reqDport1
    · simp [parseByte, h1]
    · rw [parseByte_of_ne h0 h1]
      exact (stageByte_spec cx c).1

variable {choose}

theorem byteStep_none {cx cx' : Ctx} {p p' c : UInt8} (h : parseByte cx p c = (cx', p', none)) :
    byteStep choose (cx, p) c = ((cx', p'), none) := by
  simp only [byteStep, h]

theorem byteStep_some {cx cx' : Ctx} {p p' c : UInt8} {r : Result}
    (h : parseByte cx p c = (cx', p', some r)) :
    byteStep choose (cx, p) c = ((afterResult choose cx' r, 0), some r) := by
  simp only [byteStep, h]

theorem parseLoop_none {cx cx' : Ctx} {p p' c : UInt8} (h : parseByte cx p c = (cx', p', none))
    (cs : Bytes) : parseLoop cx p (c :: cs) = parseLoop cx' p' cs := by
  simp only [parseLoop, h]

theorem parseLoop_some {cx cx' : Ctx} {p p' c : UInt8} {r : Result}
    (h : parseByte cx p c = (cx', p', some r)) (cs : Bytes) :
    parseLoop cx p (c :: cs) = (cx', cs, r) := by
  simp only [parseLoop, h]

theorem length_parseLoop_rest (cx : Ctx) (p : UInt8) (data : Bytes) :
    (parseLoop cx p data).2.1.length ≤ data.length := by
  induction data generalizing cx p with
  | nil => simp [parseLoop]
  | cons c cs ih =>
      rcases h : parseByte cx p c with ⟨cx', p', _ | r⟩
      · rw [parseLoop_none h]
        exact Nat.le_trans (ih cx' p') (Nat.le_succ _)
      · rw [parseLoop_some h]
        exact Nat.le_succ _

variable (choose)

/-- What the caller makes of one call of the parser. -/
def continueWith (fuel n len : ℕ) (call : Ctx × Bytes × Result) : Ctx × List (Result × ℕ) :=
  if call.2.2 = .needMore then (call.1, [])
  else
    let n' := n + (len - call.2.1.length)
    let q := feedLoop choose fuel (afterResult choose call.1 call.2.2) n' call.2.1
    (q.1, (call.2.2, n') :: q.2)

theorem feedLoop_succ (fuel : ℕ) (cx : Ctx) (n : ℕ) (data : Bytes) :
    feedLoop choose (fuel + 1) cx n data =
      continueWith choose fuel n data.length (parse cx data) := rfl

/-- Feeding a segment is a run of single bytes. -/
theorem feedLoop_eq_run (fuel : ℕ) (cx : Ctx) (n : ℕ) (data : Bytes) (hfuel : data.length < fuel) :
    feedLoop choose fuel cx n data =
      ((run (byteStep choose) (cx, 0) data).1.1,
        resultsAt n (run (byteStep choose) (cx, 0) data).2) := by
  induction fuel generalizing cx n data with
  | zero => omega
  | succ fuel ih =>
      -- inside one call `port` has some value `p`
      have hcall : ∀ (data : Bytes) (cx : Ctx) (p : UInt8) (n : ℕ), data.length ≤ fuel →
          continueWith choose fuel n data.length (parseLoop cx p data) =
            ((run (byteStep choose) (cx, p) data).1.1,
              resultsAt n (run (byteStep choose) (cx, p) data).2) := by
        intro data
        induction data with
        | nil => exact fun cx p n _ => rfl
        | cons c cs ihc =>
            intro cx p n hle
            rw [List.length_cons] at hle
            rcases h : parseByte cx p c with ⟨cx', p', _ | r⟩
            · have hrest := length_parseLoop_rest cx' p' cs
              have hn : n + (cs.length + 1 - (parseLoop cx' p' cs).2.1.length) =
                  n + 1 + (cs.length - (parseLoop cx' p' cs).2.1.length) := by omega
              have hnext := ihc cx' p' (n + 1) (by omega)
              rw [run_cons, byteStep_none h, parseLoop_none h, resultsAt, ← hnext]
              simp only [continueWith, List.length_cons, hn]
            · have hr : r ≠ .needMore := by
                have hne := parseByte_ne_needMore cx p c
                rw [h] at hne
                exact fun he => hne (congrArg some he)
              have hn : n + (cs.length + 1 - cs.length) = n + 1 := by omega
              rw [run_cons, byteStep_some h, parseLoop_some h, resultsAt]
              simp only [continueWith, hr, if_false, List.length_cons, hn]
              rw [ih _ _ _ (by omega)]
      rw [feedLoop_succ]
      exact hcall data cx 0 n (by omega)

theorem feedSegment_eq_run (cx : Ctx) (n : ℕ) (seg : Bytes) :
    feedSegment choose (cx, n) seg =
      (((run (byteStep choose) (cx, 0) seg).1.1, n + seg.length),
        resultsAt n (run (byteStep choose) (cx, 0) seg).2) := by
  rw [feedSegment, feedLoop_eq_run choose _ cx n seg (Nat.lt_succ_self _)]

/-! ## The port bytes -/

variable {choose}

/-- The context after the second port byte `c`, when `port[0]` is `p`. -/
def portRead (cx : Ctx) (p c : UInt8) : Ctx :=
  { cx with dport := p.toNat * 256 + c.toNat, stage := .dead }

theorem byteStep_dport0 {cx : Ctx} (h : cx.stage = .reqDport0) (p c : UInt8) :
    byteStep choose (cx, p) c = (({ cx with stage := .reqDport1 }, c), none) :=
  byteStep_none (by simp only [parseByte, h])

theorem byteStep_dport1 {cx : Ctx} (h : cx.stage = .reqDport1) (p c : UInt8) :
    byteStep choose (cx, p) c = ((portRead cx p c, 0), some .execCmd) := by
  have hparse : parseByte cx p c = (portRead cx p c, p, some .execCmd) := by
    simp only [parseByte, h, portRead]
  rw [byteStep_some hparse, afterResult, if_neg (by decide)]

variable (choose) in
/-- In the other stages `port` is passed on unread, and the second port byte is not what comes
next. -/
theorem byteStep_of_ne {cx : Ctx} (h0 : cx.stage ≠ .reqDport0) (h1 : cx.stage ≠ .reqDport1)
    (c : UInt8) :
    (∃ cx', cx'.stage ≠ .reqDport1 ∧ ∀ q, byteStep choose (cx, q) c = ((cx', q), none)) ∨
      ∃ cx' r, cx'.stage ≠ .reqDport1 ∧ ∀ q, byteStep choose (cx, q) c = ((cx', 0), some r) := by
  have hstage := (stageByte_spec cx c).2 h1
  cases hr : (stageByte cx c).2 with
  | none =>
      refine Or.inl ⟨(stageByte cx c).1, hstage, fun q => ?_⟩
      exact byteStep_none (by rw [parseByte_of_ne h0 h1, hr])
  | some r =>
      refine Or.inr ⟨afterResult choose (stageByte cx c).1 r, r, ?_, fun q => ?_⟩
      · unfold afterResult selectAuth
        split_ifs
        · split <;> simp [hstage]
        · exact hstage
      · exact byteStep_some (by rw [parseByte_of_ne h0 h1, hr])

/-- Two states that differ at most in a `port[0]` that is not read any more. -/
def SamePort (s t : Ctx × UInt8) : Prop := s.1 = t.1 ∧ (s.1.stage = .reqDport1 → s.2 = t.2)

theorem SamePort.step {s t : Ctx × UInt8} (h : SamePort s t) (c : UInt8) :
    SamePort (byteStep choose s c).1 (byteStep choose t c).1 ∧
      (byteStep choose s c).2 = (byteStep choose t c).2 := by
  obtain ⟨cx, p⟩ := s
  obtain ⟨cx', q⟩ := t
  obtain ⟨rfl, hport⟩ : cx = cx' ∧ (cx.stage = .reqDport1 → p = q) := h
  by_cases h1 : cx.stage = .reqDport1
  · obtain rfl := hport h1
    exact ⟨⟨rfl, fun _ => rfl⟩, rfl⟩
  · by_cases h0 : cx.stage = .reqDport0
    · rw [byteStep_dport0 h0, byteStep_dport0 h0]
      exact ⟨⟨rfl, fun _ => rfl⟩, rfl⟩
    · rcases byteStep_of_ne choose h0 h1 c with ⟨cx', hne, hstep⟩ | ⟨cx', r, hne, hstep⟩
      · rw [hstep, hstep]
        exact ⟨⟨rfl, fun h => absurd h hne⟩, rfl⟩
      · rw [hstep, hstep]
        exact ⟨⟨rfl, fun _ => rfl⟩, rfl⟩

theorem samePort_run {s t : Ctx × UInt8} (h : SamePort s t) (bytes : Bytes) :
    SamePort (run (byteStep choose) s bytes).1 (run (byteStep choose) t bytes).1 ∧
      (run (byteStep choose) s bytes).2 = (run (byteStep choose) t bytes).2 := by
  have hstep : ∀ s t, ∀ c ∈ bytes, SamePort s t →
      SamePort (byteStep choose s c).1 (byteStep choose t c).1 ∧
        (byteStep choose s c).2 = id (byteStep choose t c).2 :=
    fun s t c _ hst => hst.step c
  simpa using run_sim SamePort id hstep h

/-- When the second port byte is next, `port[0]` is the byte just read. -/
theorem byteStep_port (s : Ctx × UInt8) (c : UInt8)
    (h : (byteStep choose s c).1.1.stage = .reqDport1) : (byteStep choose s c).1.2 = c := by
  obtain ⟨cx, p⟩ := s
  by_cases h1 : cx.stage = .reqDport1
  · rw [byteStep_dport1 h1] at h
    simp [portRead] at h
  · by_cases h0 : cx.stage = .reqDport0
    · rw [byteStep_dport0 h0]
    · rcases byteStep_of_ne choose h0 h1 c with ⟨cx', hne, hstep⟩ | ⟨cx', r, hne, hstep⟩
      · rw [hstep] at h
        exact absurd h hne
      · rw [hstep] at h
        exact absurd h hne

theorem byteStep_dead {cx : Ctx} (h : cx.stage = .dead) (p c : UInt8) :
    byteStep choose (cx, p) c = ((cx, p), none) := by
  refine byteStep_none ?_
  simp only [parseByte, stageByte, h]

/-- A dead context stays as it is. -/
theorem run_byteStep_dead {cx : Ctx} (h : cx.stage = .dead) (p : UInt8) (bytes : Bytes) :
    (run (byteStep choose) (cx, p) bytes).1.1 = cx := by
  induction bytes with
  | nil => rfl
  | cons c cs ih => rw [run_cons, byteStep_dead h, ih]

theorem run_byteStep_dport1 {cx : Ctx} (h : cx.stage = .reqDport1) (p c : UInt8) (bytes : Bytes) :
    (run (byteStep choose) (cx, p) (c :: bytes)).1.1 = portRead cx p c := by
  rw [run_cons, byteStep_dport1 h]
  exact run_byteStep_dead rfl 0 bytes

theorem run_feedSegment_dead {cx : Ctx} (h : cx.stage = .dead) (n : ℕ) (segs : List Bytes) :
    (run (feedSegment choose) (cx, n) segs).1.1 = cx := by
  induction segs generalizing n with
  | nil => rfl
  | cons seg segs ih =>
      rw [run_cons, feedSegment_eq_run, run_byteStep_dead h]
      exact ih _

/-- Segments that start at the second port byte: `port[0]` is lost. -/
theorem run_feedSegment_dport1 {cx : Ctx} (h : cx.stage = .reqDport1) (n : ℕ) {c : UInt8}
    {bytes : Bytes} {segs : List Bytes} (hsegs : segs.flatten = c :: bytes) :
    (run (feedSegment choose) (cx, n) segs).1.1 = portRead cx 0 c := by
  induction segs generalizing n with
  | nil => cases hsegs
  | cons seg segs ih =>
      rw [run_cons, feedSegment_eq_run]
      cases seg with
      | nil => exact ih _ hsegs
      | cons c' cs =>
          rw [List.flatten_cons, List.cons_append, List.cons.injEq] at hsegs
          rw [run_byteStep_dport1 h, hsegs.1]
          exact run_feedSegment_dead rfl _ _

/-! ## Segments against the whole sequence -/

/-- The fields that the parser reports in the end. -/
def fields (cx : Ctx) :
    Option Cmd × Option Atyp × Vector UInt8 257 × ℕ × Vector UInt8 257 × Vector UInt8 257 :=
  (cx.cmd, cx.atyp, cx.daddr, cx.dport, cx.username, cx.password)

/-- Seen from the state `s` of the whole sequence, no segment that is followed by another byte ends
between the port bytes when the first one is not zero. -/
def Intact (choose : BitVec 32 → AuthMethod) : Ctx × UInt8 → List Bytes → Prop
  | _, [] => True
  | s, seg :: segs =>
      (s.1.stage = .reqDport1 → (seg :: segs).flatten ≠ [] → s.2 = 0) ∧
        Intact choose (run (byteStep choose) s seg).1 segs

/-- The segments give what the whole sequence gives from the state `(cx, p)`. -/
def Agrees (choose : BitVec 32 → AuthMethod) (cx : Ctx) (p : UInt8) (n : ℕ) (segs : List Bytes) :
    Prop :=
  (run (feedSegment choose) (cx, n) segs).2.flatten =
      resultsAt n (run (byteStep choose) (cx, p) segs.flatten).2 ∧
    fields (run (feedSegment choose) (cx, n) segs).1.1 =
      fields (run (byteStep choose) (cx, p) segs.flatten).1.1

/-- A segment whose first byte finds `port[0]` as it should be. -/
theorem agrees_cons {cx : Ctx} {p : UInt8} {seg : Bytes}
    (h : SamePort (cx, 0) (cx, p) ∨ seg = []) (n : ℕ) (segs : List Bytes) :
    Agrees choose cx p n (seg :: segs) ↔
      Agrees choose (run (byteStep choose) (cx, p) seg).1.1 (run (byteStep choose) (cx, p) seg).1.2
        (n + seg.length) segs := by
  have hsame : (run (byteStep choose) (cx, 0) seg).1.1 = (run (byteStep choose) (cx, p) seg).1.1 ∧
      (run (byteStep choose) (cx, 0) seg).2 = (run (byteStep choose) (cx, p) seg).2 := by
    rcases h with h | rfl
    · obtain ⟨hs, hout⟩ := samePort_run h seg
      exact ⟨hs.1, hout⟩
    · exact ⟨rfl, rfl⟩
  have hlen := run_snd_length (byteStep choose) (cx, p) seg
  simp only [Agrees, run_cons, feedSegment_eq_run, List.flatten_cons, run_append, resultsAt_append,
    hsame.1, hsame.2, hlen, List.append_cancel_left_eq]

theorem agrees_iff_intact (segs : List Bytes) (cx : Ctx) (p : UInt8) (n : ℕ) :
    Agrees choose cx p n segs ↔ Intact choose (cx, p) segs := by
  induction segs generalizing cx p n with
  | nil => exact ⟨fun _ => trivial, fun _ => ⟨rfl, rfl⟩⟩
  | cons seg segs ih =>
      by_cases hgood : cx.stage = .reqDport1 → (seg :: segs).flatten ≠ [] → p = 0
      · have hcase : SamePort (cx, 0) (cx, p) ∨ seg = [] := by
          by_cases hseg : seg = []
          · exact Or.inr hseg
          · refine Or.inl ⟨rfl, fun h1 => (hgood h1 ?_).symm⟩
            simp [hseg]
        rw [agrees_cons hcase, ih]
        exact ⟨fun h => ⟨hgood, h⟩, fun h => h.2⟩
      · -- the high byte of the port is lost
        simp only [Classical.not_imp] at hgood
        obtain ⟨h1, hne, hp⟩ := hgood
        obtain ⟨c, bytes, hflat⟩ := List.exists_cons_of_ne_nil hne
        constructor
        · intro h
          have hfields := h.2
          rw [run_feedSegment_dport1 h1 n hflat, hflat, run_byteStep_dport1 h1] at hfields
          simp only [fields, portRead, Prod.mk.injEq] at hfields
          have hport := hfields.2.2.2.1
          refine absurd (UInt8.toNat_inj.1 ?_) hp
          rw [UInt8.toNat_zero] at hport ⊢
          omega
        · intro h
          exact absurd (h.1 h1 hne) hp

theorem intact_iff (segs : List Bytes) (s : Ctx × UInt8) :
    Intact choose s segs ↔ ∀ pre post, segs = pre ++ post → post.flatten ≠ [] →
      (run (byteStep choose) s pre.flatten).1.1.stage = .reqDport1 →
        (run (byteStep choose) s pre.flatten).1.2 = 0 := by
  induction segs generalizing s with
  | nil =>
      refine ⟨fun _ pre post hsplit hpost => ?_, fun _ => trivial⟩
      have hnil : post = [] := (List.append_eq_nil_iff.1 hsplit.symm).2
      exact absurd (congrArg List.flatten hnil) hpost
  | cons seg segs ih =>
      rw [Intact, ih]
      constructor
      · rintro ⟨hhead, htail⟩ pre post hsplit hpost
        cases pre with
        | nil =>
            rw [List.nil_append] at hsplit
            subst hsplit
            exact fun h1 => hhead h1 hpost
        | cons seg' pre =>
            rw [List.cons_append, List.cons.injEq] at hsplit
            obtain ⟨rfl, hsplit⟩ := hsplit
            rw [List.flatten_cons, run_append]
            exact htail pre post hsplit hpost
      · intro h
        refine ⟨fun h1 hne => h [] (seg :: segs) rfl hne h1, fun pre post hsplit hpost => ?_⟩
        have hcut := h (seg :: pre) post (by rw [hsplit, List.cons_append]) hpost
        rw [List.flatten_cons, run_append] at hcut
        exact hcut

variable (choose)

theorem feedAll_whole (bytes : Bytes) :
    feedAll choose [bytes] =
      ((run (byteStep choose) (ctxCreate, 0) bytes).1.1,
        resultsAt 0 (run (byteStep choose) (ctxCreate, 0) bytes).2) := by
  simp [feedAll, run_cons, feedSegment_eq_run]

/-- The stage in which the parser is when all of `bytes` was given to it at once. -/
def stageAfter (bytes : Bytes) : Stage := (feedAll choose [bytes]).1.stage

/-- When the second port byte is next, `port[0]` is the last byte given. -/
theorem port_eq_last {bytes : Bytes}
    (h : (run (byteStep choose) (ctxCreate, 0) bytes).1.1.stage = .reqDport1) :
    bytes.getLast? = some (run (byteStep choose) (ctxCreate, 0) bytes).1.2 := by
  rcases List.eq_nil_or_concat bytes with rfl | ⟨pre, c, rfl⟩
  · cases h
  · rw [List.concat_eq_append, run_append] at h ⊢
    rw [List.getLast?_append, List.getLast?_singleton]
    exact congrArg some (byteStep_port _ c h).symm

/-- Segments are parsed like the whole sequence, with the same results after the same numbers of
bytes and the same fields in the end, exactly when no segment that is followed by another byte ends
between the two port bytes, unless the first of them is zero. -/
theorem segmentation_iff (segs : List Bytes) :
    ((feedAll choose segs).2 = (feedAll choose [segs.flatten]).2 ∧
        fields (feedAll choose segs).1 = fields (feedAll choose [segs.flatten]).1) ↔
      ∀ pre post, segs = pre ++ post → post.flatten ≠ [] →
        stageAfter choose pre.flatten = .reqDport1 → pre.flatten.getLast? = some 0 := by
  have hagrees : ((feedAll choose segs).2 = (feedAll choose [segs.flatten]).2 ∧
      fields (feedAll choose segs).1 = fields (feedAll choose [segs.flatten]).1) ↔
      Agrees choose ctxCreate 0 0 segs := by
    rw [feedAll_whole]
    exact Iff.rfl
  rw [hagrees, agrees_iff_intact, intact_iff]
  simp only [stageAfter, feedAll_whole]
  constructor
  · intro h pre post hsplit hpost h1
    rw [port_eq_last choose h1, h pre post hsplit hpost h1]
  · intro h pre post hsplit hpost h1
    have hlast := port_eq_last choose h1
    rw [h pre post hsplit hpost h1, Option.some.injEq] at hlast
    exact hlast.symm

end Feeding

/-! ## A sample connection -/

/-- No authentication, then CONNECT to 1.2.3.4, port 443. -/
def sampleRequest : Bytes := [5, 1, 0, 5, 1, 0, 1, 1, 2, 3, 4, 1, 0xbb]

/-- The sample cut between the two bytes of the port: port 187 is read instead of 443. -/
theorem segmentation_loses_port :
    let segs := [sampleRequest.take 12, sampleRequest.drop 12]
    ¬ ((feedAll (fun _ => .none) segs).2 = (feedAll (fun _ => .none) [segs.flatten]).2 ∧
        fields (feedAll (fun _ => .none) segs).1 =
          fields (feedAll (fun _ => .none) [segs.flatten]).1) := by
  intro segs
  rintro ⟨-, h⟩
  have hport : (feedAll (fun _ => .none) segs).1.dport =
      (feedAll (fun _ => .none) [segs.flatten]).1.dport := by
    simp only [fields, Prod.mk.injEq] at h
    exact h.2.2.2.1
  have hne : (feedAll (fun _ => .none) segs).1.dport ≠
      (feedAll (fun _ => .none) [segs.flatten]).1.dport := by decide
  exact hne hport

end S5
end SsrNative
