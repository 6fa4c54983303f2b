import SsrNative.CRegion
import SsrNative.Obfs.HttpSimple

/-!
# HttpBounds — the arrays behind the parsed request

`http_simple_server_decode` hands the header of a request to two functions that fill arrays on the stack:
`get_data_from_http_header` decodes a run of `%xx` into `SSR_BUFF_SIZE` bytes, and
`get_host_from_http_header` copies what stands behind `Host: ` into 128 bytes.  Neither looks at the size.
Before that `strstr` searches the received bytes for the empty line, and nothing puts a NUL behind them.
`header_parsing_iff` says for which requests all three stay in their arrays.
-/

namespace SsrNative
namespace Obfs
namespace HttpSimple

open Bytes
open Lib.Demand
open Lib.Demand.Demanding
open Lib.Search

/-! ## The functions -/

/-- The loop of `get_data_from_http_header` from the `'%'` at `i` on; `out` is what `tmp` holds in front of
`target`.  The loop may go on behind the header for ever, so `fuel` bounds it. -/
def decodeHeadIn (r : Region UInt8) : ℕ → ℕ → Bytes → Demanding Bytes
  | 0, _, out => return out
  | fuel + 1, i, out => do
      let hi ← r.read (i + 1)
      let lo ← r.read (i + 2)
      demand (out.length + 1) SSR_BUFF_SIZE
      let out := out ++ [fromHex hi <<< 4 ||| fromHex lo]
      let next ← r.read (i + 3)
      if next = percent then decodeHeadIn r fuel (i + 3) out else return out

/-- `get_data_from_http_header`. -/
def getDataFromHttpHeaderIn (behind : ℕ → UInt8) (m : Bytes) : Demanding Bytes :=
  match strstr m [percent] with
  | some i => decodeHeadIn (cRegion behind m) m.length i []
  | none => return []

def hoststr : Bytes := ascii "Host: "

/-- `get_host_from_http_header`: what it leaves in `host_port`. -/
def getHostFromHttpHeaderIn (m hostPort : Bytes) : Demanding Bytes :=
  match strstr m hoststr with
  | none => return hostPort
  | some i =>
      let iter := i + hoststr.length
      match strstr (m.drop iter) crlf with
      | none => return hostPort
      | some len => do
          demand len hostPort.length
          demand (len + 1) hostPort.length
          return writeAt (writeAt hostPort 0 (window m iter len)) len [0]

/-- The block of `in_buf`: the received bytes, and the zeroed rest of the `SSR_BUFF_SIZE` bytes that
`recv_buffer` was created with.  With that many bytes or more nothing is left of it. -/
def inBlock (behind : ℕ → UInt8) (inBuf : Bytes) : Region UInt8 where
  cells := inBuf ++ List.replicate (SSR_BUFF_SIZE - inBuf.length) 0
  beyond := behind

/-- `http_simple_server_decode`; `behind` is what stands in memory behind the received bytes. -/
def serverDecodeIn (behind : ℕ → UInt8) (l : LocalData) (buf : Bytes) :
    Demanding (LocalData × (Bytes × Bool)) :=
  if l.hasRecvHeader = true then return (l, (buf, true))
  else
    let inBuf := l.recvBuffer ++ buf
    let l := { l with hasRecvHeader := true, recvBuffer := inBuf }
    if inBuf.length ≤ 10 then return (l, ([], true))
    else if matchHttpHeader inBuf = false then return ({ l with recvBuffer := [] }, ([], true))
    else if 65536 < inBuf.length then return ({ l with recvBuffer := [] }, ([], false))
    else do
      let block := inBlock behind inBuf
      let found ← strstrIn block crlfcrlf (block.cells.length + 1) 0
      match found with
      | none => return (l, ([], true))
      | some pos =>
          let header := inBuf.set pos 0
          let data ← getDataFromHttpHeaderIn behind header
          let _hostPort ← getHostFromHttpHeaderIn header (List.replicate 128 0)
          let ret := data ++ inBuf.drop (pos + 4)
          return (l, (if ret.length < 13 then buf else ret, true))

/-- A call that leaves its arrays has no result. -/
def serverDecodeChecked (behind : ℕ → UInt8) (l : LocalData) (buf : Bytes) :
    Option (LocalData × (Bytes × Bool)) :=
  if (serverDecodeIn behind l buf).Met then some (serverDecodeIn behind l buf).value else none

/-! ## What fits -/

/-- A request that is looked at. -/
structure Accepted (l : LocalData) (inBuf : Bytes) : Prop where
  first : l.hasRecvHeader = false
  long : 10 < inBuf.length
  verb : matchHttpHeader inBuf = true
  size : inBuf.length ≤ 65536

/-- Behind the received bytes there is room for a NUL, or the search for the empty line ends among them. -/
def SearchEnds (inBuf : Bytes) : Prop :=
  inBuf.length < SSR_BUFF_SIZE ∨ 0 ∈ inBuf ∨ findSub crlfcrlf inBuf ≠ none

/-- The header of a request: what stands in front of the first empty line. -/
def requestHead (inBuf : Bytes) : Option Bytes := (strstr inBuf crlfcrlf).map fun pos => inBuf.take pos

/-- `l` begins with `n` groups of three bytes that start with `'%'`, and not with one more `'%'`. -/
structure Groups (n : ℕ) (l : Bytes) : Prop where
  whole : 3 * n ≤ l.length
  start : ∀ k < n, byteAt l (3 * k) = percent
  stop : byteAt l (3 * n) ≠ percent

/-- From the first `'%'` on there are whole groups, as many as `tmp` has room for. -/
def EncodedFits (h : Bytes) : Prop :=
  ∀ i, findSub [percent] h = some i → ∃ n ≤ SSR_BUFF_SIZE, Groups n (h.drop i)

/-- The line behind the first `Host: ` leaves room for the terminator in 128 bytes. -/
def HostFits (h : Bytes) : Prop :=
  ∀ i, findSub hoststr h = some i → ∀ len, findSub crlf (h.drop (i + hoststr.length)) = some len → len ≤ 127

/-! ## The encoded data -/

theorem groups_zero {l : Bytes} : Groups 0 l ↔ byteAt l 0 ≠ percent :=
  ⟨fun h => h.stop, fun h => ⟨Nat.zero_le _, nofun, h⟩⟩

/-- One group in front of the others. -/
theorem groups_succ {n : ℕ} {l : Bytes} (hstart : byteAt l 0 = percent) (hlong : 3 ≤ l.length) :
    Groups (n + 1) l ↔ Groups n (l.drop 3) := by
  have hshift (k : ℕ) : byteAt (l.drop 3) (3 * k) = byteAt l (3 * (k + 1)) := by
    rw [byteAt_drop, Nat.mul_succ, Nat.add_comm]
  constructor
  · rintro ⟨hwhole, hstarts, hstop⟩
    refine ⟨?_, fun k hk => ?_, ?_⟩
    · rw [List.length_drop]
      omega
    · rw [hshift]
      exact hstarts (k + 1) (Nat.succ_lt_succ hk)
    · rw [hshift]
      exact hstop
  · rintro ⟨hwhole, hstarts, hstop⟩
    rw [List.length_drop] at hwhole
    refine ⟨by omega, fun k hk => ?_, ?_⟩
    · cases k with
      | zero => exact hstart
      | succ k =>
          rw [← hshift]
          exact hstarts k (Nat.lt_of_succ_lt_succ hk)
    · rw [← hshift]
      exact hstop

section Region

variable {behind : ℕ → UInt8} {m : Bytes}

/-- The loop stays in the header and in `tmp` when whole groups follow, and not too many. -/
theorem decodeHeadIn_met_iff {fuel i : ℕ} (out : Bytes) (hstart : byteAt (cString m) i = percent)
    (hfuel : (cString m).length < i + 3 * fuel) :
    (decodeHeadIn (cRegion behind m) fuel i out).Met ↔
      ∃ n, out.length + n ≤ SSR_BUFF_SIZE ∧ Groups n ((cString m).drop i) := by
  have hfirst : byteAt ((cString m).drop i) 0 = percent := (byteAt_drop _ _ _).trans hstart
  induction fuel generalizing i out with
  | zero =>
      have hnone : byteAt (cString m) i = 0 := by
        have hout : (cString m).length ≤ i := hfuel.le
        rw [byteAt, List.getD_eq_getElem?_getD, List.getElem?_eq_none hout, Option.getD_none]
      rw [hnone] at hstart
      exact absurd hstart (by decide)
  | succ fuel ih =>
      rw [decodeHeadIn]
      by_cases hlong : i + 3 ≤ (cString m).length
      swap
      · -- the last group is cut off
        refine iff_of_false (fun hmet => ?_) ?_
        · simp only [met_bind, cRegion_met_read] at hmet
          exact hlong hmet.2.2.2.1
        · rintro ⟨n, -, hgroups⟩
          cases n with
          | zero => exact groups_zero.1 hgroups hfirst
          | succ n =>
              have hwhole := hgroups.whole
              rw [List.length_drop] at hwhole
              omega
      have hlong' : 3 ≤ ((cString m).drop i).length := by
        rw [List.length_drop]
        omega
      have hhi := cRegion_read behind (m := m) (Nat.le_trans (by omega) hlong : i + 1 ≤ _)
      have hlo := cRegion_read behind (m := m) (Nat.le_trans (by omega) hlong : i + 2 ≤ _)
      have hnext := cRegion_read behind (m := m) hlong
      simp only [hhi.met_bind, hlo.met_bind, met_bind, met_demand, hnext.met_bind]
      by_cases hmore : byteAt (cString m) (i + 3) = percent
      · have hfirst' : byteAt ((cString m).drop (i + 3)) 0 = percent := (byteAt_drop _ _ _).trans hmore
        simp only [hmore, if_true, ih _ hmore (by omega) hfirst', List.length_append, List.length_singleton]
        constructor
        · rintro ⟨-, n, hle, hgroups⟩
          refine ⟨n + 1, by omega, (groups_succ hfirst hlong').2 ?_⟩
          rwa [List.drop_drop]
        · rintro ⟨n, hle, hgroups⟩
          cases n with
          | zero => exact absurd hfirst (groups_zero.1 hgroups)
          | succ n =>
              rw [groups_succ hfirst hlong', List.drop_drop] at hgroups
              exact ⟨by omega, n, by omega, hgroups⟩
      · have hstop : byteAt (((cString m).drop i).drop 3) 0 ≠ percent := by
          rwa [List.drop_drop, byteAt_drop]
        simp only [hmore, if_false, met_pure, and_true]
        constructor
        · intro hle
          exact ⟨1, hle, (groups_succ hfirst hlong').2 (groups_zero.2 hstop)⟩
        · rintro ⟨n, hle, hgroups⟩
          cases n with
          | zero => exact absurd hfirst (groups_zero.1 hgroups)
          | succ n => omega

/-- The first `'%'` that is found is one. -/
theorem byteAt_of_findSub {l : Bytes} {i : ℕ} (h : findSub [percent] l = some i) : byteAt l i = percent := by
  rcases prefix_drop_of_findSub h with ⟨rest, hrest⟩
  rw [← Nat.add_zero i, ← byteAt_drop, ← hrest]
  rfl

theorem getDataFromHttpHeaderIn_met_iff :
    (getDataFromHttpHeaderIn behind m).Met ↔ EncodedFits (cString m) := by
  unfold getDataFromHttpHeaderIn EncodedFits strstr
  cases hfind : findSub [percent] (cString m) with
  | none => exact iff_of_true (met_pure _) nofun
  | some i =>
      have hinside : i + 1 ≤ (cString m).length := findSub_le hfind (by simp)
      have hshort : (cString m).length ≤ m.length := (cString_initial m).length_le
      have hfuel : (cString m).length < i + 3 * m.length := by omega
      simp only [Option.some.injEq, forall_eq', decodeHeadIn_met_iff [] (byteAt_of_findSub hfind) hfuel,
        List.length_nil, Nat.zero_add]

/-- What the loop decodes when it stays in the header. -/
theorem decodeHeadIn_value {fuel i : ℕ} {out : Bytes} (hm : 0 ∈ m)
    (hmet : (decodeHeadIn (cRegion behind m) fuel i out).Met) :
    (decodeHeadIn (cRegion behind m) fuel i out).value = out ++ decodeHead m fuel i := by
  have hread {j : ℕ} (h : ((cRegion behind m).read j).Met) : ((cRegion behind m).read j).Yields (byteAt m j) := by
    rw [← byteAt_cString hm ((cRegion_met_read j).1 h)]
    exact cRegion_read behind ((cRegion_met_read j).1 h)
  induction fuel generalizing i out with
  | zero => exact (List.append_nil out).symm
  | succ fuel ih =>
      rw [decodeHeadIn] at hmet ⊢
      have hhi := hread ((met_bind _ _).1 hmet).1
      rw [hhi.met_bind] at hmet
      rw [hhi.value_bind]
      have hlo := hread ((met_bind _ _).1 hmet).1
      rw [hlo.met_bind, met_bind] at hmet
      rw [hlo.value_bind, value_bind]
      have hnext := hread ((met_bind _ _).1 hmet.2).1
      rw [hnext.value_bind, decodeHead]
      rw [hnext.met_bind] at hmet
      by_cases hmore : byteAt m (i + 3) = percent
      · simp only [hmore, if_true] at hmet ⊢
        rw [ih hmet.2, List.append_assoc]
        rfl
      · simp only [hmore, if_false]
        rfl

theorem getDataFromHttpHeaderIn_value (hm : 0 ∈ m) (hmet : (getDataFromHttpHeaderIn behind m).Met) :
    (getDataFromHttpHeaderIn behind m).value = getDataFromHttpHeader m := by
  unfold getDataFromHttpHeaderIn at hmet ⊢
  unfold getDataFromHttpHeader
  cases hfind : strstr m [percent] with
  | none => rfl
  | some i =>
      simp only [hfind] at hmet
      exact decodeHeadIn_value hm hmet

end Region

/-! ## The host -/

theorem getHostFromHttpHeaderIn_met_iff (m : Bytes) {hostPort : Bytes} (hlen : hostPort.length = 128) :
    (getHostFromHttpHeaderIn m hostPort).Met ↔ HostFits (cString m) := by
  unfold getHostFromHttpHeaderIn HostFits strstr
  cases hfind : findSub hoststr (cString m) with
  | none => exact iff_of_true (met_pure _) (by simp)
  | some i =>
      have hinside := findSub_le hfind (by decide)
      simp only [Option.some.injEq, forall_eq', cString_drop m hinside]
      cases hend : findSub crlf ((cString m).drop (i + hoststr.length)) with
      | none => exact iff_of_true (met_pure _) (by simp)
      | some len =>
          simp only [met_bind, met_demand, met_pure, and_true, Option.some.injEq, forall_eq', hlen]
          exact ⟨fun h => Nat.le_of_succ_le_succ h.2, fun h => ⟨Nat.le_succ_of_le h, Nat.succ_le_succ h⟩⟩

/-! ## The request -/

/-- The header as it is stored when the first empty line has been found. -/
theorem cString_header {inBuf : Bytes} {pos : ℕ} (h : strstr inBuf crlfcrlf = some pos) :
    cString (inBuf.set pos 0) = inBuf.take pos ∧ 0 ∈ inBuf.set pos 0 := by
  have hle : pos + 4 ≤ (cString inBuf).length := findSub_le h (by decide)
  have hshort : (cString inBuf).length ≤ inBuf.length := (cString_initial inBuf).length_le
  have hinside : pos < inBuf.length := by omega
  exact ⟨cString_set_zero (not_mem_take inBuf (by omega)) hinside, List.mem_set hinside 0⟩

theorem cString_inBuf (inBuf : Bytes) (n : ℕ) : cString (inBuf ++ List.replicate n 0) = cString inBuf := by
  by_cases hzero : 0 ∈ inBuf
  · obtain ⟨rest, hrest⟩ := eq_cString_append hzero
    have hterm (z : Bytes) : cString (cString inBuf ++ 0 :: z) = cString inBuf := by
      rw [cString_append (not_mem_cString inBuf)]
      exact List.append_nil _
    conv_lhs => rw [hrest, List.append_assoc, List.cons_append, hterm]
  · rw [cString_append hzero, cString_of_not_mem hzero]
    cases n with
    | zero => exact List.append_nil _
    | succ n => exact List.append_nil _

variable (behind : ℕ → UInt8)

/-- The search for the empty line, in its block. -/
theorem search_met_iff (inBuf : Bytes) :
    (strstrIn (inBlock behind inBuf) crlfcrlf ((inBlock behind inBuf).cells.length + 1) 0).Met ↔
      SearchEnds inBuf := by
  rw [strstrIn_met_iff (by decide) (by decide), SearchEnds]
  by_cases hroom : inBuf.length < SSR_BUFF_SIZE
  · have hpad : SSR_BUFF_SIZE - inBuf.length ≠ 0 := by omega
    exact iff_of_true (Or.inl (List.mem_append_right _ (List.mem_replicate.2 ⟨hpad, rfl⟩))) (Or.inl hroom)
  · have hpad : SSR_BUFF_SIZE - inBuf.length = 0 := by omega
    simp only [inBlock, hpad, List.replicate_zero, List.append_nil, hroom, false_or]

theorem search_yields {inBuf : Bytes} (h : SearchEnds inBuf) :
    (strstrIn (inBlock behind inBuf) crlfcrlf ((inBlock behind inBuf).cells.length + 1) 0).Yields
      (strstr inBuf crlfcrlf) := by
  have hmet := (search_met_iff behind inBuf).2 h
  have hends := (strstrIn_met_iff (by decide) (by decide)).1 hmet
  have hyields := strstrIn_yields (by decide) (by decide) List.drop_zero (Nat.lt_succ_self _) hends
  have hvalue : (findSub crlfcrlf (cString (inBlock behind inBuf).cells)).map (0 + ·) =
      strstr inBuf crlfcrlf := by
    simp only [Nat.zero_add, Option.map_id', inBlock, cString_inBuf, strstr]
  rwa [hvalue] at hyields

variable (l : LocalData) (buf : Bytes)

/-- What is returned when all bounds hold. -/
theorem serverDecodeIn_value (hmet : (serverDecodeIn behind l buf).Met) :
    (serverDecodeIn behind l buf).value = serverDecode l buf := by
  unfold serverDecodeIn at hmet ⊢
  unfold serverDecode
  by_cases hrecv : l.hasRecvHeader = true
  · simp only [hrecv, if_true, value_pure]
  by_cases hshort : (l.recvBuffer ++ buf).length ≤ 10
  · simp only [hrecv, Bool.false_eq_true, if_false, hshort, if_true, value_pure]
  by_cases hmatch : matchHttpHeader (l.recvBuffer ++ buf) = false
  · simp only [hrecv, Bool.false_eq_true, if_false, hshort, hmatch, if_true, value_pure]
  by_cases hlarge : 65536 < (l.recvBuffer ++ buf).length
  · simp only [hrecv, Bool.false_eq_true, if_false, hshort, hmatch, Bool.true_eq_false, hlarge, if_true,
      value_pure]
  simp only [hrecv, Bool.false_eq_true, if_false, hshort, hmatch, Bool.true_eq_false, hlarge] at hmet ⊢
  have hsearch := search_yields behind ((search_met_iff behind _).1 ((met_bind _ _).1 hmet).1)
  rw [hsearch.met_bind] at hmet
  rw [hsearch.value_bind]
  cases hfind : strstr (l.recvBuffer ++ buf) crlfcrlf with
  | none => rfl
  | some pos =>
      simp only [hfind] at hmet ⊢
      have hdata := getDataFromHttpHeaderIn_value (cString_header hfind).2 ((met_bind _ _).1 hmet).1
      simp only [value_bind, hdata, value_pure]

theorem serverDecodeChecked_eq_some_iff {r : LocalData × (Bytes × Bool)} :
    serverDecodeChecked behind l buf = some r ↔
      (serverDecodeIn behind l buf).Met ∧ serverDecode l buf = r := by
  rw [serverDecodeChecked]
  split
  · rename_i hmet
    rw [Option.some.injEq, serverDecodeIn_value behind l buf hmet, and_iff_right hmet]
  · rename_i hmet
    exact iff_of_false nofun fun h => hmet h.1

/-- The parsing of a request stays in its buffers exactly when the search for the empty line ends, the encoded
data consists of whole groups that fit into `tmp`, and the host leaves room for its terminator. -/
theorem header_parsing_iff :
    (serverDecodeIn behind l buf).Met ↔
      (Accepted l (l.recvBuffer ++ buf) → SearchEnds (l.recvBuffer ++ buf) ∧
        ∀ h, requestHead (l.recvBuffer ++ buf) = some h → EncodedFits h ∧ HostFits h) := by
  unfold serverDecodeIn
  by_cases hrecv : l.hasRecvHeader = true
  · simp only [hrecv, if_true, met_pure, true_iff]
    intro hacc
    rw [hacc.first] at hrecv
    cases hrecv
  by_cases hshort : (l.recvBuffer ++ buf).length ≤ 10
  · simp only [hrecv, Bool.false_eq_true, if_false, hshort, if_true, met_pure, true_iff]
    exact fun hacc => absurd hacc.long (Nat.not_lt.2 hshort)
  by_cases hmatch : matchHttpHeader (l.recvBuffer ++ buf) = false
  · simp only [hrecv, Bool.false_eq_true, if_false, hshort, hmatch, if_true, met_pure, true_iff]
    intro hacc
    rw [hacc.verb] at hmatch
    cases hmatch
  by_cases hlarge : 65536 < (l.recvBuffer ++ buf).length
  · simp only [hrecv, Bool.false_eq_true, if_false, hshort, hmatch, Bool.true_eq_false, hlarge, if_true,
      met_pure, true_iff]
    exact fun hacc => absurd hacc.size (Nat.not_le.2 hlarge)
  -- the request is looked at: first the search for the blank line, then the two readers of the header
  have haccepted : Accepted l (l.recvBuffer ++ buf) :=
    ⟨by simpa using hrecv, Nat.not_le.1 hshort, by simpa using hmatch, Nat.not_lt.1 hlarge⟩
  simp only [hrecv, Bool.false_eq_true, if_false, hshort, hmatch, Bool.true_eq_false, hlarge,
    forall_prop_of_true haccepted]
  by_cases hends : SearchEnds (l.recvBuffer ++ buf)
  · rw [(search_yields behind hends).met_bind, and_iff_right hends, requestHead]
    cases hfind : strstr (l.recvBuffer ++ buf) crlfcrlf with
    | none => exact iff_of_true (met_pure _) (by simp)
    | some pos =>
        simp only [met_bind, met_pure, and_true, getDataFromHttpHeaderIn_met_iff, (cString_header hfind).1,
          getHostFromHttpHeaderIn_met_iff _ (List.length_replicate : (List.replicate 128 (0 : UInt8)).length = 128),
          Option.map_some, Option.some.injEq, forall_eq']
  · rw [met_bind, search_met_iff]
    exact iff_of_false (fun hmet => hends hmet.1) fun hcond => hends hcond.1

/-- A host of 128 bytes: the terminator is written behind the array. -/
theorem header_parsing_overflow :
    ¬ (serverDecodeIn (fun _ => 0) localDataInit
      (ascii "GET / HTTP/1.1\r\nHost: " ++ List.replicate 128 0x61 ++ ascii "\r\nA: b\r\n\r\n")).Met := by
  decide +kernel

end HttpSimple
end Obfs
end SsrNative
