import SsrNative.Obfs.Tls12Slices

/-!
# Tls12ServerSlices — the bounds of the server

A ClientHello that is shorter than its fields say is read behind its end (`HelloRegular`), and the answer to
one with another session id than one of 32 bytes is not packed.  `serverEventIn_met_iff` says in which state
an event meets the bounds.
-/

namespace SsrNative
namespace Obfs
namespace Tls12TicketAuth

open Bytes
open Lib.Demand
open Lib.Demand.Demanding
open Lib.Framing

/-! ## Finished -/

/-- Every record header that is complete is the header of application data. -/
inductive RecordsBegin : Bytes → Prop where
  | short {l : Bytes} : l.length ≤ 5 → RecordsBegin l
  | record {l : Bytes} : 5 < l.length → window l 0 3 = [0x17, 0x03, 0x03] →
      (rdBe16 l 3 + 5 ≤ l.length → RecordsBegin (l.drop (rdBe16 l 3 + 5))) → RecordsBegin l

theorem RecordsBegin.window_eq {l : Bytes} (h : RecordsBegin l) (hlong : 5 < l.length) :
    window l 0 3 = [0x17, 0x03, 0x03] := by
  cases h with
  | short hle => exact absurd hlong (Nat.not_lt.2 hle)
  | record _ hstart _ => exact hstart

theorem RecordsBegin.rest {l : Bytes} (h : RecordsBegin l) (hsize : rdBe16 l 3 + 5 ≤ l.length) :
    RecordsBegin (l.drop (rdBe16 l 3 + 5)) := by
  cases h with
  | short hle =>
      refine .short ?_
      rw [List.length_drop]
      exact (Nat.sub_le _ _).trans hle
  | record _ _ hrest => exact hrest hsize

/-- The loop does not stop at a header. -/
theorem drain_stop_iff {fuel : ℕ} {recv : Bytes} (acc : Bytes) (hfuel : recv.length < fuel) :
    (drain serverRecordStep fuel () recv acc).stop = none ↔ RecordsBegin recv := by
  induction fuel generalizing recv acc with
  | zero => exact absurd hfuel (Nat.not_lt_zero _)
  | succ fuel ih =>
      by_cases hlong : 5 < recv.length
      swap
      · have hstep : serverRecordStep () recv = .more () := by simp [serverRecordStep, hlong]
        rw [drain_more hstep]
        exact iff_of_true rfl (.short (Nat.not_lt.1 hlong))
      by_cases hstart : window recv 0 3 = [0x17, 0x03, 0x03]
      swap
      · have hstep : serverRecordStep () recv = .halt () () := by simp [serverRecordStep, hlong, hstart]
        rw [drain_halt hstep]
        exact iff_of_false (by simp) fun hbegin => hstart (hbegin.window_eq hlong)
      by_cases hcut : recv.length < rdBe16 recv 3 + 5
      · have hstep : serverRecordStep () recv = .more () := by simp [serverRecordStep, hlong, hstart, hcut]
        rw [drain_more hstep]
        exact iff_of_true rfl (.record hlong hstart fun hsize => absurd hcut (Nat.not_lt.2 hsize))
      · have hstep : serverRecordStep () recv =
            .took () (window recv 5 (rdBe16 recv 3)) (rdBe16 recv 3 + 5) := by
          simp [serverRecordStep, hlong, hstart, hcut]
        have hrest : (recv.drop (rdBe16 recv 3 + 5)).length < fuel := by
          rw [List.length_drop]
          omega
        rw [drain_took hstep, ih _ hrest]
        exact ⟨fun hbegin => .record hlong hstart fun _ => hbegin, fun hbegin => hbegin.rest (Nat.not_lt.1 hcut)⟩

theorem serverDecodeStreaming_out (l : LocalData) (buf : Bytes) :
    (serverDecodeStreaming l buf).2.out ≠ none ↔ RecordsBegin (l.recvBuffer ++ buf) := by
  rw [← drain_stop_iff [] (Nat.lt_succ_self _)]
  simp [serverDecodeStreaming, feed]

/-- What is expected after a ClientHello has arrived, as far as it has arrived. -/
structure FinishTaken (same : TagOracle) (clientId recv : Bytes) : Prop where
  long : 11 ≤ recv.length
  start : window recv 0 6 = [0x14] ++ tlsVersion ++ [0x00, 0x01, 0x01]
  finish : window recv 6 4 = [0x16] ++ tlsVersion ++ [0x00]
  verified : rdBe16 recv 9 + 1 + 10 ≤ recv.length →
    same clientId (window recv 0 (rdBe16 recv 9 + 1)) (window recv (rdBe16 recv 9 + 1) 10) = true ∧
      RecordsBegin (recv.drop (rdBe16 recv 9 + 1 + 10))

/-- What `server_decode` does with bit 1 set. -/
structure FinishOutcome (same : TagOracle) (l : LocalData) (recv : Bytes) (r : LocalData × Decoded) : Prop where
  clientId : r.1.clientId = l.clientId
  status : r.1.handshakeStatus = l.handshakeStatus ∨ r.1.handshakeStatus = l.handshakeStatus ||| 4
  out : l.handshakeStatus ||| 4 ≠ -1 → (r.2.out ≠ none ↔ FinishTaken same l.clientId recv)

theorem serverDecodeFinishIn_outcome (same : TagOracle) (l : LocalData) (buf : Bytes) :
    ∃ r, (serverDecodeFinishIn same l buf).Yields r ∧ FinishOutcome same l (l.recvBuffer ++ buf) r := by
  unfold serverDecodeFinishIn
  generalize l.recvBuffer ++ buf = recv
  by_cases hshort : recv.length < 11
  · simp only [hshort, if_true]
    refine ⟨_, (yields_pure _ _).2 rfl, rfl, .inl rfl, fun _ => iff_of_false (by simp) fun htaken => ?_⟩
    exact absurd htaken.long (Nat.not_le.2 hshort)
  have hlong := Nat.not_lt.1 hshort
  have hstart := zeroFilled_readSlice (l := recv) 0 (n := 6) (Nat.le_trans (by decide) hlong)
  have hfinish := zeroFilled_readSlice (l := recv) 6 (n := 4) (Nat.le_trans (by decide) hlong)
  have hfield := zeroFilled_readSlice (l := recv) 9 (n := 2) hlong
  simp only [hshort, if_false, hstart.bind, ne_eq, ite_not]
  by_cases hccs : window recv 0 6 = [0x14] ++ tlsVersion ++ [0x00, 0x01, 0x01]
  swap
  · simp only [hccs, if_false]
    exact ⟨_, (yields_pure _ _).2 rfl, rfl, .inl rfl, fun _ => iff_of_false (by simp) fun h => hccs h.start⟩
  simp only [hccs, if_true, hfinish.bind]
  by_cases hfin : window recv 6 4 = [0x16] ++ tlsVersion ++ [0x00]
  swap
  · simp only [hfin, if_false]
    exact ⟨_, (yields_pure _ _).2 rfl, rfl, .inl rfl, fun _ => iff_of_false (by simp) fun h => hfin h.finish⟩
  simp only [hfin, if_true, hfield.bind, rdBe16_window]
  by_cases hwait : recv.length < rdBe16 recv 9 + 1 + 10
  · simp only [hwait, if_true]
    refine ⟨_, (yields_pure _ _).2 rfl, rfl, .inl rfl, fun _ => iff_of_true (by simp) ⟨hlong, hccs, hfin, ?_⟩⟩
    exact fun hsize => absurd hwait (Nat.not_lt.2 hsize)
  have hsize := Nat.not_lt.1 hwait
  have hmsg := zeroFilled_readSlice (l := recv) 0 (n := rdBe16 recv 9 + 1) (by omega)
  have hsum := zeroFilled_readSlice (l := recv) (rdBe16 recv 9 + 1) (n := 10) hsize
  simp only [hwait, if_false, hmsg.bind, hsum.bind]
  by_cases htag : same l.clientId (window recv 0 (rdBe16 recv 9 + 1)) (window recv (rdBe16 recv 9 + 1) 10) = true
  swap
  · simp only [htag, if_true]
    refine ⟨_, (yields_pure _ _).2 rfl, rfl, .inl rfl, fun _ => iff_of_false (by simp) fun htaken => ?_⟩
    exact htag (htaken.verified hsize).1
  have hcut := cut_yields (l := recv) (n := rdBe16 recv 9 + 1 + OBFS_HMAC_SHA1_LEN) hsize
  simp only [htag, Bool.true_eq_false, if_false, hcut.bind]
  by_cases hpass : l.handshakeStatus ||| 4 = -1
  · simp only [hpass, if_true]
    exact ⟨_, (yields_pure _ _).2 rfl, rfl, .inr hpass.symm, fun hne => absurd hpass hne⟩
  · simp only [hpass, if_false]
    refine ⟨_, serverDecodeStreamingIn_yields _ _, rfl, .inr rfl, fun _ => ?_⟩
    rw [serverDecodeStreaming_out, List.append_nil]
    exact ⟨fun hbegin => ⟨hlong, hccs, hfin, fun _ => ⟨htag, hbegin⟩⟩, fun htaken => (htaken.verified hsize).2⟩

/-! ## ClientHello -/

/-- As far as a ClientHello is read it is there.  `rec` is what stands behind the header of the record. -/
def HelloRegular (rec : Bytes) : Prop :=
  2 ≤ rec.length ∧
    (window rec 0 2 = [0x01, 0x00] → 4 ≤ rec.length ∧
      (rdBe16 rec 2 = rec.length - 4 → 6 ≤ rec.length ∧
        (window rec 4 2 = tlsVersion → 39 ≤ rec.length ∧
          (32 ≤ (byteAt rec 38).toNat → 39 + (byteAt rec 38).toNat ≤ rec.length))))

instance (rec : Bytes) : Decidable (HelloRegular rec) := by
  unfold HelloRegular
  infer_instance

/-- The session id of a ClientHello. -/
def sessionId (rec : Bytes) : Bytes := window rec 39 (byteAt rec 38).toNat

/-- A ClientHello that passes the checks. -/
structure HelloAccepted (same : TagOracle) (rec : Bytes) : Prop where
  start : window rec 0 2 = [0x01, 0x00]
  msgSize : rdBe16 rec 2 = rec.length - 4
  version : window rec 4 2 = tlsVersion
  sessionidLen : 32 ≤ (byteAt rec 38).toNat
  tag : same (sessionId rec) (window rec 6 22) (window rec 28 10) = true

/-- What the checks on a ClientHello come to. -/
structure HelloOutcome (same : TagOracle) (rec : Bytes) (r : Bytes × Bool) : Prop where
  passed : r.2 = true ↔ HelloAccepted same rec
  clientId : r.2 = true → r.1 = sessionId rec

theorem helloOutcome_refused {same : TagOracle} {rec clientId : Bytes} (h : ¬ HelloAccepted same rec) :
    HelloOutcome same rec (clientId, false) :=
  ⟨iff_of_false Bool.false_ne_true h, fun hpassed => absurd hpassed Bool.false_ne_true⟩

theorem window_window (l : Bytes) (off : ℕ) {n i k : ℕ} (h : i + k ≤ n) :
    window (window l off n) i k = window l (off + i) k := by
  rw [window_eq_take (by rwa [window_length])]
  apply List.ext_getElem
  · rw [List.length_take, List.length_drop, window_length, window_length]
    exact Nat.min_eq_left (Nat.le_sub_of_add_le' h)
  · intro j hj hj'
    simp [window, Nat.add_assoc]

/-- What the checks read is in the record. -/
theorem helloRegular_of_met {same : TagOracle} {clientId rec : Bytes}
    (hmet : (checkClientHelloIn same clientId rec).Met) : HelloRegular rec := by
  unfold checkClientHelloIn at hmet
  have h2 : 2 ≤ rec.length := by simpa using ((met_bind _ _).1 hmet).1
  refine ⟨h2, fun hkind => ?_⟩
  have hstart := zeroFilled_readSlice (l := rec) 0 (n := 2) h2
  simp only [hstart.met_bind, hkind, ne_eq, not_true_eq_false, if_false, (cut_yields h2).met_bind] at hmet
  have h4 : 4 ≤ rec.length := by
    have hread := ((met_bind _ _).1 hmet).1
    rw [Region.met_readSlice, zeroFilled_cells, List.length_drop] at hread
    omega
  refine ⟨h4, fun hsize => ?_⟩
  have hfield : ((zeroFilled (rec.drop 2)).readSlice 0 2).Yields (window rec 2 2) :=
    zeroFilled_readSlice_drop 2 0 h4
  have hsub : (subtract (rec.drop 2).length 2).Yields (rec.length - 4) := by
    rw [List.length_drop]
    exact subtract_yields (Nat.le_sub_of_add_le h4)
  have hcut₂ : (cut (rec.drop 2) 2).Yields (rec.drop 4) := cut_drop_yields 2 2 h4
  simp only [hfield.met_bind, hsub.met_bind, rdBe16_window, hsize, not_true_eq_false, if_false,
    hcut₂.met_bind] at hmet
  have h6 : 6 ≤ rec.length := by
    have hread := ((met_bind _ _).1 hmet).1
    rw [Region.met_readSlice, zeroFilled_cells, List.length_drop] at hread
    omega
  refine ⟨h6, fun hversion => ?_⟩
  have hread : ((zeroFilled (rec.drop 4)).readSlice 0 2).Yields (window rec 4 2) :=
    zeroFilled_readSlice_drop 4 0 h6
  have hcut₃ : (cut (rec.drop 4) 2).Yields (rec.drop 6) := cut_drop_yields 4 2 h6
  simp only [hread.met_bind, hversion, not_true_eq_false, if_false, hcut₃.met_bind] at hmet
  have h38 : 38 ≤ rec.length := by
    have hread := ((met_bind _ _).1 hmet).1
    rw [Region.met_readSlice, zeroFilled_cells, List.length_drop] at hread
    omega
  have hid : ((zeroFilled (rec.drop 6)).readSlice 0 32).Yields (window rec 6 32) :=
    zeroFilled_readSlice_drop 6 0 h38
  have hcut₄ : (cut (rec.drop 6) 32).Yields (rec.drop 38) := cut_drop_yields 6 32 h38
  simp only [hid.met_bind, hcut₄.met_bind] at hmet
  have h39 : 39 ≤ rec.length := by
    have hread := ((met_bind _ _).1 hmet).1
    rw [Region.met_read, zeroFilled_cells, List.length_drop] at hread
    omega
  refine ⟨h39, fun hlong => ?_⟩
  have hlen : ((zeroFilled (rec.drop 38)).read 0).Yields (byteAt rec 38) := by
    rw [← byteAt_drop rec 38 0]
    refine zeroFilled_read ?_
    rw [List.length_drop]
    omega
  simp only [hlen.met_bind, Nat.not_lt.2 hlong, if_false] at hmet
  have hread := ((met_bind _ _).1 hmet).1
  rw [Region.met_readSlice, zeroFilled_cells, List.length_drop] at hread
  omega

/-- On a regular record the checks say what they should. -/
theorem HelloRegular.outcome (same : TagOracle) (clientId : Bytes) {rec : Bytes} (h : HelloRegular rec) :
    ∃ r, (checkClientHelloIn same clientId rec).Yields r ∧ HelloOutcome same rec r := by
  rcases h with ⟨h2, h⟩
  unfold checkClientHelloIn
  have hstart := zeroFilled_readSlice (l := rec) 0 (n := 2) h2
  simp only [hstart.bind, ne_eq, ite_not]
  by_cases hkind : window rec 0 2 = [0x01, 0x00]
  swap
  · simp only [hkind, if_false]
    exact ⟨_, (yields_pure _ _).2 rfl, helloOutcome_refused fun h => hkind h.start⟩
  rcases h hkind with ⟨h4, h⟩
  have hfield : ((zeroFilled (rec.drop 2)).readSlice 0 2).Yields (window rec 2 2) :=
    zeroFilled_readSlice_drop 2 0 h4
  have hsub : (subtract (rec.drop 2).length 2).Yields (rec.length - 4) := by
    rw [List.length_drop]
    exact subtract_yields (Nat.le_sub_of_add_le h4)
  simp only [hkind, if_true, (cut_yields h2).bind, hfield.bind, hsub.bind, rdBe16_window]
  by_cases hsize : rdBe16 rec 2 = rec.length - 4
  swap
  · simp only [hsize, if_false]
    exact ⟨_, (yields_pure _ _).2 rfl, helloOutcome_refused fun h => hsize h.msgSize⟩
  rcases h hsize with ⟨h6, h⟩
  have hcut₂ : (cut (rec.drop 2) 2).Yields (rec.drop 4) := cut_drop_yields 2 2 h4
  have hread : ((zeroFilled (rec.drop 4)).readSlice 0 2).Yields (window rec 4 2) :=
    zeroFilled_readSlice_drop 4 0 h6
  simp only [hsize, if_true, hcut₂.bind, hread.bind]
  by_cases hversion : window rec 4 2 = tlsVersion
  swap
  · simp only [hversion, if_false]
    exact ⟨_, (yields_pure _ _).2 rfl, helloOutcome_refused fun h => hversion h.version⟩
  rcases h hversion with ⟨h39, h⟩
  have h38 := Nat.le_of_succ_le h39
  have hcut₃ : (cut (rec.drop 4) 2).Yields (rec.drop 6) := cut_drop_yields 4 2 h6
  have hid : ((zeroFilled (rec.drop 6)).readSlice 0 32).Yields (window rec 6 32) :=
    zeroFilled_readSlice_drop 6 0 h38
  have hcut₄ : (cut (rec.drop 6) 32).Yields (rec.drop 38) := cut_drop_yields 6 32 h38
  have hlen : ((zeroFilled (rec.drop 38)).read 0).Yields (byteAt rec 38) := by
    rw [← byteAt_drop rec 38 0]
    refine zeroFilled_read ?_
    rw [List.length_drop]
    omega
  simp only [hversion, if_true, hcut₃.bind, hid.bind, hcut₄.bind, hlen.bind]
  by_cases hlong : 32 ≤ (byteAt rec 38).toNat
  swap
  · simp only [Nat.not_le.1 hlong, if_true]
    exact ⟨_, (yields_pure _ _).2 rfl, helloOutcome_refused fun h => hlong h.sessionidLen⟩
  have hfit := h hlong
  have hsession : ((zeroFilled (rec.drop 38)).readSlice 1 (byteAt rec 38).toNat).Yields (sessionId rec) :=
    zeroFilled_readSlice_drop 38 1 hfit
  have hbehind : (demand ((byteAt rec 38).toNat + 1) (rec.drop 38).length).Yields () := by
    refine demand_yields ?_
    rw [List.length_drop]
    omega
  have hmsg : ((zeroFilled (window rec 6 32)).readSlice 0 22).Yields (window rec 6 22) := by
    rw [← window_window rec 6 (n := 32) (i := 0) (by decide)]
    exact zeroFilled_readSlice 0 (by simp)
  have hsum : ((zeroFilled (window rec 6 32)).readSlice 22 10).Yields (window rec 28 10) := by
    rw [← window_window rec 6 (n := 32) (i := 22) (by decide)]
    exact zeroFilled_readSlice 22 (by simp)
  simp only [Nat.not_lt.2 hlong, if_false, hsession.bind, hbehind.bind, hmsg.bind, hsum.bind]
  refine ⟨_, (yields_pure _ _).2 rfl, ⟨fun htag => ?_, fun haccepted => haccepted.tag⟩, fun _ => rfl⟩
  exact ⟨hkind, hsize, hversion, hlong, htag⟩

/-- The first record, without its header. -/
def firstRecord (recv : Bytes) : Bytes := (recv.drop 5).take (rdBe16 recv 3)

/-- What is received before the handshake is over, as far as it is read. -/
def HelloSlices (recv : Bytes) : Prop :=
  3 ≤ recv.length → window recv 0 3 = [0x16, 0x03, 0x01] →
    5 ≤ recv.length ∧ (rdBe16 recv 3 + 5 ≤ recv.length → HelloRegular (firstRecord recv))

instance (recv : Bytes) : Decidable (HelloSlices recv) := by
  unfold HelloSlices
  infer_instance

/-- A ClientHello that passes the checks, and is not followed by what is refused. -/
structure HelloAnswered (same : TagOracle) (recv : Bytes) : Prop where
  long : 3 ≤ recv.length
  start : window recv 0 3 = [0x16, 0x03, 0x01]
  complete : rdBe16 recv 3 + 5 ≤ recv.length
  accepted : HelloAccepted same (firstRecord recv)
  finish : 11 ≤ recv.length - (rdBe16 recv 3 + 5) →
    FinishTaken same (sessionId (firstRecord recv)) (recv.drop (rdBe16 recv 3 + 5))

/-- What `server_decode` makes of the first bytes. -/
inductive HelloResult (same : TagOracle) (l : LocalData) (recv : Bytes) (r : LocalData × Decoded) : Prop where
  | waiting (state : r.1 = { l with recvBuffer := recv }) (feedback : r.2.needFeedback = false)
      (unanswered : ¬ HelloAnswered same recv)
  | refused (status : r.1.handshakeStatus = -1) (feedback : r.2.needFeedback = false)
      (unanswered : ¬ HelloAnswered same recv)
  | accepted (status : r.1.handshakeStatus = 1 ∨ r.1.handshakeStatus = 1 ||| 4)
      (clientId : r.1.clientId = sessionId (firstRecord recv)) (feedback : r.2.needFeedback = true)
      (out : r.2.out ≠ none ↔ HelloAnswered same recv)

theorem helloSlices_of_met {same : TagOracle} {l : LocalData} {buf : Bytes}
    (hmet : (serverDecodeHelloIn same l buf).Met) : HelloSlices (l.recvBuffer ++ buf) := by
  intro h3 hkind
  unfold serverDecodeHelloIn at hmet
  generalize l.recvBuffer ++ buf = recv at h3 hkind hmet ⊢
  have hstart := zeroFilled_readSlice (l := recv) 0 (n := 3) h3
  simp only [Nat.not_lt.2 h3, if_false, hstart.met_bind, hkind, ne_eq, not_true_eq_false,
    (cut_yields h3).met_bind] at hmet
  have h5 : 5 ≤ recv.length := by
    have hread := ((met_bind _ _).1 hmet).1
    rw [Region.met_readSlice, zeroFilled_cells, List.length_drop] at hread
    omega
  refine ⟨h5, fun hsize => ?_⟩
  have hfield : ((zeroFilled (recv.drop 3)).readSlice 0 2).Yields (window recv 3 2) :=
    zeroFilled_readSlice_drop 3 0 h5
  have hsub : (subtract (recv.drop 3).length 2).Yields (recv.length - 5) := by
    rw [List.length_drop]
    exact subtract_yields (Nat.le_sub_of_add_le h5)
  have hfit : ¬ rdBe16 recv 3 > recv.length - 5 := Nat.not_lt.2 (Nat.le_sub_of_add_le hsize)
  simp only [hfield.met_bind, hsub.met_bind, rdBe16_window, hfit, if_false, (cut_yields hsize).met_bind] at hmet
  have hrecord : shortenedTo (recv.drop 3) 2 (rdBe16 recv 3) = firstRecord recv := by
    rw [shortenedTo_inside (by rw [List.length_drop]; omega), List.drop_drop, firstRecord]
  rw [hrecord] at hmet
  exact helloRegular_of_met ((met_bind _ _).1 hmet).1

theorem HelloSlices.result (same : TagOracle) {l : LocalData} {buf : Bytes}
    (h : HelloSlices (l.recvBuffer ++ buf)) :
    ∃ r, (serverDecodeHelloIn same l buf).Yields r ∧ HelloResult same l (l.recvBuffer ++ buf) r := by
  unfold serverDecodeHelloIn
  generalize l.recvBuffer ++ buf = recv at h ⊢
  by_cases hshort : recv.length < 3
  · simp only [hshort, if_true]
    exact ⟨_, (yields_pure _ _).2 rfl, .waiting rfl rfl fun hans => absurd hans.long (Nat.not_le.2 hshort)⟩
  have h3 := Nat.not_lt.1 hshort
  have hstart := zeroFilled_readSlice (l := recv) 0 (n := 3) h3
  simp only [hshort, if_false, hstart.bind, ne_eq, ite_not]
  by_cases hkind : window recv 0 3 = [0x16, 0x03, 0x01]
  swap
  · simp only [hkind, if_false]
    exact ⟨_, (yields_pure _ _).2 rfl, .refused rfl rfl fun hans => hkind hans.start⟩
  rcases h h3 hkind with ⟨h5, h⟩
  have hfield : ((zeroFilled (recv.drop 3)).readSlice 0 2).Yields (window recv 3 2) :=
    zeroFilled_readSlice_drop 3 0 h5
  have hsub : (subtract (recv.drop 3).length 2).Yields (recv.length - 5) := by
    rw [List.length_drop]
    exact subtract_yields (Nat.le_sub_of_add_le h5)
  simp only [hkind, if_true, (cut_yields h3).bind, hfield.bind, hsub.bind, rdBe16_window]
  by_cases hwait : rdBe16 recv 3 > recv.length - 5
  · simp only [hwait, if_true]
    refine ⟨_, (yields_pure _ _).2 rfl, .waiting rfl rfl fun hans => ?_⟩
    exact absurd (Nat.le_sub_of_add_le hans.complete) (Nat.not_le.2 hwait)
  have hsize : rdBe16 recv 3 + 5 ≤ recv.length := Nat.add_le_of_le_sub h5 (Nat.not_lt.1 hwait)
  have hrecord : shortenedTo (recv.drop 3) 2 (rdBe16 recv 3) = firstRecord recv := by
    rw [shortenedTo_inside (by rw [List.length_drop]; omega), List.drop_drop, firstRecord]
  rcases (h hsize).outcome same l.clientId with ⟨c, hcheck, hpassed, hid⟩
  simp only [hwait, if_false, (cut_yields hsize).bind, hrecord, hcheck.bind]
  by_cases hpass : c.2 = true
  swap
  · simp only [Bool.not_eq_true _ ▸ hpass, if_true]
    exact ⟨_, (yields_pure _ _).2 rfl, .refused rfl rfl fun hans => hpass (hpassed.2 hans.accepted)⟩
  simp only [hpass, Bool.true_eq_false, if_false, List.length_drop]
  by_cases hmore : 11 ≤ recv.length - (rdBe16 recv 3 + 5)
  · rcases serverDecodeFinishIn_outcome same
      { l with recvBuffer := recv.drop (rdBe16 recv 3 + 5), handshakeStatus := 1, clientId := c.1 } []
      with ⟨q, hq, hqid, hqstatus, hqout⟩
    simp only [hmore, if_true, hq.bind]
    refine ⟨_, (yields_pure _ _).2 rfl, .accepted hqstatus (hqid.trans (hid hpass)) rfl ?_⟩
    rw [hqout (show (1 : BitVec 32) ||| 4 ≠ -1 by decide), List.append_nil, hid hpass]
    exact ⟨fun hfin => ⟨h3, hkind, hsize, hpassed.1 hpass, fun _ => hfin⟩, fun hans => hans.finish hmore⟩
  · simp only [hmore, if_false]
    refine ⟨_, (yields_pure _ _).2 rfl, .accepted (.inl rfl) (hid hpass) rfl (iff_of_true (by simp) ?_)⟩
    exact ⟨h3, hkind, hsize, hpassed.1 hpass, fun h => absurd h hmore⟩

/-! ## The server -/

section Ends

variable (H : Mac 20) (info : ServerInfo)

/-- `server_encode`, with the assertion in `tls12_ticket_pack_auth_data`. -/
def serverEncodeIn (d : ServerDraws) (l : LocalData) (buf : Bytes) : Demanding (LocalData × Bytes) :=
  if l.handshakeStatus = -1 ∨ l.handshakeStatus &&& 8 = 8 then return serverEncode H info d l buf
  else do
    require (l.clientId.length = 32)
    return serverEncode H info d l buf

/-- What happens at the server: bytes arrive, or data is sent. -/
inductive ServerEvent where
  | recv (same : TagOracle) (d : ServerDraws) (buf : Bytes)
  | send (d : ServerDraws) (buf : Bytes)

/-- One event at the server, as `tunnel_cipher_server_decrypt` and `tunnel_cipher_server_encrypt` pass it to the
plugin.  After a `NULL` the connection is closed, which is `none`. -/
def serverEventIn : Option LocalData → ServerEvent → Demanding (Option LocalData)
  | none, _ => return none
  | some l, .recv same d buf => do
      let r ← serverDecodeIn same l buf
      if r.2.out = none then return none
      else if r.2.needFeedback = true then do
        let e ← serverEncodeIn H info d r.1 []
        return some e.1
      else return some r.1
  | some l, .send d buf => do
      let e ← serverEncodeIn H info d l buf
      return some e.1

/-- Before the handshake is over: the first bytes can be parsed, and a ClientHello that is answered has a
session id of 32 bytes.  And the server does not speak first. -/
def ServerRegular : Option LocalData → ServerEvent → Prop
  | none, _ => True
  | some l, .recv same _ buf => l.handshakeStatus = 0 →
      HelloSlices (l.recvBuffer ++ buf) ∧
        (HelloAnswered same (l.recvBuffer ++ buf) →
          (byteAt (firstRecord (l.recvBuffer ++ buf)) 38).toNat = 32)
  | some l, .send _ _ => l.handshakeStatus ≠ 0

/-- The states that a server goes through. -/
def ServerState (s : Option LocalData) : Prop :=
  ∀ l, s = some l → l.handshakeStatus = 0 ∧ l.clientId = [] ∨ l.handshakeStatus = -1 ∨
    l.handshakeStatus = 9 ∨ l.handshakeStatus = 13

variable {H info}

/-- The answer is packed for a client id of 32 bytes. -/
theorem serverEncodeIn_met_iff (d : ServerDraws) {l : LocalData} (buf : Bytes)
    (hpass : l.handshakeStatus ≠ -1) (hbit : l.handshakeStatus &&& 8 ≠ 8) :
    (serverEncodeIn H info d l buf).Met ↔ l.clientId.length = 32 := by
  rw [serverEncodeIn, if_neg (not_or.2 ⟨hpass, hbit⟩), met_bind, met_require]
  exact and_iff_left (met_pure _)

theorem serverEncodeIn_status (d : ServerDraws) {l : LocalData} (buf : Bytes)
    (hpass : l.handshakeStatus ≠ -1) (hbit : l.handshakeStatus &&& 8 ≠ 8) :
    (serverEncodeIn H info d l buf).value.1.handshakeStatus = l.handshakeStatus ||| 8 := by
  rw [serverEncodeIn, if_neg (not_or.2 ⟨hpass, hbit⟩)]
  simp only [value_bind, serverEncode, hpass, if_false, hbit]
  by_cases hbuf : 0 < buf.length
  · simp only [hbuf, if_true]
    rfl
  · simp only [hbuf, if_false]
    rfl

/-- A state after the answer to a ClientHello, or after a refusal. -/
def Settled (l : LocalData) : Prop :=
  l.handshakeStatus = -1 ∨ l.handshakeStatus = 9 ∨ l.handshakeStatus = 13

theorem serverState_none : ServerState none := nofun

theorem Settled.serverState {l : LocalData} (h : Settled l) : ServerState (some l) := by
  rintro _ ⟨⟩
  exact .inr h

variable (H info) in
/-- Nothing is packed once the answer has been sent. -/
theorem Settled.encode {l : LocalData} (h : Settled l) (d : ServerDraws) (buf : Bytes) :
    ∃ b, (serverEncodeIn H info d l buf).Yields (l, b) := by
  rcases h with h | h | h
  · exact ⟨buf, by simp [serverEncodeIn, serverEncode, h, yields_pure]⟩
  all_goals
    refine ⟨serverRecords d buf, ?_⟩
    simp [serverEncodeIn, serverEncode, h, yields_pure]

variable (H info) in
/-- Whether or not a feedback is sent from a settled state, the state stays. -/
theorem Settled.recv {l l' : LocalData} {same : TagOracle} {buf : Bytes} {r : LocalData × Decoded}
    (hdecode : (serverDecodeIn same l buf).Yields r) (hl' : r.1 = l') (h : Settled l') (d : ServerDraws) :
    (serverEventIn H info (some l) (.recv same d buf)).Met ∧
      ServerState (serverEventIn H info (some l) (.recv same d buf)).value := by
  subst hl'
  rw [serverEventIn, hdecode.met_bind, value_bind, hdecode.2]
  by_cases hout : r.2.out = none
  · simp only [hout, if_true]
    exact ⟨met_pure _, serverState_none⟩
  by_cases hfeedback : r.2.needFeedback = true
  · rcases h.encode H info d [] with ⟨b, hencode⟩
    simp only [hout, if_false, hfeedback, if_true, hencode.met_bind, value_bind, hencode.2]
    exact ⟨met_pure _, h.serverState⟩
  · simp only [hout, if_false, hfeedback, Bool.false_eq_true]
    exact ⟨met_pure _, h.serverState⟩

/-- The two steps that a settled server goes through. -/
theorem Settled.decode {l : LocalData} (h : Settled l) (same : TagOracle) (buf : Bytes) :
    ∃ r, (serverDecodeIn same l buf).Yields r ∧ Settled r.1 := by
  rcases h with h | h | h
  · refine ⟨(l, ⟨some buf, true, false⟩), ?_, .inl h⟩
    rw [serverDecodeIn, if_pos h]
    exact (yields_pure _ _).2 rfl
  · rcases serverDecodeFinishIn_outcome same l buf with ⟨r, hr, -, hstatus, -⟩
    refine ⟨r, ?_, .inr ?_⟩
    · rw [serverDecodeIn, h, if_neg (by decide), if_neg (by decide), if_pos (by decide)]
      exact hr
    · rw [h] at hstatus
      exact hstatus
  · refine ⟨serverDecodeStreaming l buf, ?_, .inr (.inr h)⟩
    rw [serverDecodeIn, h, if_neg (by decide), if_pos (by decide)]
    exact serverDecodeStreamingIn_yields l buf

section Fresh

variable {l : LocalData} {same : TagOracle} {buf : Bytes}

theorem serverDecodeIn_fresh (h : l.handshakeStatus = 0) :
    serverDecodeIn same l buf = serverDecodeHelloIn same l buf := by
  rw [serverDecodeIn, h, if_neg (by decide), if_neg (by decide), if_neg (by decide)]

/-- What happens to a server that nothing has been accepted by. -/
theorem serverEventIn_fresh (hstatus : l.handshakeStatus = 0) (hid : l.clientId = []) (d : ServerDraws)
    (hslices : HelloSlices (l.recvBuffer ++ buf)) :
    ((serverEventIn H info (some l) (.recv same d buf)).Met ↔
        (HelloAnswered same (l.recvBuffer ++ buf) →
          (byteAt (firstRecord (l.recvBuffer ++ buf)) 38).toNat = 32)) ∧
      ServerState (serverEventIn H info (some l) (.recv same d buf)).value := by
  rcases hslices.result same with ⟨r, hr, hresult⟩
  rw [← serverDecodeIn_fresh hstatus] at hr
  cases hresult with
  | waiting hstate hfeedback hnot =>
      rw [serverEventIn, hr.met_bind, value_bind, hr.2]
      refine ⟨iff_of_true ?_ fun hans => absurd hans hnot, ?_⟩
      · by_cases hout : r.2.out = none
        · simp only [hout, if_true, met_pure]
        · simp only [hout, if_false, hfeedback, Bool.false_eq_true, met_pure]
      · by_cases hout : r.2.out = none
        · simp only [hout, if_true]
          exact serverState_none
        · simp only [hout, if_false, hfeedback, Bool.false_eq_true, value_pure, hstate]
          rintro _ ⟨⟩
          exact .inl ⟨hstatus, hid⟩
  | refused hrefused hfeedback hnot =>
      have hrecv := Settled.recv H info hr rfl (.inl hrefused) d
      exact ⟨iff_of_true hrecv.1 fun hans => absurd hans hnot, hrecv.2⟩
  | accepted haccepted hsession hfeedback hout =>
      have hpass : r.1.handshakeStatus ≠ -1 := by
        rcases haccepted with h | h
        all_goals
          rw [h]
          decide
      have hbit : r.1.handshakeStatus &&& 8 ≠ 8 := by
        rcases haccepted with h | h
        all_goals
          rw [h]
          decide
      rw [serverEventIn, hr.met_bind, value_bind, hr.2]
      by_cases hnull : r.2.out = none
      · simp only [hnull, if_true, met_pure, value_pure]
        exact ⟨iff_of_true trivial fun hans => absurd hnull (hout.2 hans), serverState_none⟩
      have hans := hout.1 hnull
      simp only [hnull, if_false, hfeedback, if_true, met_bind, met_pure, and_true,
        serverEncodeIn_met_iff d [] hpass hbit, hsession, sessionId, window_length]
      refine ⟨⟨fun hlen _ => hlen, fun hlen => hlen hans⟩, Settled.serverState (.inr ?_)⟩
      rw [serverEncodeIn_status d [] hpass hbit]
      rcases haccepted with h | h
      · exact .inl (by rw [h]; rfl)
      · exact .inr (by rw [h]; rfl)

end Fresh

/-- One event at the server. -/
theorem serverEventIn_met_iff {s : Option LocalData} (hs : ServerState s) (e : ServerEvent) :
    (serverEventIn H info s e).Met ↔ ServerRegular s e := by
  cases s with
  | none => exact iff_of_true (met_pure _) trivial
  | some l =>
      rcases hs l rfl with ⟨hstatus, hid⟩ | hsettled
      · cases e with
        | recv same d buf =>
            have hregular : ServerRegular (some l) (.recv same d buf) ↔
                HelloSlices (l.recvBuffer ++ buf) ∧
                  (HelloAnswered same (l.recvBuffer ++ buf) →
                    (byteAt (firstRecord (l.recvBuffer ++ buf)) 38).toNat = 32) :=
              forall_prop_of_true hstatus
            rw [hregular]
            constructor
            · intro hmet
              have hslices : HelloSlices (l.recvBuffer ++ buf) := by
                have hdecode := ((met_bind _ _).1 hmet).1
                rw [serverDecodeIn_fresh hstatus] at hdecode
                exact helloSlices_of_met hdecode
              exact ⟨hslices, (serverEventIn_fresh hstatus hid d hslices).1.1 hmet⟩
            · rintro ⟨hslices, hlen⟩
              exact (serverEventIn_fresh hstatus hid d hslices).1.2 hlen
        | send d buf =>
            refine iff_of_false (fun hmet => ?_) fun hne => hne hstatus
            have hencode := ((met_bind _ _).1 hmet).1
            rw [serverEncodeIn_met_iff d buf (by rw [hstatus]; decide) (by rw [hstatus]; decide), hid] at hencode
            cases hencode
      · have hne : l.handshakeStatus ≠ 0 := by
          rcases hsettled with h | h | h
          all_goals
            rw [h]
            decide
        cases e with
        | recv same d buf =>
            rcases Settled.decode hsettled same buf with ⟨r, hr, hnext⟩
            exact iff_of_true (Settled.recv H info hr rfl hnext d).1 fun h => absurd h hne
        | send d buf =>
            rcases Settled.encode H info hsettled d buf with ⟨b, hb⟩
            exact iff_of_true (by rw [serverEventIn, hb.met_bind]; exact met_pure _) hne

theorem serverEventIn_state {s : Option LocalData} (hs : ServerState s) {e : ServerEvent}
    (hmet : (serverEventIn H info s e).Met) : ServerState (serverEventIn H info s e).value := by
  cases s with
  | none => exact serverState_none
  | some l =>
      rcases hs l rfl with ⟨hstatus, hid⟩ | hsettled
      · have hregular := (serverEventIn_met_iff hs e).1 hmet
        cases e with
        | recv same d buf => exact (serverEventIn_fresh hstatus hid d (hregular hstatus).1).2
        | send d buf => exact absurd hstatus hregular
      · cases e with
        | recv same d buf =>
            rcases Settled.decode hsettled same buf with ⟨r, hr, hnext⟩
            exact (Settled.recv H info hr rfl hnext d).2
        | send d buf =>
            rcases Settled.encode H info hsettled d buf with ⟨b, hb⟩
            rw [serverEventIn, value_bind, hb.2]
            exact Settled.serverState hsettled

end Ends

end Tls12TicketAuth
end Obfs
end SsrNative
