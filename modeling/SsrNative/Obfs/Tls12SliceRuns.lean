import SsrNative.Lib.Transition
import SsrNative.Obfs.Tls12ServerSlices

/-!
# Tls12SliceRuns — runs of the tls1.2_ticket parsers

The bounds of the client, which has to step back by ten bytes from where the walk over the records ends.
`slices_inside_iff` says in which runs of the two ends all bounds hold.
-/

namespace SsrNative
namespace Obfs
namespace Tls12TicketAuth

open Bytes
open Lib.Demand
open Lib.Demand.Demanding
open Lib.Transition

section Ends

variable {H : Mac 20} {info : ServerInfo}

/-! ## The client -/

/-- What happens at the client. -/
inductive ClientEvent where
  | recv (same : TagOracle) (buf : Bytes)
  | send (d : ClientDraws) (buf : Bytes)

variable (H info) in
/-- One event at the client. -/
def clientEventIn : Option LocalData → ClientEvent → Demanding (Option LocalData)
  | none, _ => return none
  | some l, .recv same buf => do
      let r ← clientDecodeIn same info l buf
      return r.2.1.map fun _ => r.1
  | some l, .send d buf => return some (clientEncode H info d l buf).1

/-- The handshake records fill ten bytes. -/
def WalkLong (recv : Bytes) : Prop :=
  (byteAt recv 0 = 0x14 ∨ byteAt recv 0 = 0x16) ∧
    (rdBe16 recv 3 ≤ 4 →
      byteAt recv (5 + rdBe16 recv 3) = 0x14 ∨ byteAt recv (5 + rdBe16 recv 3) = 0x16)

/-- An answer of the server that has a good first tag and no good tag at its end begins with handshake records
that fill ten bytes. -/
def AnswerRegular (same : TagOracle) (clientId recv : Bytes) : Prop :=
  11 + 32 + 1 + 32 ≤ recv.length → same clientId (window recv 11 22) (window recv 33 10) = true →
    same clientId (window recv 0 (recv.length - 10)) (window recv (recv.length - 10) 10) = false →
      WalkLong recv

variable (info) in
def ClientRegular : Option LocalData → ClientEvent → Prop
  | some l, .recv same buf =>
      l.handshakeStatus &&& 8 ≠ 8 → AnswerRegular same info.gData.localClientId (l.recvBuffer ++ buf)
  | _, _ => True

/-- The walk ends behind the tenth byte exactly when the first records fill ten bytes. -/
theorem walkLong_iff {recv : Bytes} (hlong : 76 ≤ recv.length) :
    (∀ n, walkRecords recv recv.length 0 = some n → 10 ≤ n) ↔ WalkLong recv := by
  rcases Nat.exists_eq_add_of_le (Nat.le_trans (by decide : 2 ≤ 76) hlong) with ⟨fuel, hfuel⟩
  have hwalk : walkRecords recv recv.length 0 = walkRecords recv (fuel + 1 + 1) 0 := by
    rw [hfuel, Nat.add_comm]
  rw [hwalk, walkRecords, Nat.zero_add, Nat.zero_add]
  have h0 : 0 < recv.length := Nat.lt_of_lt_of_le (by decide) hlong
  by_cases hkind : byteAt recv 0 = 0x14 ∨ byteAt recv 0 = 0x16
  swap
  · simp only [hkind, and_false, if_false]
    exact iff_of_false (fun hall => absurd (hall 0 rfl) (by decide)) fun h => hkind h.1
  have h5 : ¬ recv.length ≤ 5 := by omega
  simp only [h0, hkind, and_self, if_true, h5, if_false]
  by_cases hbeyond : recv.length < 5 + rdBe16 recv 3
  · simp only [hbeyond, if_true]
    exact iff_of_true (by simp) ⟨hkind, fun hle => by omega⟩
  simp only [hbeyond, if_false]
  by_cases hsize : rdBe16 recv 3 ≤ 4
  swap
  · refine iff_of_true (fun n hn => ?_) ⟨hkind, fun hle => absurd hle hsize⟩
    have hnext := (walkRecords_between (Nat.not_lt.1 hbeyond) hn).1
    omega
  have hnext : 5 + rdBe16 recv 3 < recv.length := by omega
  rw [walkRecords]
  by_cases hkind₂ : byteAt recv (5 + rdBe16 recv 3) = 0x14 ∨ byteAt recv (5 + rdBe16 recv 3) = 0x16
  swap
  · simp only [hkind₂, and_false, if_false]
    refine iff_of_false (fun hall => ?_) fun h => hkind₂ (h.2 hsize)
    have hten := hall _ rfl
    omega
  refine iff_of_true (fun n hn => ?_) ⟨hkind, fun _ => hkind₂⟩
  have hend : ¬ recv.length ≤ 5 + rdBe16 recv 3 + 5 := by omega
  simp only [hnext, hkind₂, and_self, if_true, hend, if_false] at hn
  split_ifs at hn with hbeyond₂
  have hlast := (walkRecords_between (Nat.not_lt.1 hbeyond₂) hn).1
  omega

theorem acceptIn_met {l : LocalData} {headerlength : ℕ} (h : headerlength ≤ l.recvBuffer.length) :
    (acceptIn l headerlength).Met := by
  rw [acceptIn, (cut_yields h).met_bind, (clientDecodeStreamingIn_yields _ _).met_bind]
  exact met_pure _

theorem clientDecodeIn_met_iff (same : TagOracle) (l : LocalData) (buf : Bytes) :
    (clientDecodeIn same info l buf).Met ↔ ClientRegular info (some l) (.recv same buf) := by
  unfold clientDecodeIn ClientRegular AnswerRegular
  by_cases hbit : l.handshakeStatus &&& 8 = 8
  · simp only [hbit, if_true, (clientDecodeStreamingIn_yields l buf).met_bind, met_pure, ne_eq, not_true_eq_false,
      false_imp_iff]
  simp only [hbit, if_false, ne_eq, not_false_eq_true, true_imp_iff]
  generalize l.recvBuffer ++ buf = recv
  by_cases hshort : recv.length < 11 + 32 + 1 + 32
  · simp only [hshort, if_true, met_pure, true_iff]
    exact fun hlong => absurd hshort (Nat.not_lt.2 hlong)
  have hlong : 76 ≤ recv.length := Nat.not_lt.1 hshort
  have hmsg := zeroFilled_readSlice (l := recv) 11 (n := 22) (Nat.le_trans (by decide) hlong)
  have hsum := zeroFilled_readSlice (l := recv) 33 (n := 10) (Nat.le_trans (by decide) hlong)
  simp only [hshort, if_false, hmsg.met_bind, hsum.met_bind, hlong, true_imp_iff]
  by_cases hfirst : same info.gData.localClientId (window recv 11 22) (window recv 33 10) = true
  swap
  · simp only [hfirst, if_true, met_pure, false_imp_iff, Bool.false_eq_true]
  have hten : 10 ≤ recv.length := Nat.le_trans (by decide) hlong
  have htotal := zeroFilled_readSlice (l := recv) 0 (n := recv.length - 10) (by omega)
  have hlast := zeroFilled_readSlice (l := recv) (recv.length - 10) (n := 10) (Nat.sub_add_cancel hten).le
  simp only [hfirst, Bool.true_eq_false, if_false, (subtract_yields hten).met_bind, htotal.met_bind,
    hlast.met_bind, true_imp_iff]
  by_cases hwhole : same info.gData.localClientId (window recv 0 (recv.length - 10))
      (window recv (recv.length - 10) 10) = true
  · simp only [hwhole, if_true, acceptIn_met (Nat.le_refl _), Bool.true_eq_false, false_imp_iff]
  simp only [hwhole, if_false, (walkRecordsIn_yields recv _ _).met_bind, true_imp_iff, Bool.false_eq_true,
    ← walkLong_iff hlong]
  cases hwalk : walkRecords recv recv.length 0 with
  | none => exact iff_of_true (met_pure _) (by simp)
  | some n =>
      have hinside := (walkRecords_between (Nat.zero_le _) hwalk).2
      simp only [Option.some.injEq, forall_eq']
      refine ⟨fun hmet => (met_subtract _ _).1 ((met_bind _ _).1 hmet).1, fun hn => ?_⟩
      have htotal2 := zeroFilled_readSlice (l := recv) 0 (n := n - 10) (by omega)
      have hlast2 := zeroFilled_readSlice (l := recv) (n - 10) (n := 10) (by omega)
      simp only [(subtract_yields hn).met_bind, Nat.not_lt.2 hn, if_false, htotal2.met_bind, hlast2.met_bind]
      by_cases hsame : same info.gData.localClientId (window recv 0 (n - 10)) (window recv (n - 10) 10) = true
      · simp only [hsame, Bool.true_eq_false, if_false]
        exact acceptIn_met hinside
      · simp only [hsame, if_true, met_pure]

theorem clientEventIn_met_iff (s : Option LocalData) (e : ClientEvent) :
    (clientEventIn H info s e).Met ↔ ClientRegular info s e := by
  cases s with
  | none => exact iff_of_true (met_pure _) trivial
  | some l =>
      cases e with
      | recv same buf =>
          rw [clientEventIn, met_bind, clientDecodeIn_met_iff]
          exact and_iff_left (met_pure _)
      | send d buf => exact iff_of_true (met_pure _) trivial

/-! ## Runs -/

variable (H info)

/-- All bounds hold in a run of the server, from its start on. -/
def ServerSafe (fastauth : Bool) (events : List ServerEvent) : Prop :=
  Legal (fun s e => (serverEventIn H info s e).Met) (fun s e => (serverEventIn H info s e).value)
    (some { localDataInit with fastauth := fastauth }) events

/-- All bounds hold in a run of the client. -/
def ClientSafe (fastauth : Bool) (events : List ClientEvent) : Prop :=
  Legal (fun s e => (clientEventIn H info s e).Met) (fun s e => (clientEventIn H info s e).value)
    (some { localDataInit with fastauth := fastauth }) events

/-- The parsers use only what has been received in exactly the regular runs. -/
theorem slices_inside_iff (fastauth : Bool) :
    (∀ events, ServerSafe H info fastauth events ↔
      Legal ServerRegular (fun s e => (serverEventIn H info s e).value)
        (some { localDataInit with fastauth := fastauth }) events) ∧
    (∀ events, ClientSafe H info fastauth events ↔
      Legal (ClientRegular info) (fun s e => (clientEventIn H info s e).value)
        (some { localDataInit with fastauth := fastauth }) events) := by
  have hinit : ServerState (some { localDataInit with fastauth := fastauth }) := by
    rintro _ ⟨⟩
    exact .inl ⟨rfl, rfl⟩
  refine ⟨fun events => ?_, fun events => ?_⟩
  · exact legal_congr (I := ServerState) (fun s e hs hmet => serverEventIn_state hs hmet)
      (fun s e hs => serverEventIn_met_iff hs e) hinit
  · exact legal_congr (I := fun _ => True) (fun _ _ _ _ => trivial)
      (fun s e _ => clientEventIn_met_iff s e) trivial

/-- A ClientHello that ends behind its version: the random bytes are read behind it. -/
theorem slice_outside :
    ¬ ServerSafe hmacSha1 sampleInfo false
      [.recv (fun _ _ _ => false) sampleServerDraws
        [0x16, 0x03, 0x01, 0x00, 0x06, 0x01, 0x00, 0x00, 0x02, 0x03, 0x03]] := by
  rintro ⟨hmet, -⟩
  have hregular := (serverEventIn_met_iff (by rintro _ ⟨⟩; exact .inl ⟨rfl, rfl⟩) _).1 hmet
  exact absurd (hregular rfl).1 (by decide)

end Ends

end Tls12TicketAuth
end Obfs
end SsrNative
