import SsrNative.Obfs.Tls12Ticket
import SsrNative.SsrBuffer

/-!
# Tls12Slices — what the tls1.2_ticket parsers read

`server_decode` and `client_decode` with the bounds that they rely on: that a slice lies in the bytes that
have been received, and that no length goes below zero.  The comparisons of tags are answered by an oracle,
another one in every call; with the answers that they really get the decoders are those of `Tls12Ticket`.
-/

namespace SsrNative
namespace Obfs
namespace Tls12TicketAuth

open Bytes
open Lib.Demand
open Lib.Demand.Demanding
open Lib.Framing

/-! ## The record loops -/

/-- `drain`, with the bounds of its loop body. -/
def drainIn (step : Bytes → Demanding (Peel Unit UInt8 Unit)) :
    ℕ → Bytes → Bytes → Demanding (Drained Unit UInt8 UInt8 Unit)
  | 0, recv, acc => return ⟨(), recv, acc, none⟩
  | fuel + 1, recv, acc => do
      match ← step recv with
      | .more _ => return ⟨(), recv, acc, none⟩
      | .halt _ e => return ⟨(), recv, acc, some e⟩
      | .took _ out n => drainIn step fuel (recv.drop n) (acc ++ out)

/-- The loop is safe when its body is. -/
theorem drainIn_yields {step : Unit → Bytes → Peel Unit UInt8 Unit}
    {stepIn : Bytes → Demanding (Peel Unit UInt8 Unit)} (hstep : ∀ recv, (stepIn recv).Yields (step () recv))
    (fuel : ℕ) (recv acc : Bytes) : (drainIn stepIn fuel recv acc).Yields (drain step fuel () recv acc) := by
  induction fuel generalizing recv acc with
  | zero => exact (yields_pure _ _).2 rfl
  | succ fuel ih =>
      rw [drainIn, (hstep recv).bind]
      cases hpeel : step () recv with
      | more s =>
          rw [drain_more hpeel]
          exact (yields_pure _ _).2 rfl
      | halt s e =>
          rw [drain_halt hpeel]
          exact (yields_pure _ _).2 rfl
      | took s out n =>
          rw [drain_took hpeel]
          exact ih (recv.drop n) (acc ++ out)

/-- One pass of the loop of `server_decode`. -/
def serverRecordStepIn (recv : Bytes) : Demanding (Peel Unit UInt8 Unit) :=
  if 5 < recv.length then do
    let beginning ← (zeroFilled recv).readSlice 0 3
    if beginning ≠ [0x17, 0x03, 0x03] then return .halt () ()
    else do
      let field ← (zeroFilled recv).readSlice 3 2
      let size := rdBe16 field 0
      if recv.length < size + 5 then return .more ()
      else do
        let record ← (zeroFilled recv).readSlice 5 size
        demand (size + 5) recv.length
        return .took () record (size + 5)
  else return .more ()

/-- One pass of the loop of `client_decode`. -/
def clientRecordStepIn (recv : Bytes) : Demanding (Peel Unit UInt8 Unit) :=
  if 5 < recv.length then do
    let kind ← (zeroFilled recv).read 0
    if kind ≠ 0x17 then return .halt () ()
    else do
      let field ← (zeroFilled recv).readSlice 3 2
      let size := rdBe16 field 0
      if size + 5 > recv.length then return .more ()
      else do
        let record ← (zeroFilled recv).readSlice 5 size
        demand (5 + size) recv.length
        return .took () record (5 + size)
  else return .more ()

theorem serverRecordStepIn_yields (recv : Bytes) :
    (serverRecordStepIn recv).Yields (serverRecordStep () recv) := by
  unfold serverRecordStepIn serverRecordStep
  by_cases hlong : 5 < recv.length
  · have hstart := zeroFilled_readSlice (l := recv) 0 (n := 3) (Nat.le_trans (by decide) hlong.le)
    have hfield := zeroFilled_readSlice (l := recv) 3 (n := 2) hlong.le
    simp only [hlong, if_true, hstart.bind]
    by_cases hkind : window recv 0 3 = [0x17, 0x03, 0x03]
    swap
    · simp only [hkind, ne_eq, not_false_eq_true, if_true, yields_pure]
    simp only [hkind, ne_eq, not_true_eq_false, if_false, hfield.bind, rdBe16_window]
    by_cases hcut : recv.length < rdBe16 recv 3 + 5
    · simp only [hcut, if_true, yields_pure]
    · have hsize := Nat.not_lt.1 hcut
      have hrecord := zeroFilled_readSlice (l := recv) 5 (n := rdBe16 recv 3) (by rwa [Nat.add_comm])
      simp only [hcut, if_false, hrecord.bind, (demand_yields hsize).bind, yields_pure]
  · simp only [hlong, if_false, yields_pure]

theorem clientRecordStepIn_yields (recv : Bytes) :
    (clientRecordStepIn recv).Yields (clientRecordStep () recv) := by
  unfold clientRecordStepIn clientRecordStep
  by_cases hlong : 5 < recv.length
  · have hstart := zeroFilled_read (l := recv) (i := 0) (Nat.lt_trans (by decide) hlong)
    have hfield := zeroFilled_readSlice (l := recv) 3 (n := 2) hlong.le
    simp only [hlong, if_true, hstart.bind]
    by_cases hkind : byteAt recv 0 = 0x17
    swap
    · simp only [hkind, ne_eq, not_false_eq_true, if_true, yields_pure]
    simp only [hkind, ne_eq, not_true_eq_false, if_false, hfield.bind, rdBe16_window]
    by_cases hcut : rdBe16 recv 3 + 5 > recv.length
    · simp only [hcut, if_true, yields_pure]
    · have hsize : 5 + rdBe16 recv 3 ≤ recv.length := by
        rw [Nat.add_comm]
        exact Nat.not_lt.1 hcut
      have hrecord := zeroFilled_readSlice (l := recv) 5 (n := rdBe16 recv 3) hsize
      simp only [hcut, if_false, hrecord.bind, (demand_yields hsize).bind, yields_pure]
  · simp only [hlong, if_false, yields_pure]

/-- `server_decode` with bit 4 set. -/
def serverDecodeStreamingIn (l : LocalData) (buf : Bytes) : Demanding (LocalData × Decoded) := do
  let recv := l.recvBuffer ++ buf
  let d ← drainIn serverRecordStepIn (recv.length + 1) recv []
  return ({ l with recvBuffer := d.rest }, ⟨if d.stop = none then some d.out else none, true, false⟩)

/-- `client_decode` with bit 8 set. -/
def clientDecodeStreamingIn (l : LocalData) (buf : Bytes) : Demanding (LocalData × Option Bytes) := do
  let recv := l.recvBuffer ++ buf
  let d ← drainIn clientRecordStepIn (recv.length + 1) recv []
  return ({ l with recvBuffer := d.rest }, if d.stop = none then some d.out else none)

theorem serverDecodeStreamingIn_yields (l : LocalData) (buf : Bytes) :
    (serverDecodeStreamingIn l buf).Yields (serverDecodeStreaming l buf) := by
  rw [serverDecodeStreamingIn, (drainIn_yields serverRecordStepIn_yields _ _ _).bind]
  exact (yields_pure _ _).2 rfl

theorem clientDecodeStreamingIn_yields (l : LocalData) (buf : Bytes) :
    (clientDecodeStreamingIn l buf).Yields (clientDecodeStreaming l buf) := by
  rw [clientDecodeStreamingIn, (drainIn_yields clientRecordStepIn_yields _ _ _).bind]
  exact (yields_pure _ _).2 rfl

/-! ## The decoders -/

/-- The answers to the comparisons of tags: of a client id, a message and what stands on the wire. -/
abbrev TagOracle := Bytes → Bytes → Bytes → Bool

/-- `server_decode` with bit 1 set. -/
def serverDecodeFinishIn (same : TagOracle) (l : LocalData) (buf : Bytes) : Demanding (LocalData × Decoded) :=
  let recv := l.recvBuffer ++ buf
  let l := { l with recvBuffer := recv }
  if recv.length < 11 then return (l, ⟨none, true, false⟩)
  else do
    let start ← (zeroFilled recv).readSlice 0 6
    if start ≠ [0x14] ++ tlsVersion ++ [0x00, 0x01, 0x01] then return (l, ⟨none, true, false⟩)
    else do
      let finish ← (zeroFilled recv).readSlice 6 4
      if finish ≠ [0x16] ++ tlsVersion ++ [0x00] then return (l, ⟨none, true, false⟩)
      else do
        let field ← (zeroFilled recv).readSlice 9 2
        let verifyLen := rdBe16 field 0 + 1
        if recv.length < verifyLen + 10 then return (l, ⟨some [], false, false⟩)
        else do
          let msg ← (zeroFilled recv).readSlice 0 verifyLen
          let sum ← (zeroFilled recv).readSlice verifyLen 10
          if same l.clientId msg sum = false then return (l, ⟨none, true, false⟩)
          else do
            let rest ← cut recv (verifyLen + OBFS_HMAC_SHA1_LEN)
            let l := { l with recvBuffer := rest, handshakeStatus := l.handshakeStatus ||| 4 }
            if l.handshakeStatus = -1 then return (l, ⟨some [], true, false⟩)
            else serverDecodeStreamingIn l []

/-- The checks on a complete ClientHello. -/
def checkClientHelloIn (same : TagOracle) (clientId bufCopy : Bytes) : Demanding (Bytes × Bool) := do
  let start ← (zeroFilled bufCopy).readSlice 0 2
  if start ≠ [0x01, 0x00] then return (clientId, false)
  else do
    let bufCopy ← cut bufCopy 2
    let field ← (zeroFilled bufCopy).readSlice 0 2
    let msgSize ← subtract bufCopy.length 2
    if rdBe16 field 0 ≠ msgSize then return (clientId, false)
    else do
      let bufCopy ← cut bufCopy 2
      let version ← (zeroFilled bufCopy).readSlice 0 2
      if version ≠ tlsVersion then return (clientId, false)
      else do
        let bufCopy ← cut bufCopy 2
        let verifyid ← (zeroFilled bufCopy).readSlice 0 32
        let bufCopy ← cut bufCopy 32
        let field ← (zeroFilled bufCopy).read 0
        let sessionidLen := field.toNat
        if sessionidLen < 32 then return (clientId, false)
        else do
          let sessionid ← (zeroFilled bufCopy).readSlice 1 sessionidLen
          demand (sessionidLen + 1) bufCopy.length
          let msg ← (zeroFilled verifyid).readSlice 0 22
          let sum ← (zeroFilled verifyid).readSlice 22 10
          return (sessionid, same sessionid msg sum)

/-- `server_decode` in the initial state. -/
def serverDecodeHelloIn (same : TagOracle) (l : LocalData) (buf : Bytes) : Demanding (LocalData × Decoded) :=
  let recv := l.recvBuffer ++ buf
  let l := { l with recvBuffer := recv }
  if recv.length < 3 then return (l, ⟨some [], false, false⟩)
  else do
    let start ← (zeroFilled recv).readSlice 0 3
    if start ≠ [0x16, 0x03, 0x01] then return decodeErrorReturn l
    else do
      let bufCopy ← cut recv 3
      let field ← (zeroFilled bufCopy).readSlice 0 2
      let headerLen := rdBe16 field 0
      let rest ← subtract bufCopy.length 2
      if headerLen > rest then return (l, ⟨some [], false, false⟩)
      else do
        let recv ← cut recv (headerLen + 5)
        let r ← checkClientHelloIn same l.clientId (shortenedTo bufCopy 2 headerLen)
        let l := { l with recvBuffer := recv, handshakeStatus := 1, clientId := r.1 }
        if r.2 = false then return decodeErrorReturn l
        else if 11 ≤ recv.length then do
          let q ← serverDecodeFinishIn same l []
          return (q.1, ⟨q.2.out, true, true⟩)
        else return (l, ⟨some [], false, true⟩)

/-- `server_decode`. -/
def serverDecodeIn (same : TagOracle) (l : LocalData) (buf : Bytes) : Demanding (LocalData × Decoded) :=
  if l.handshakeStatus = -1 then return (l, ⟨some buf, true, false⟩)
  else if l.handshakeStatus &&& 4 = 4 then serverDecodeStreamingIn l buf
  else if l.handshakeStatus &&& 1 = 1 then serverDecodeFinishIn same l buf
  else serverDecodeHelloIn same l buf

/-- The walk over handshake records. -/
def walkRecordsIn (recv : Bytes) : ℕ → ℕ → Demanding (Option ℕ)
  | 0, headerlength => return some headerlength
  | fuel + 1, headerlength =>
      if headerlength < recv.length then do
        let kind ← (zeroFilled recv).read headerlength
        if kind = 0x14 ∨ kind = 0x16 then
          if recv.length ≤ headerlength + 5 then return none
          else do
            let field ← (zeroFilled recv).readSlice (headerlength + 3) 2
            let next := headerlength + 5 + rdBe16 field 0
            if recv.length < next then return none else walkRecordsIn recv fuel next
        else return some headerlength
      else return some headerlength

/-- What `client_decode` does after it has accepted `headerlength` bytes. -/
def acceptIn (l : LocalData) (headerlength : ℕ) : Demanding (LocalData × Option Bytes × Bool) := do
  let recv ← cut l.recvBuffer headerlength
  let r ← clientDecodeStreamingIn
    { l with recvBuffer := recv, handshakeStatus := l.handshakeStatus ||| 8 } []
  return (r.1, r.2, true)

/-- `client_decode`; the last component is `*needsendback`. -/
def clientDecodeIn (same : TagOracle) (info : ServerInfo) (l : LocalData) (buf : Bytes) :
    Demanding (LocalData × Option Bytes × Bool) :=
  if l.handshakeStatus &&& 8 = 8 then do
    let r ← clientDecodeStreamingIn l buf
    return (r.1, r.2, false)
  else
    let recv := l.recvBuffer ++ buf
    let l := { l with recvBuffer := recv }
    let clientId := info.gData.localClientId
    if recv.length < 11 + 32 + 1 + 32 then return (l, some [], false)
    else do
      let msg ← (zeroFilled recv).readSlice 11 22
      let sum ← (zeroFilled recv).readSlice 33 10
      if same clientId msg sum = false then return (l, none, false)
      else do
        let size ← subtract recv.length 10
        let total ← (zeroFilled recv).readSlice 0 size
        let sum ← (zeroFilled recv).readSlice size 10
        if same clientId total sum = true then acceptIn l recv.length
        else do
          match ← walkRecordsIn recv recv.length 0 with
          | none => return (l, some buf, false)
          | some headerlength =>
              let size ← subtract headerlength 10
              -- What is read so far in front of the buffer, or behind it, is not known.
              if headerlength < 10 then return (l, none, false)
              else do
                let total2 ← (zeroFilled recv).readSlice 0 size
                let sum ← (zeroFilled recv).readSlice size 10
                if same clientId total2 sum = false then return (l, none, false)
                else acceptIn l headerlength

/-! ### With the comparisons as they are made -/

section Model

variable (H : Mac 20) (info : ServerInfo)

/-- The comparisons as they are made. -/
def tagOracle : TagOracle := fun clientId msg sum => tag H info clientId msg == sum

theorem checkClientHelloIn_value (clientId rec : Bytes) :
    (checkClientHelloIn (tagOracle H info) clientId rec).value = checkClientHello H info clientId rec := by
  have htake (l : Bytes) : window (window l 0 32) 0 22 = (window l 0 32).take 22 :=
    window_eq_take (by rw [window_length]; decide)
  simp only [checkClientHelloIn, value_bind, value_ite]
  simp only [checkClientHello, Region.value_readSlice, zeroFilled_slice, value_cut, value_subtract, Region.value_read,
    zeroFilled_get, value_pure, rdBe16_window, tagOracle, htake]

theorem serverDecodeFinishIn_value (l : LocalData) (buf : Bytes) :
    (serverDecodeFinishIn (tagOracle H info) l buf).value = serverDecodeFinish H info l buf := by
  simp only [serverDecodeFinishIn, value_bind, value_ite]
  simp only [serverDecodeFinish, Region.value_readSlice, zeroFilled_slice, value_cut, value_pure, rdBe16_window,
    tagOracle, (serverDecodeStreamingIn_yields _ _).2]
  generalize l.recvBuffer ++ buf = recv
  by_cases hwait : recv.length < rdBe16 recv 9 + 1 + 10
  · simp only [hwait, if_true]
  · have hsize := Nat.not_lt.1 hwait
    have hmsg : window recv 0 (rdBe16 recv 9 + 1) = recv.take (rdBe16 recv 9 + 1) :=
      window_eq_take (Nat.le_trans (by omega) hsize)
    have hrest : shortenedTo recv (rdBe16 recv 9 + 1 + OBFS_HMAC_SHA1_LEN)
        (subSize recv.length (rdBe16 recv 9 + 1 + OBFS_HMAC_SHA1_LEN)) =
        recv.drop (rdBe16 recv 9 + 1 + OBFS_HMAC_SHA1_LEN) := shortenedTo_drop hsize
    simp only [hmsg, hrest, ne_eq, beq_eq_false_iff_ne]

theorem serverDecodeIn_value (l : LocalData) (buf : Bytes) :
    (serverDecodeIn (tagOracle H info) l buf).value = serverDecode H info l buf := by
  have hhello : (serverDecodeHelloIn (tagOracle H info) l buf).value = serverDecodeHello H info l buf := by
    simp only [serverDecodeHelloIn, value_bind, value_ite]
    simp only [serverDecodeHello, Region.value_readSlice, zeroFilled_slice, value_cut, value_subtract, value_pure,
      rdBe16_window, checkClientHelloIn_value, serverDecodeFinishIn_value]
  simp only [serverDecodeIn, serverDecode, value_ite, value_pure, hhello, serverDecodeFinishIn_value,
    (serverDecodeStreamingIn_yields l buf).2]

theorem walkRecordsIn_yields (recv : Bytes) (fuel headerlength : ℕ) :
    (walkRecordsIn recv fuel headerlength).Yields (walkRecords recv fuel headerlength) := by
  induction fuel generalizing headerlength with
  | zero => exact (yields_pure _ _).2 rfl
  | succ fuel ih =>
      rw [walkRecordsIn, walkRecords]
      by_cases hinside : headerlength < recv.length
      swap
      · simp only [hinside, false_and, if_false, yields_pure]
      by_cases hkind : byteAt recv headerlength = 0x14 ∨ byteAt recv headerlength = 0x16
      swap
      · simp only [hinside, if_true, (zeroFilled_read hinside).bind, hkind, and_false, if_false, yields_pure]
      by_cases hend : recv.length ≤ headerlength + 5
      · simp only [hinside, if_true, (zeroFilled_read hinside).bind, hkind, and_self, hend, yields_pure]
      have hfield : ((zeroFilled recv).readSlice (headerlength + 3) 2).Yields (window recv (headerlength + 3) 2) :=
        zeroFilled_readSlice (headerlength + 3) (Nat.le_of_not_le hend)
      simp only [hinside, if_true, (zeroFilled_read hinside).bind, hkind, and_self, hend, if_false, hfield.bind,
        rdBe16_window]
      by_cases hbeyond : recv.length < headerlength + 5 + rdBe16 recv (headerlength + 3)
      · simp only [hbeyond, if_true, yields_pure]
      · simp only [hbeyond, if_false]
        exact ih _

/-- The walk goes forward, and not behind the end. -/
theorem walkRecords_between {recv : Bytes} {fuel headerlength n : ℕ} (hstart : headerlength ≤ recv.length)
    (h : walkRecords recv fuel headerlength = some n) : headerlength ≤ n ∧ n ≤ recv.length := by
  induction fuel generalizing headerlength with
  | zero =>
      cases h
      exact ⟨Nat.le_refl _, hstart⟩
  | succ fuel ih =>
      rw [walkRecords] at h
      dsimp only at h
      split_ifs at h with hinside hend hbeyond
      · have hnext := ih (Nat.not_lt.1 hbeyond) h
        exact ⟨by omega, hnext.2⟩
      · cases h
        exact ⟨Nat.le_refl _, hstart⟩

theorem acceptIn_value (l : LocalData) (headerlength : ℕ) :
    (acceptIn l headerlength).value =
      let r := clientDecodeStreaming
        { l with
          recvBuffer := shortenedTo l.recvBuffer headerlength (subSize l.recvBuffer.length headerlength)
          handshakeStatus := l.handshakeStatus ||| 8 } []
      (r.1, r.2, true) := by
  simp only [acceptIn, value_bind, value_cut, (clientDecodeStreamingIn_yields _ _).2, value_pure]

theorem clientDecodeIn_value (l : LocalData) (buf : Bytes) :
    (clientDecodeIn (tagOracle H info) info l buf).value = clientDecode H info l buf := by
  unfold clientDecodeIn clientDecode
  by_cases hbit : l.handshakeStatus &&& 8 = 8
  · simp only [hbit, if_true, value_bind, (clientDecodeStreamingIn_yields l buf).2, value_pure]
  simp only [hbit, if_false]
  generalize l.recvBuffer ++ buf = recv
  by_cases hshort : recv.length < 11 + 32 + 1 + 32
  · simp only [hshort, if_true, value_pure]
  have hsize : 10 ≤ recv.length := Nat.le_trans (by decide) (Nat.not_lt.1 hshort)
  have htotal : window recv 0 (recv.length - 10) = recv.take (recv.length - 10) :=
    window_eq_take (by rw [Nat.zero_add]; exact Nat.sub_le _ _)
  simp only [hshort, if_false, value_bind, value_ite]
  simp only [Region.value_readSlice, zeroFilled_slice, value_subtract, value_pure, tagOracle, beq_eq_false_iff_ne,
    beq_iff_eq, subSize_of_le hsize, htotal, acceptIn_value, (walkRecordsIn_yields recv _ _).2]
  simp only [ne_eq, eq_comm (a := window recv 33 10), eq_comm (a := window recv (recv.length - 10) 10)]
  cases hwalk : walkRecords recv recv.length 0 with
  | none => simp only [value_pure]
  | some headerlength =>
      have hinside := (walkRecords_between (Nat.zero_le _) hwalk).2
      by_cases hlow : headerlength < 10
      · simp only [hlow, if_true, value_bind, value_pure]
      have htotal2 : window recv 0 (headerlength - 10) = recv.take (headerlength - 10) :=
        window_eq_take (by rw [Nat.zero_add]; exact (Nat.sub_le _ _).trans hinside)
      simp only [hlow, if_false, value_bind, value_ite]
      simp only [Region.value_readSlice, zeroFilled_slice, value_subtract, value_pure, acceptIn_value, htotal2,
        subSize_of_le (Nat.not_lt.1 hlow), eq_comm (a := window recv (headerlength - 10) 10)]

end Model

end Tls12TicketAuth
end Obfs
end SsrNative
