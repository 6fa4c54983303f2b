import SsrNative.Client.TlsReceive
import SsrNative.TunnelDrain

/-!
# TlsRelay — a tunnel over TLS that relays, at the end of a stream

In the streaming stage the client over TLS reads from the application on the incoming socket and from
the server on the TLS connection, which `uv-mbed.c` runs beside the tunnel.  A shutdown closes the
incoming socket at once, with what is not yet written there.  The TLS connection goes through
`uv_shutdown` first, which lets its writes complete.

The end of the server's stream is a close frame or the end of the TLS stream.  A close frame that comes
with data for the application leaves the tunnel open until the next read.  `tlsNothingCut_iff` says which
orders of callbacks lose nothing.
-/

namespace SsrNative
namespace Client

open Bytes
open Lib.Drain
open Lib.Transition
open Tunnel

/-! ## The TLS connection -/

/-- The part of `struct uv_mbed_s` that writing and closing work on. -/
structure UvMbed where
  /-- Everything handed to `uv_write`, oldest first. -/
  written : List Bytes
  writes : ℕ
  /-- `uv_shutdown` was asked for. -/
  shutdownRequested : Bool
  handleClosing : Bool
deriving DecidableEq

/-- `uv_mbed_write` on a connection that stands. -/
def uvMbedWrite (m : UvMbed) (buf : Bytes) : UvMbed :=
  { m with written := m.written ++ [buf], writes := m.writes + 1 }

/-- `uv_mbed_close` on a connection that stands. -/
def uvMbedClose (m : UvMbed) : UvMbed :=
  if m.handleClosing then m else { m with shutdownRequested := true }

/-- `_uv_tcp_shutdown_cb`, which libuv calls when the writes have completed. -/
def uvTcpShutdownCb (m : UvMbed) : UvMbed := { m with handleClosing := true }

/-- The writes in flight and all writes made. -/
def UvMbed.load (m : UvMbed) : ℕ × ℕ := (m.writes, m.written.length)

/-- The write number `i` of the connection has completed. -/
def UvMbed.Completed (m : UvMbed) (i : ℕ) : Prop := i + m.writes < m.written.length

/-! ## The tunnel -/

/-- `struct client_ctx` with its TLS connection. -/
structure TlsCtx (σ ρ : Type*) where
  client : TlsTunnel σ ρ
  mbed : UvMbed

section Callbacks

variable {σ ρ : Type*} (env : TlsEnv σ ρ)

def tunnelTlsIsInStreaming (ctx : TlsCtx σ ρ) : Bool := decide (ctx.client.stage = .tlsStreaming)

def setClient (t : TunnelCtx (TlsCtx σ ρ)) (client : TlsTunnel σ ρ) : TunnelCtx (TlsCtx σ ρ) :=
  { t with data := { t.data with client := client } }

def setMbed (t : TunnelCtx (TlsCtx σ ρ)) (mbed : UvMbed) : TunnelCtx (TlsCtx σ ρ) :=
  { t with data := { t.data with mbed := mbed } }

/-- `tunnel_shutdown` of `client.c` with `client_tunnel_shutdown`, which closes the TLS connection and
then the sockets. -/
def tunnelTlsShutdown (t : TunnelCtx (TlsCtx σ ρ)) : TunnelCtx (TlsCtx σ ρ) :=
  if t.isTerminated then t
  else tunnelShutdown (setMbed (setClient t t.data.client.shutdown) (uvMbedClose t.data.mbed))

/-- What a callback sends; a datagram goes through the UDP listener. -/
def deliver (t : TunnelCtx (TlsCtx σ ρ)) : Sent → TunnelCtx (TlsCtx σ ρ)
  | .tls buf => setMbed t (uvMbedWrite t.data.mbed buf)
  | .incoming buf => tunnelSocketCtxWrite tunnelTlsIsInStreaming t .incoming buf
  | .udp _ => t

/-- A callback leaves the client's data like this, and sends this. -/
def perform (t : TunnelCtx (TlsCtx σ ρ)) (r : TlsTunnel σ ρ × List Sent) : TunnelCtx (TlsCtx σ ρ) :=
  let t := r.2.foldl deliver (setClient t r.1)
  if r.1.isTerminated then tunnelTlsShutdown t else t

/-- `tunnel_tls_client_incoming_streaming`. -/
def tunnelTlsClientIncomingStreaming (t : TunnelCtx (TlsCtx σ ρ)) (side : Side) (data : Bytes) :
    TunnelCtx (TlsCtx σ ρ) :=
  let t := t.check (decide (side = .incoming))
  if (t.socket side).wrstate = .done then setStates t side (t.socket side).rdstate .stop
  else if (t.socket side).rdstate = .done then
    let t := setStates t side .stop (t.socket side).wrstate
    perform t (encryptAndSend env t.data.client data)
  else t.check false

/-- The handlers in the streaming stage; nothing is connected or looked up any more. -/
def tlsHandlers : Handlers (TlsCtx σ ρ) where
  tunnelIsInStreaming := tunnelTlsIsInStreaming
  tunnelReadDone := tunnelTlsClientIncomingStreaming env
  tunnelWriteDone t side := tunnelTlsClientIncomingStreaming env t side []
  tunnelOutgoingConnectedDone t _ := t
  tunnelOnGetaddrinfoDone t _ := t
  tunnelTimeoutExpireDone t _ := t
  tunnelArriveEndOfFile t _ := tunnelTlsShutdown t

/-! ## What is observed -/

def UV_EOF : ℤ := -4095

/-- A callback: of the incoming socket, or of the TLS connection. -/
inductive TlsRelayEvent where
  | socket (e : Event)
  | dataReceived (status : ℤ) (data : Bytes)
  | written
  | shutdownDone
deriving DecidableEq

def tlsRelayStep (t : TunnelCtx (TlsCtx σ ρ)) : TlsRelayEvent → TunnelCtx (TlsCtx σ ρ)
  | .socket e => Tunnel.step (tlsHandlers env) t e
  | .dataReceived status data => perform t (tlsCliOnDataReceived env t.data.client status data)
  | .written => setMbed t { t.data.mbed with writes := t.data.mbed.writes - 1 }
  | .shutdownDone => setMbed t (uvTcpShutdownCb t.data.mbed)

/-- At the beginning of the streaming stage; `outgoing` is the TLS connection. -/
def tlsBegin (t : TunnelCtx (TlsCtx σ ρ)) : Watched (TlsCtx σ ρ) where
  tunnel := t
  before
    | .incoming => t.incoming.written.length
    | .outgoing => t.data.mbed.written.length
  ended _ := false

/-- The server's stream has ended with the TLS stream or with a close frame. -/
def tlsWatchedStep (w : Watched (TlsCtx σ ρ)) (e : TlsRelayEvent) : Watched (TlsCtx σ ρ) :=
  { w with
    tunnel := tlsRelayStep env w.tunnel e
    ended :=
      match e with
      | .socket (.readFailed side true) => Function.update w.ended side true
      | .dataReceived status _ =>
          if status < 0 ∨ (tlsRelayStep env w.tunnel e).data.client.tlsIsEof = true then
            Function.update w.ended .outgoing true
          else w.ended
      | _ => w.ended }

/-- Reads, completed writes and ends of streams, and what libuv calls back for the TLS connection of a
tunnel that was shut down.  `tunnel_get_alloc_size` bounds a read of the socket, so that the cipher comes
back from every plaintext. -/
def TlsRelayed (w : Watched (TlsCtx σ ρ)) : TlsRelayEvent → Prop
  | .socket (.read side data) => side = .incoming ∧ data.length ≤ 2048 ∧ Relayed w (.read side data)
  | .socket (.written side ok) => side = .incoming ∧ Relayed w (.written side ok)
  | .socket (.readFailed side eof) => side = .incoming ∧ Relayed w (.readFailed side eof)
  | .socket _ => False
  | .dataReceived status _ => w.tunnel.isTerminated = false ∧ (0 ≤ status ∨ status = UV_EOF)
  | .written => 0 < w.tunnel.data.mbed.writes
  | .shutdownDone => w.tunnel.data.mbed.shutdownRequested = true ∧ w.tunnel.data.mbed.writes = 0

instance (w : Watched (TlsCtx σ ρ)) : ∀ e, Decidable (TlsRelayed w e)
  | .socket (.read _ _) => inferInstanceAs (Decidable (_ ∧ _ ∧ _))
  | .socket (.written _ _) => inferInstanceAs (Decidable (_ ∧ _))
  | .socket (.readFailed _ _) => inferInstanceAs (Decidable (_ ∧ _))
  | .dataReceived _ _ => inferInstanceAs (Decidable (_ ∧ _))
  | .written => inferInstanceAs (Decidable (_ < _))
  | .shutdownDone => inferInstanceAs (Decidable (_ ∧ _))
  | .socket (.connected _ _) | .socket (.resolved _ _) | .socket (.timeout _)
  | .socket (.handleClosed _) | .socket (.timerClosed _) | .socket .shutdown
  | .socket (.close _) => inferInstanceAs (Decidable False)

/-- When the tunnel is shut down after the end of the server's stream, the application has got
everything; and the TLS connection is closed only when the server has. -/
structure TlsNothingCut (w : Watched (TlsCtx σ ρ)) : Prop where
  socket : w.tunnel.isTerminated = true → w.ended .outgoing = true → w.Drained .incoming
  connection : w.tunnel.data.mbed.handleClosing = true → ∀ i, w.before .outgoing ≤ i →
    i < w.tunnel.data.mbed.written.length → w.tunnel.data.mbed.Completed i

/-- The client after the frames that a read completes. -/
def afterFrames (t : TlsTunnel σ ρ) (data : Bytes) : TlsTunnel σ ρ :=
  receiveLoop env ((t.serverDeliveryCache ++ data).length + 1)
    { t with serverDeliveryCache := t.serverDeliveryCache ++ data }

/-- An event that cuts nothing off: where it shuts the tunnel down, the server's stream has not ended, or
the application has got everything.  A read of the TLS connection shuts it down when the stream has ended
and the read brings nothing for the application. -/
def TlsSafe (w : Watched (TlsCtx σ ρ)) : TlsRelayEvent → Prop
  | .socket (.read _ data) =>
      data = [] ∨ (env.tunnelCipherClientEncrypt w.tunnel.data.client.eCtx data).2.2 = true ∨
        w.ended .outgoing = false ∨ w.Drained .incoming
  | .socket (.readFailed _ _) => w.ended .outgoing = false ∨ w.Drained .incoming
  | .dataReceived status data =>
      (0 ≤ status ∧ ((afterFrames env w.tunnel.data.client data).localWriteCache ≠ [] ∨
        (afterFrames env w.tunnel.data.client data).tlsIsEof = false)) ∨ w.Drained .incoming
  | _ => True

instance (w : Watched (TlsCtx σ ρ)) : ∀ e, Decidable (TlsSafe env w e)
  | .socket (.read _ _) => inferInstanceAs (Decidable (_ ∨ _ ∨ _ ∨ _))
  | .socket (.readFailed _ _) => inferInstanceAs (Decidable (_ ∨ _))
  | .dataReceived _ _ => inferInstanceAs (Decidable (_ ∨ _))
  | .written | .shutdownDone => inferInstanceAs (Decidable True)
  | .socket (.written _ _) | .socket (.connected _ _) | .socket (.resolved _ _)
  | .socket (.timeout _) | .socket (.handleClosed _) | .socket (.timerClosed _)
  | .socket .shutdown | .socket (.close _) => inferInstanceAs (Decidable True)

end Callbacks

/-! ## The tunnel as a relay -/

section View

variable {σ ρ : Type*} (env : TlsEnv σ ρ)

/-- The TLS connection completes its writes before it closes; the incoming socket does not. -/
def tlsSides : Policy Side where
  peer := Side.other
  lingers := none
  graceful side := decide (side = .outgoing)

/-- The writes in flight and all writes made, of the incoming socket and of the TLS connection. -/
def tlsLoad (t : TunnelCtx (TlsCtx σ ρ)) : Side → ℕ × ℕ
  | .incoming => load t .incoming
  | .outgoing => t.data.mbed.load

def tlsView (w : Watched (TlsCtx σ ρ)) : State Side where
  pending side := (tlsLoad w.tunnel side).1
  relayed side := (tlsLoad w.tunnel side).2 - w.before side
  ended := w.ended
  closing := false
  closed := w.tunnel.isTerminated

/-- The move that an event is. -/
def tlsMove (w : Watched (TlsCtx σ ρ)) : TlsRelayEvent → Move Side
  | .socket (.read _ data) =>
      if data = [] then .pass .incoming false
      else if (env.tunnelCipherClientEncrypt w.tunnel.data.client.eCtx data).2.2 = true then
        .pass .incoming true
      else .refuse .incoming
  | .socket (.written _ _) => .written .incoming
  | .socket (.readFailed _ _) => .finish .incoming
  | .socket _ => .pass .incoming false
  | .dataReceived status data =>
      if status < 0 then .finish .outgoing
      else if (afterFrames env w.tunnel.data.client data).localWriteCache = [] then
        if (afterFrames env w.tunnel.data.client data).tlsIsEof = true then .finish .outgoing
        else .pass .outgoing false
      else if (afterFrames env w.tunnel.data.client data).tlsIsEof = true then .notice .outgoing
      else .pass .outgoing true
  | .written => .written .outgoing
  | .shutdownDone => .pass .incoming false

variable {env} {w : Watched (TlsCtx σ ρ)}

theorem drained_incoming_iff :
    Lib.Drain.Drained tlsSides (tlsView w) .outgoing ↔ w.Drained .incoming := by
  rw [Watched.drained_iff]
  exact or_iff_right Bool.false_ne_true

/-- What the application has sent is never cut off. -/
theorem drained_outgoing : Lib.Drain.Drained tlsSides (tlsView w) .incoming := .inl rfl

/-- What it takes that a shutdown cuts nothing off. -/
theorem all_drained_iff :
    (∀ side, (tlsView w).ended side = true → Lib.Drain.Drained tlsSides (tlsView w) side) ↔
      w.ended .outgoing = false ∨ w.Drained .incoming := by
  rw [← drained_incoming_iff]
  constructor
  · intro hall
    cases hended : w.ended .outgoing with
    | false => exact .inl rfl
    | true => exact .inr (hall .outgoing hended)
  · rintro (hended | hdrained) side hside
    · cases side with
      | incoming => exact drained_outgoing
      | outgoing => exact absurd (hended.symm.trans hside) Bool.false_ne_true
    · cases side with
      | incoming => exact drained_outgoing
      | outgoing => exact hdrained

theorem complete_iff : Complete tlsSides (tlsView w) ↔
    (w.tunnel.isTerminated = true → w.ended .outgoing = true → w.Drained .incoming) := by
  refine forall_congr' fun _ => all_drained_iff.trans ?_
  cases w.ended .outgoing with
  | false => simp
  | true => simp

theorem sound_iff_tlsSafe (env : TlsEnv σ ρ) (w : Watched (TlsCtx σ ρ)) (e : TlsRelayEvent) :
    Sound tlsSides (tlsView w) (tlsMove env w e) ↔ TlsSafe env w e := by
  -- no end lingers, and the TLS connection is always drained
  have hfinish : Sound tlsSides (tlsView w) (.finish .outgoing) ↔ w.Drained .incoming := by
    refine (or_iff_right nofun).trans ?_
    rw [all_drained_iff, drained_incoming_iff]
    exact and_iff_left_of_imp .inr
  cases e with
  | socket e =>
      cases e with
      | read side data =>
          unfold tlsMove TlsSafe
          dsimp only
          split_ifs with hdata hacc
          · exact iff_of_true trivial (.inl hdata)
          · exact iff_of_true trivial (.inr (.inl hacc))
          · simp only [hdata, hacc, Bool.false_eq_true, false_or]
            exact all_drained_iff
      | readFailed side eof =>
          refine (or_iff_right nofun).trans ?_
          rw [all_drained_iff]
          exact and_iff_right drained_outgoing
      | written side ok => exact iff_of_true nofun trivial
      | connected side ok => exact Iff.rfl
      | resolved side ok => exact Iff.rfl
      | timeout side => exact Iff.rfl
      | handleClosed side => exact Iff.rfl
      | timerClosed side => exact Iff.rfl
      | shutdown => exact Iff.rfl
      | close side => exact Iff.rfl
  | dataReceived status data =>
      unfold tlsMove TlsSafe
      dsimp only
      by_cases hstatus : status < 0
      · rw [if_pos hstatus, hfinish]
        exact (or_iff_right fun h => absurd h.1 (Int.not_le.2 hstatus)).symm
      · rw [if_neg hstatus]
        have hok : 0 ≤ status := Int.not_lt.1 hstatus
        split_ifs with hnil heof heof
        · rw [hfinish]
          exact (or_iff_right fun h => h.2.elim (absurd hnil) fun h => by rw [heof] at h; cases h).symm
        · exact iff_of_true trivial (.inl ⟨hok, .inr (Bool.eq_false_iff.2 heof)⟩)
        · exact iff_of_true trivial (.inl ⟨hok, .inl hnil⟩)
        · exact iff_of_true trivial (.inl ⟨hok, .inl hnil⟩)
  | written => exact iff_of_true nofun trivial
  | shutdownDone => exact Iff.rfl

end View

/-! ## Steps -/

section Steps

variable {σ ρ : Type*} {env : TlsEnv σ ρ} {t t' : TunnelCtx (TlsCtx σ ρ)} {w : Watched (TlsCtx σ ρ)}

/-- A tunnel over TLS that relays TCP, between two callbacks. -/
structure TlsOpen (t : TunnelCtx (TlsCtx σ ρ)) : Prop where
  flows : Flows t
  stage : t.data.client.stage = .tlsStreaming
  live : t.data.client.isTerminated = false
  written : t.data.client.localWriteCache = []
  tcp : t.data.client.udpDataCtx = none
  connected : t.data.mbed.shutdownRequested = false ∧ t.data.mbed.handleClosing = false

/-- A callback leaves the tunnel relaying, with the writes `l`. -/
structure TlsGoesOn (l : Side → ℕ × ℕ) (t' : TunnelCtx (TlsCtx σ ρ)) : Prop where
  isOpen : TlsOpen t'
  load_eq : tlsLoad t' = l

/-- A callback has shut the tunnel down and written nothing; the TLS connection is not closed yet. -/
structure TlsEnds (t t' : TunnelCtx (TlsCtx σ ρ)) : Prop where
  isTerminated_eq : t'.isTerminated = true
  load_eq : tlsLoad t' = tlsLoad t
  handleClosing_eq : t'.data.mbed.handleClosing = t.data.mbed.handleClosing

theorem tlsLoad_congr (hload : load t' = load t) (hdata : t'.data = t.data) : tlsLoad t' = tlsLoad t := by
  funext side
  cases side with
  | incoming => exact congrFun hload .incoming
  | outgoing => exact congrArg (fun ctx : TlsCtx σ ρ => ctx.mbed.load) hdata

theorem TlsOpen.congr (h : TlsOpen t) (hf : Flows t') (hdata : t'.data = t.data) : TlsOpen t' := by
  refine ⟨hf, ?_, ?_, ?_, ?_, ?_⟩
  · rw [hdata]
    exact h.stage
  · rw [hdata]
    exact h.live
  · rw [hdata]
    exact h.written
  · rw [hdata]
    exact h.tcp
  · rw [hdata]
    exact h.connected

theorem TlsEnds.of_eq {u : TunnelCtx (TlsCtx σ ρ)} (he : TlsEnds u t') (hl : tlsLoad u = tlsLoad t)
    (hc : u.data.mbed.handleClosing = t.data.mbed.handleClosing) : TlsEnds t t' :=
  ⟨he.isTerminated_eq, he.load_eq.trans hl, he.handleClosing_eq.trans hc⟩

/-- A shutdown asks the TLS connection to close and leaves its writes to libuv. -/
theorem tlsEnds_shutdown (hopen : t.isTerminated = false) : TlsEnds t (tunnelTlsShutdown t) := by
  have hne : ¬t.isTerminated = true := by
    rw [hopen]
    exact Bool.false_ne_true
  unfold tunnelTlsShutdown
  rw [if_neg hne]
  set u := setMbed (setClient t t.data.client.shutdown) (uvMbedClose t.data.mbed)
  have hmbed : (tunnelShutdown u).data.mbed = uvMbedClose t.data.mbed :=
    congrArg TlsCtx.mbed (tunnelShutdown_data u)
  have hclose : (uvMbedClose t.data.mbed).writes = t.data.mbed.writes ∧
      (uvMbedClose t.data.mbed).written = t.data.mbed.written ∧
      (uvMbedClose t.data.mbed).handleClosing = t.data.mbed.handleClosing := by
    unfold uvMbedClose
    split_ifs
    · exact ⟨rfl, rfl, rfl⟩
    · exact ⟨rfl, rfl, rfl⟩
  refine ⟨tunnelShutdown_isTerminated u, ?_, ?_⟩
  · funext side
    cases side with
    | incoming => exact (congrFun (load_shutdown u) .incoming).trans rfl
    | outgoing => simp only [tlsLoad, UvMbed.load, hmbed, hclose]
  · rw [hmbed, hclose.2.2]

theorem tlsLoad_setClient (t : TunnelCtx (TlsCtx σ ρ)) (client : TlsTunnel σ ρ) :
    tlsLoad (setClient t client) = tlsLoad t := by
  funext side
  cases side with
  | incoming => exact congrFun (load_withData t _) .incoming
  | outgoing => rfl

theorem perform_of_live {r : TlsTunnel σ ρ × List Sent} (h : r.1.isTerminated = false) :
    perform t r = r.2.foldl deliver (setClient t r.1) :=
  if_neg (by rw [h]; exact Bool.false_ne_true)

theorem tlsEnds_perform (hopen : t.isTerminated = false) (client : TlsTunnel σ ρ) :
    TlsEnds t (perform t (client.shutdown, [])) := by
  have hterm : client.shutdown.isTerminated = true := rfl
  have heq : perform t (client.shutdown, []) = tunnelTlsShutdown (setClient t client.shutdown) := by
    unfold perform
    dsimp only
    rw [if_pos hterm]
    rfl
  have hends : TlsEnds (setClient t client.shutdown) (perform t (client.shutdown, [])) := by
    rw [heq]
    exact tlsEnds_shutdown hopen
  exact hends.of_eq (tlsLoad_setClient t _) rfl

/-! ### The application -/

variable (env) in
/-- What was read from the application goes into a frame, or the cipher refuses it. -/
theorem clientIncomingStreaming_read (h : TlsOpen t) (hrd : t.incoming.rdstate = .done) (data : Bytes) :
    ((env.tunnelCipherClientEncrypt t.data.client.eCtx data).2.2 = true →
      TlsGoesOn (addWrite (tlsLoad t) .outgoing) (tunnelTlsClientIncomingStreaming env t .incoming data)) ∧
    (¬ (env.tunnelCipherClientEncrypt t.data.client.eCtx data).2.2 = true →
      TlsEnds t (tunnelTlsClientIncomingStreaming env t .incoming data)) := by
  have hsock := h.flows.streams .incoming
  set u := setStates t .incoming .stop t.incoming.wrstate
  have hfu : Flows u := h.flows.setSocket ⟨⟨hsock.isTerminated_eq, hsock.handleClosing_eq,
    hsock.timerClosing_eq⟩, hsock.wrstate_ne, hsock.connects_eq, hsock.lookups_eq⟩
  have hlu : tlsLoad u = tlsLoad t := by
    refine tlsLoad_congr (load_setSocket ?_ ?_) rfl
    · rfl
    · rfl
  have heq : tunnelTlsClientIncomingStreaming env t .incoming data =
      perform u (encryptAndSend env t.data.client data) :=
    (if_neg hsock.wrstate_ne).trans (if_pos hrd)
  rw [heq]
  constructor
  · intro hok
    rw [encryptAndSend, if_pos hok, perform_of_live h.live]
    refine ⟨⟨(hfu.withData _).withData _, h.stage, h.live, h.written, h.tcp, h.connected⟩, ?_⟩
    rw [← hlu]
    funext side
    cases side with
    | incoming => rfl
    | outgoing =>
        rw [addWrite, Function.update_self]
        simp [tlsLoad, UvMbed.load, deliver, setMbed, setClient, uvMbedWrite]
  · intro hno
    rw [encryptAndSend, if_neg hno]
    exact (tlsEnds_perform hfu.isTerminated_eq _).of_eq hlu rfl

/-- A write to the application has completed. -/
theorem clientIncomingStreaming_write {u : TunnelCtx (TlsCtx σ ρ)} (h : TlsOpen t)
    (hdata : u.data = t.data) (hf : Flows (setStates u .incoming u.incoming.rdstate .stop))
    (hwr : u.incoming.wrstate = .done) :
    TlsGoesOn (tlsLoad u) (tunnelTlsClientIncomingStreaming env u .incoming []) := by
  have heq : tunnelTlsClientIncomingStreaming env u .incoming [] =
      setStates u .incoming u.incoming.rdstate .stop := if_pos hwr
  rw [heq]
  refine ⟨h.congr hf hdata, tlsLoad_congr (load_setSocket ?_ ?_) rfl⟩
  · rfl
  · rfl

/-! ### The server -/

variable (env) in
theorem afterFrames_sendSide (t : TlsTunnel σ ρ) (data : Bytes) :
    (afterFrames env t data).stage = t.stage ∧
      (afterFrames env t data).isTerminated = t.isTerminated ∧
      (t.udpDataCtx = none → (afterFrames env t data).udpDataCtx = none) := by
  obtain ⟨hside, hterm⟩ := receiveLoop_sendSide env ((t.serverDeliveryCache ++ data).length + 1)
    { t with serverDeliveryCache := t.serverDeliveryCache ++ data }
  simp only [TlsTunnel.sendSide, Prod.mk.injEq] at hside
  refine ⟨hside.1, hterm, fun htcp => ?_⟩
  refine Option.map_eq_none_iff.1 (hside.2.2.2.2.2.trans ?_)
  rw [htcp]
  rfl

/-- A read of the TLS connection, for TCP. -/
theorem onStreamingData_tcp {t : TlsTunnel σ ρ} (htcp : t.udpDataCtx = none) (data : Bytes) :
    onStreamingData env t data =
      if (afterFrames env t data).localWriteCache = [] then
        if (afterFrames env t data).tlsIsEof = true then ((afterFrames env t data).shutdown, [])
        else (afterFrames env t data, [])
      else ({ afterFrames env t data with localWriteCache := [] },
        [.incoming (afterFrames env t data).localWriteCache]) := by
  have hudp := (afterFrames_sendSide env t data).2.2 htcp
  have heq : receiveLoop env ((t.serverDeliveryCache ++ data).length + 1)
    { t with serverDeliveryCache := t.serverDeliveryCache ++ data } = afterFrames env t data := rfl
  rw [onStreamingData]
  dsimp only
  rw [heq, hudp]
  dsimp only
  by_cases hnil : (afterFrames env t data).localWriteCache = []
  · by_cases heof : (afterFrames env t data).tlsIsEof = true
    · rw [if_pos ⟨hnil, heof⟩, if_pos hnil, if_pos heof]
    · rw [if_neg fun h => heof h.2, if_pos hnil, if_pos hnil, if_neg heof]
  · rw [if_neg fun h => hnil h.1, if_neg hnil, if_neg hnil]

theorem deliver_client (t : TunnelCtx (TlsCtx σ ρ)) (s : Sent) :
    (deliver t s).data.client = t.data.client := by
  cases s with
  | tls buf => rfl
  | incoming buf => exact congrArg TlsCtx.client (tunnelSocketCtxWrite_data ..)
  | udp buf => rfl

/-- A shutdown leaves the mark of a close frame as it is. -/
theorem perform_tlsIsEof (t : TunnelCtx (TlsCtx σ ρ)) (r : TlsTunnel σ ρ × List Sent) :
    (perform t r).data.client.tlsIsEof = r.1.tlsIsEof := by
  have hsent : ∀ (sent : List Sent) (u : TunnelCtx (TlsCtx σ ρ)),
      (sent.foldl deliver u).data.client = u.data.client := by
    intro sent
    induction sent with
    | nil => exact fun _ => rfl
    | cons s sent ih => exact fun u => (ih _).trans (deliver_client u s)
  have hshutdown : ∀ u : TunnelCtx (TlsCtx σ ρ),
      (tunnelTlsShutdown u).data.client.tlsIsEof = u.data.client.tlsIsEof := by
    intro u
    unfold tunnelTlsShutdown
    split_ifs
    · rfl
    · rw [tunnelShutdown_data]
      rfl
  unfold perform
  dsimp only
  split_ifs
  · rw [hshutdown, hsent]
    rfl
  · rw [hsent]
    rfl

variable (env) in
/-- A read of the TLS connection: the tunnel is shut down, goes on, or hands over what has arrived. -/
theorem dataReceived_outcome (h : TlsOpen t) {status : ℤ} (hstatus : 0 ≤ status) (data : Bytes) :
    (perform t (tlsCliOnDataReceived env t.data.client status data)).data.client.tlsIsEof =
        (afterFrames env t.data.client data).tlsIsEof ∧
      if (afterFrames env t.data.client data).localWriteCache = [] then
        if (afterFrames env t.data.client data).tlsIsEof = true then
          TlsEnds t (perform t (tlsCliOnDataReceived env t.data.client status data))
        else TlsGoesOn (tlsLoad t) (perform t (tlsCliOnDataReceived env t.data.client status data))
      else TlsGoesOn (addWrite (tlsLoad t) .incoming)
        (perform t (tlsCliOnDataReceived env t.data.client status data)) := by
  have hcall : tlsCliOnDataReceived env t.data.client status data =
      onStreamingData env t.data.client data := by
    unfold tlsCliOnDataReceived
    rw [h.live, if_neg Bool.false_ne_true, if_neg (Int.not_lt.2 hstatus), h.stage]
  obtain ⟨hstage, hterm, htcp⟩ := afterFrames_sendSide env t.data.client data
  rw [perform_tlsIsEof, hcall, onStreamingData_tcp h.tcp]
  split_ifs with hnil heof
  · exact ⟨rfl, tlsEnds_perform h.flows.isTerminated_eq _⟩
  · refine ⟨rfl, ?_⟩
    rw [perform_of_live (hterm.trans h.live)]
    exact ⟨⟨h.flows.withData _, hstage.trans h.stage, hterm.trans h.live, hnil, htcp h.tcp, h.connected⟩,
      tlsLoad_setClient t _⟩
  · -- the application gets the data in one write
    refine ⟨rfl, ?_⟩
    have hlive : ({ afterFrames env t.data.client data with localWriteCache := [] }).isTerminated =
        false := hterm.trans h.live
    rw [perform_of_live hlive]
    set u := setClient t { afterFrames env t.data.client data with localWriteCache := [] }
    set out := (afterFrames env t.data.client data).localWriteCache
    have hfu : Flows u := h.flows.withData _
    have hu : TlsOpen u := ⟨hfu, hstage.trans h.stage, hlive, rfl, htcp h.tcp, h.connected⟩
    have hdata : (deliver u (.incoming out)).data = u.data := tunnelSocketCtxWrite_data ..
    have hload : load (deliver u (.incoming out)) = addWrite (load u) .incoming :=
      load_write hfu tunnelTlsIsInStreaming out
    refine ⟨hu.congr (hfu.socketWrite _ out) hdata, ?_⟩
    rw [← tlsLoad_setClient t { afterFrames env t.data.client data with localWriteCache := [] }]
    funext side
    cases side with
    | incoming => exact congrFun hload .incoming
    | outgoing => exact congrArg (fun ctx : TlsCtx σ ρ => ctx.mbed.load) hdata

/-! ## What an event does to what is observed -/

/-- A tunnel that is open relays, and a TLS connection that is closed has completed its writes. -/
structure TlsRuns (w : Watched (TlsCtx σ ρ)) : Prop where
  isOpen : w.tunnel.isTerminated = false → TlsOpen w.tunnel
  before_le : ∀ side, w.before side ≤ (tlsLoad w.tunnel side).2
  closed : w.tunnel.data.mbed.handleClosing = true →
    w.tunnel.isTerminated = true ∧ w.tunnel.data.mbed.writes = 0

theorem tlsNothingCut_iff_complete (hw : TlsRuns w) :
    TlsNothingCut w ↔ Complete tlsSides (tlsView w) := by
  rw [complete_iff]
  refine ⟨fun h => h.socket, fun h => ⟨h, fun hclosed i _ hi => ?_⟩⟩
  unfold UvMbed.Completed
  rw [(hw.closed hclosed).2]
  exact hi

theorem tlsView_of_load {w' : Watched (TlsCtx σ ρ)} {l : Side → ℕ × ℕ} (hl : tlsLoad w'.tunnel = l)
    (hbefore : w'.before = w.before) :
    tlsView w' =
      { pending := fun side => (l side).1
        relayed := fun side => (l side).2 - w.before side
        ended := w'.ended
        closing := false
        closed := w'.tunnel.isTerminated } := by
  subst hl
  rw [tlsView, hbefore]

/-- One more write, as the relay counts. -/
theorem tlsView_addWrite (hw : TlsRuns w) (s : Side) (ended : Side → Bool) (c : Bool) :
    ({ pending := fun side => (addWrite (tlsLoad w.tunnel) s side).1
       relayed := fun side => (addWrite (tlsLoad w.tunnel) s side).2 - w.before side
       ended := ended
       closing := false
       closed := c } : State Side) =
      { ({ tlsView w with ended := ended } : State Side).handOver s with closed := c } := by
  have hle := hw.before_le s
  ext side
  · by_cases hs : side = s
    · subst hs
      simp [State.handOver, addWrite, tlsView]
    · simp [State.handOver, addWrite, tlsView, hs]
  · by_cases hs : side = s
    · subst hs
      simp only [State.handOver, addWrite, tlsView, Function.update_self]
      omega
    · simp [State.handOver, addWrite, tlsView, hs]
  · rfl
  · rfl
  · rfl

/-- One write less in flight. -/
theorem tlsView_dropWrite {w' : Watched (TlsCtx σ ρ)} {s : Side}
    (hl : tlsLoad w'.tunnel = dropWrite (tlsLoad w.tunnel) s) (hbefore : w'.before = w.before)
    (hended : w'.ended = w.ended) (hterm : w'.tunnel.isTerminated = w.tunnel.isTerminated) :
    tlsView w' = Lib.Drain.step tlsSides (tlsView w) (.written s) := by
  rw [tlsView_of_load hl hbefore, hended, hterm]
  ext side
  · exact congrFun (dropWrite_pending (tlsLoad w.tunnel) s) side
  · simp only [dropWrite_written]
    rfl
  · rfl
  · rfl
  · simp [Lib.Drain.step, State.wrote, tlsView]

/-- The tunnel is as open as it was. -/
theorem TlsGoesOn.isTerminated_eq {l : Side → ℕ × ℕ} (hg : TlsGoesOn l t')
    (hopen : t.isTerminated = false) : t'.isTerminated = t.isTerminated :=
  hg.isOpen.flows.isTerminated_eq.trans hopen.symm

theorem TlsGoesOn.runs {w' : Watched (TlsCtx σ ρ)} {l : Side → ℕ × ℕ} (hg : TlsGoesOn l w'.tunnel)
    (hbefore : w'.before = w.before) (hle : ∀ side, w.before side ≤ (l side).2) : TlsRuns w' := by
  refine ⟨fun _ => hg.isOpen, fun side => ?_, fun hclosed => ?_⟩
  · rw [hbefore, hg.load_eq]
    exact hle side
  · rw [hg.isOpen.connected.2] at hclosed
    cases hclosed

theorem TlsEnds.runs {w' : Watched (TlsCtx σ ρ)} (he : TlsEnds w.tunnel w'.tunnel) (hw : TlsRuns w)
    (hopen : w.tunnel.isTerminated = false) (hbefore : w'.before = w.before) : TlsRuns w' := by
  refine ⟨fun h => ?_, fun side => ?_, fun hclosed => ?_⟩
  · rw [he.isTerminated_eq] at h
    cases h
  · rw [hbefore, he.load_eq]
    exact hw.before_le side
  · rw [he.handleClosing_eq, (hw.isOpen hopen).connected.2] at hclosed
    cases hclosed

/-- What one event does to what is observed. -/
structure TlsFollows (env : TlsEnv σ ρ) (w : Watched (TlsCtx σ ρ)) (e : TlsRelayEvent) : Prop where
  view_eq : tlsView (tlsWatchedStep env w e) = Lib.Drain.step tlsSides (tlsView w) (tlsMove env w e)
  possible : Possible tlsSides (tlsView w) (tlsMove env w e)
  runs : TlsRuns (tlsWatchedStep env w e)

/-- A callback that shuts the tunnel down. -/
theorem TlsEnds.follows {e : TlsRelayEvent} {m : Move Side}
    (he : TlsEnds w.tunnel (tlsWatchedStep env w e).tunnel) (hw : TlsRuns w)
    (hopen : w.tunnel.isTerminated = false) (hmove : tlsMove env w e = m)
    (hstep : Lib.Drain.step tlsSides (tlsView w) m =
      { tlsView w with ended := (tlsWatchedStep env w e).ended, closed := true })
    (hpossible : Possible tlsSides (tlsView w) m) : TlsFollows env w e := by
  subst hmove
  refine ⟨?_, hpossible, he.runs hw hopen rfl⟩
  rw [tlsView_of_load he.load_eq rfl, he.isTerminated_eq]
  exact hstep.symm

/-- A callback that hands nothing on. -/
theorem TlsGoesOn.follows {e : TlsRelayEvent} {m : Move Side}
    (hg : TlsGoesOn (tlsLoad w.tunnel) (tlsWatchedStep env w e).tunnel) (hw : TlsRuns w)
    (hopen : w.tunnel.isTerminated = false) (hmove : tlsMove env w e = m)
    (hstep : Lib.Drain.step tlsSides (tlsView w) m =
      { tlsView w with ended := (tlsWatchedStep env w e).ended })
    (hpossible : Possible tlsSides (tlsView w) m) : TlsFollows env w e := by
  subst hmove
  refine ⟨?_, hpossible, hg.runs rfl hw.before_le⟩
  rw [tlsView_of_load hg.load_eq rfl, hg.isTerminated_eq hopen]
  exact hstep.symm

/-- A callback that makes one more write at `s`. -/
theorem TlsGoesOn.follows_addWrite {e : TlsRelayEvent} {m : Move Side} {s : Side}
    (hg : TlsGoesOn (addWrite (tlsLoad w.tunnel) s) (tlsWatchedStep env w e).tunnel) (hw : TlsRuns w)
    (hopen : w.tunnel.isTerminated = false) (hmove : tlsMove env w e = m)
    (hstep : Lib.Drain.step tlsSides (tlsView w) m =
      ({ tlsView w with ended := (tlsWatchedStep env w e).ended } : State Side).handOver s)
    (hpossible : Possible tlsSides (tlsView w) m) : TlsFollows env w e := by
  subst hmove
  refine ⟨?_, hpossible, hg.runs rfl fun side =>
    Nat.le_trans (hw.before_le side) (le_addWrite (tlsLoad w.tunnel) s side)⟩
  rw [tlsView_of_load hg.load_eq rfl, hg.isTerminated_eq hopen, hstep]
  exact tlsView_addWrite hw s _ _

/-- After a handler, `tunnel_socket_ctx_on_read_cb` may only start the timer. -/
theorem TlsGoesOn.afterRead {l : Side → ℕ × ℕ} (hg : TlsGoesOn l t) (h : Handlers (TlsCtx σ ρ)) (side : Side) :
    TlsGoesOn l (afterRead h t side) := by
  unfold Tunnel.afterRead
  rw [hg.isOpen.flows.isTerminated_eq, if_neg Bool.false_ne_true]
  split_ifs
  · have hs := hg.isOpen.flows.streams side
    rw [hg.isOpen.flows.onOpenSocket_eq]
    refine ⟨hg.isOpen.congr (hg.isOpen.flows.setSocket ⟨⟨hs.isTerminated_eq, hs.handleClosing_eq,
      hs.timerClosing_eq⟩, hs.wrstate_ne, hs.connects_eq, hs.lookups_eq⟩) (setSocket_data ..), ?_⟩
    refine (tlsLoad_congr (load_setSocket ?_ ?_) (setSocket_data ..)).trans hg.load_eq
    · rfl
    · rfl
  · exact hg

theorem tlsRead_follows (hw : TlsRuns w) {data : Bytes}
    (he : TlsRelayed w (.socket (.read .incoming data))) :
    TlsFollows env w (.socket (.read .incoming data)) := by
  obtain ⟨-, -, hopen, -⟩ := he
  have ht := hw.isOpen hopen
  by_cases hdata : data = []
  · subst hdata
    have hgoes : TlsGoesOn (tlsLoad w.tunnel)
        (tlsWatchedStep env w (.socket (.read .incoming []))).tunnel := by
      refine ⟨ht.congr (ht.flows.setResult .incoming _) (setSocket_data ..), ?_⟩
      refine tlsLoad_congr (load_setSocket ?_ ?_) (setSocket_data ..)
      · rfl
      · rfl
    exact hgoes.follows hw hopen rfl rfl nofun
  · obtain ⟨u, hfu, hdu, hload, hrd, hstep⟩ := flows_read_step (tlsHandlers env) ht.flows .incoming hdata
    have hu : TlsOpen u := ht.congr hfu hdu
    have hlu : tlsLoad u = tlsLoad w.tunnel := tlsLoad_congr hload hdu
    obtain ⟨haccepted, hrefused⟩ := clientIncomingStreaming_read env hu hrd data
    rw [hdu, hlu] at haccepted
    rw [hdu] at hrefused
    by_cases hok : (env.tunnelCipherClientEncrypt w.tunnel.data.client.eCtx data).2.2 = true
    · -- one more frame for the TLS connection
      have hgoes : TlsGoesOn (addWrite (tlsLoad w.tunnel) .outgoing)
          (tlsWatchedStep env w (.socket (.read .incoming data))).tunnel := by
        have heq : (tlsWatchedStep env w (.socket (.read .incoming data))).tunnel = _ := hstep
        rw [heq]
        exact (haccepted hok).afterRead (tlsHandlers env) .incoming
      have hmove : tlsMove env w (.socket (.read .incoming data)) = .pass .incoming true := by
        simp only [tlsMove, if_neg hdata, if_pos hok]
      exact hgoes.follows_addWrite hw hopen hmove rfl fun _ => hopen
    · -- the cipher refuses the data, and the tunnel is shut down
      have hev := hrefused hok
      have hends : TlsEnds w.tunnel (tlsWatchedStep env w (.socket (.read .incoming data))).tunnel := by
        have heq : (tlsWatchedStep env w (.socket (.read .incoming data))).tunnel =
            (tlsHandlers env).tunnelReadDone u .incoming data :=
          hstep.trans (if_pos hev.isTerminated_eq)
        rw [heq]
        exact hev.of_eq hlu (congrArg (fun ctx : TlsCtx σ ρ => ctx.mbed.handleClosing) hdu)
      have hmove : tlsMove env w (.socket (.read .incoming data)) = .refuse .incoming := by
        simp only [tlsMove, if_neg hdata, if_neg hok]
      exact hends.follows hw hopen hmove rfl hopen

theorem tlsWritten_follows (hw : TlsRuns w) (he : TlsRelayed w (.socket (.written .incoming true))) :
    TlsFollows env w (.socket (.written .incoming true)) := by
  obtain ⟨-, hopen, hpos, -⟩ := he
  have ht := hw.isOpen hopen
  obtain ⟨u, hfu, hdu, hload, hwr, hstep⟩ := flows_written_step (tlsHandlers env) ht.flows .incoming
  have hlu : tlsLoad u = dropWrite (tlsLoad w.tunnel) .incoming := by
    funext side
    cases side with
    | incoming => exact congrFun hload .incoming
    | outgoing => exact congrArg (fun ctx : TlsCtx σ ρ => ctx.mbed.load) hdu
  have hgoes : TlsGoesOn (dropWrite (tlsLoad w.tunnel) .incoming)
      (tlsWatchedStep env w (.socket (.written .incoming true))).tunnel := by
    have heq : (tlsWatchedStep env w (.socket (.written .incoming true))).tunnel = _ := hstep
    rw [heq, ← hlu]
    exact clientIncomingStreaming_write ht hdu hfu hwr
  refine ⟨tlsView_dropWrite hgoes.load_eq rfl rfl (hgoes.isTerminated_eq hopen), ⟨fun hclosed => ?_, hpos⟩,
    hgoes.runs rfl fun side => ?_⟩
  · exact absurd (hopen.symm.trans hclosed) Bool.false_ne_true
  · rw [dropWrite_written]
    exact hw.before_le side

theorem tlsEnded_follows (hw : TlsRuns w) (he : TlsRelayed w (.socket (.readFailed .incoming true))) :
    TlsFollows env w (.socket (.readFailed .incoming true)) := by
  obtain ⟨-, hopen, -⟩ := he
  have ht := hw.isOpen hopen
  obtain ⟨u, hfu, hdu, hload, hstep⟩ := flows_ended_step (tlsHandlers env) ht.flows .incoming
  have hends : TlsEnds w.tunnel (tlsWatchedStep env w (.socket (.readFailed .incoming true))).tunnel := by
    have heq : (tlsWatchedStep env w (.socket (.readFailed .incoming true))).tunnel =
        tunnelTlsShutdown u := hstep
    rw [heq]
    exact (tlsEnds_shutdown hfu.isTerminated_eq).of_eq (tlsLoad_congr hload hdu)
      (congrArg (fun ctx : TlsCtx σ ρ => ctx.mbed.handleClosing) hdu)
  exact hends.follows hw hopen rfl rfl hopen

theorem tlsDataReceived_follows (hw : TlsRuns w) {status : ℤ} {data : Bytes}
    (he : TlsRelayed w (.dataReceived status data)) : TlsFollows env w (.dataReceived status data) := by
  obtain ⟨hopen, -⟩ := he
  have ht := hw.isOpen hopen
  set v := tlsWatchedStep env w (.dataReceived status data)
  by_cases hstatus : status < 0
  · -- the end of the TLS stream
    have hcall : tlsCliOnDataReceived env w.tunnel.data.client status data =
        (w.tunnel.data.client.shutdown, []) := by
      unfold tlsCliOnDataReceived
      rw [ht.live, if_neg Bool.false_ne_true, if_pos hstatus]
    have hends : TlsEnds w.tunnel v.tunnel := by
      have heq : v.tunnel = perform w.tunnel (w.tunnel.data.client.shutdown, []) :=
        congrArg (perform w.tunnel) hcall
      rw [heq]
      exact tlsEnds_perform hopen _
    have hended : v.ended = Function.update w.ended .outgoing true := if_pos (.inl hstatus)
    have hmove : tlsMove env w (.dataReceived status data) = .finish .outgoing := if_pos hstatus
    exact hends.follows hw hopen hmove (by rw [hended]; rfl) hopen
  · obtain ⟨heof, hout⟩ := dataReceived_outcome env ht (Int.not_lt.1 hstatus) data
    have hended : v.ended = if (afterFrames env w.tunnel.data.client data).tlsIsEof = true then
        Function.update w.ended .outgoing true else w.ended := by
      rw [← heof]
      exact if_congr (or_iff_right hstatus) rfl rfl
    have hmove : tlsMove env w (.dataReceived status data) = _ := if_neg hstatus
    split_ifs at hout with hnil hclose
    · have hends : TlsEnds w.tunnel v.tunnel := hout
      rw [if_pos hnil, if_pos hclose] at hmove
      rw [if_pos hclose] at hended
      exact hends.follows hw hopen hmove (by rw [hended]; rfl) hopen
    · have hgoes : TlsGoesOn (tlsLoad w.tunnel) v.tunnel := hout
      rw [if_pos hnil, if_neg hclose] at hmove
      rw [if_neg hclose] at hended
      exact hgoes.follows hw hopen hmove (by rw [hended]; rfl) nofun
    · -- the application gets one more write, and perhaps the last one
      have hgoes : TlsGoesOn (addWrite (tlsLoad w.tunnel) .incoming) v.tunnel := hout
      rw [if_neg hnil] at hmove
      refine hgoes.follows_addWrite hw hopen hmove ?_ ?_
      · rw [hended]
        split_ifs
        · rfl
        · rfl
      · split_ifs
        · exact hopen
        · exact fun _ => hopen

/-- What libuv does for a TLS connection, also for that of a tunnel that was shut down. -/
theorem tlsConnection_follows (hw : TlsRuns w) {e : TlsRelayEvent} (he : TlsRelayed w e)
    (hside : e = .written ∨ e = .shutdownDone) : TlsFollows env w e := by
  rcases hside with rfl | rfl
  · have hpos : 0 < w.tunnel.data.mbed.writes := he
    have hload : tlsLoad (tlsWatchedStep env w .written).tunnel = dropWrite (tlsLoad w.tunnel) .outgoing := by
      funext side
      cases side with
      | incoming => exact congrFun (load_withData w.tunnel _) .incoming
      | outgoing => rfl
    refine ⟨tlsView_dropWrite hload rfl rfl rfl, ⟨fun _ => rfl, hpos⟩, ⟨fun h => ?_, fun side => ?_, ?_⟩⟩
    · have ht := hw.isOpen h
      exact ⟨ht.flows.withData _, ht.stage, ht.live, ht.written, ht.tcp, ht.connected⟩
    · rw [hload, dropWrite_written]
      exact hw.before_le side
    · intro hclosed
      have hdone := (hw.closed hclosed).2
      omega
  · obtain ⟨hrequested, hdone⟩ := he
    have hload : tlsLoad (tlsWatchedStep env w .shutdownDone).tunnel = tlsLoad w.tunnel := by
      funext side
      cases side with
      | incoming => exact congrFun (load_withData w.tunnel _) .incoming
      | outgoing => rfl
    -- the shutdown was asked for when the tunnel was shut down
    have hterm : w.tunnel.isTerminated = true := by
      by_contra hopen
      have ht := hw.isOpen (Bool.eq_false_iff.2 hopen)
      exact absurd (ht.connected.1.symm.trans hrequested) Bool.false_ne_true
    refine ⟨?_, nofun, ⟨fun h => ?_, fun side => ?_, fun _ => ⟨hterm, hdone⟩⟩⟩
    · rw [tlsView_of_load hload rfl]
      rfl
    · exact absurd (hterm.symm.trans h) Bool.noConfusion
    · rw [hload]
      exact hw.before_le side

theorem tlsFollows (hw : TlsRuns w) {e : TlsRelayEvent} (he : TlsRelayed w e) : TlsFollows env w e := by
  cases e with
  | socket e =>
      cases e with
      | read side data =>
          obtain rfl := he.1
          exact tlsRead_follows hw he
      | written side ok =>
          obtain ⟨rfl, -, -, rfl⟩ := id he
          exact tlsWritten_follows hw he
      | readFailed side eof =>
          obtain ⟨rfl, -, -, -, rfl⟩ := id he
          exact tlsEnded_follows hw he
      | connected side ok => cases he
      | resolved side ok => cases he
      | timeout side => cases he
      | handleClosed side => cases he
      | timerClosed side => cases he
      | shutdown => cases he
      | close side => cases he
  | dataReceived status data => exact tlsDataReceived_follows hw he
  | written => exact tlsConnection_follows hw he (.inl rfl)
  | shutdownDone => exact tlsConnection_follows hw he (.inr rfl)

/-! ## Runs -/

/-- In every state that a run of the streaming stage reaches nothing was cut off exactly when every
callback of the run was safe. -/
theorem tlsNothingCut_iff (env : TlsEnv σ ρ) (ht : TlsOpen t) {es : List TlsRelayEvent}
    (hrun : Legal TlsRelayed (tlsWatchedStep env) (tlsBegin t) es) :
    (∀ pre, pre <+: es → TlsNothingCut (pre.foldl (tlsWatchedStep env) (tlsBegin t))) ↔
      Legal (TlsSafe env) (tlsWatchedStep env) (tlsBegin t) es := by
  have hbegin : TlsRuns (tlsBegin t) := by
    refine ⟨fun _ => ht, fun side => ?_, fun hclosed => ?_⟩
    · cases side with
      | incoming => exact Nat.le_refl _
      | outgoing => exact Nat.le_refl _
    · exact absurd (ht.connected.2.symm.trans hclosed) Bool.false_ne_true
  have hinv : ∀ w e, TlsRuns w → TlsRelayed w e → TlsRuns (tlsWatchedStep env w e) :=
    fun _ _ hw he => (tlsFollows hw he).runs
  have hmain := complete_iff_sound hinv (fun w e hw he => ⟨(tlsFollows hw he).view_eq,
    (tlsFollows hw he).possible, sound_iff_tlsSafe env w e⟩) hbegin ht.flows.isTerminated_eq hrun
  rw [← hmain]
  refine forall₂_congr fun pre hpre => tlsNothingCut_iff_complete ?_
  obtain ⟨rest, rfl⟩ := hpre
  exact Legal.invariant (P := TlsRuns) hinv hbegin hrun.append_left

end Steps

end Client
end SsrNative
