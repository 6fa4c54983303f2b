import SsrNative.TunnelLifetime
import SsrNative.Client.Dispatcher

/-!
# Phases — what a client tunnel waits for

Before a client relays, each stage waits for exactly one request: a read, a write, a connection or a
lookup is in flight on one socket and nothing on the other.  While it relays, both sockets read and
any number of writes may be in flight, but no write is `done` (`Phase`).  The dispatcher can
therefore tell which event called it.
-/

namespace SsrNative
namespace Client

open Tunnel
open Lib.Transition

variable {κ : Type*} {env : Env κ}

/-! ## What may be in flight -/

inductive Request where
  | read
  | write
  | connect
  | lookup
deriving DecidableEq

/-- The socket was not closed. -/
structure IsOpen (s : SocketCtx) : Prop where
  isTerminated_eq : s.isTerminated = false
  handleClosing_eq : s.handleClosing = false
  timerClosing_eq : s.timerClosing = false

/-- Nothing is in flight on an open socket but `request`. -/
structure Awaits (request : Option Request) (s : SocketCtx) : Prop extends IsOpen s where
  rdstate_eq : s.rdstate = if request = some .read then .busy else .stop
  wrstate_eq : s.wrstate = if request = some .write then .busy else .stop
  reading_eq : s.reading = decide (request = some .read)
  writes_eq : s.writes = if request = some .write then 1 else 0
  connects_eq : s.connects = if request = some .connect then 1 else 0
  lookups_eq : s.lookups = if request = some .lookup then 1 else 0

/-- A socket of a tunnel that relays. -/
structure Streams (s : SocketCtx) : Prop extends IsOpen s where
  wrstate_ne : s.wrstate ≠ .done
  connects_eq : s.connects = 0
  lookups_eq : s.lookups = 0

section Tunnels

variable {δ : Type*} {t u : TunnelCtx δ} {side : Side} {r : Request}

/-- Nothing is in flight. -/
structure Quiet (t : TunnelCtx δ) : Prop where
  isTerminated_eq : t.isTerminated = false
  idle : ∀ side, Awaits none (t.socket side)

/-- Only `r` is in flight, on `side`. -/
structure Waits (t : TunnelCtx δ) (side : Side) (r : Request) : Prop where
  isTerminated_eq : t.isTerminated = false
  awaits : Awaits (some r) (t.socket side)
  idle : Awaits none (t.socket side.other)

/-- Both sockets may read and write. -/
structure Flows (t : TunnelCtx δ) : Prop where
  isTerminated_eq : t.isTerminated = false
  streams : ∀ side, Streams (t.socket side)

/-- What a stage waits for. -/
def awaited : Stage → Option (Side × Request)
  | .resolveSsrServerHostDone => some (.outgoing, .lookup)
  | .connectSsrServerDone => some (.outgoing, .connect)
  | .ssrAuthSent => some (.outgoing, .write)
  | .ssrServerFeedbackArrived => some (.outgoing, .read)
  | .ssrReceiptToServerSent => some (.outgoing, .write)
  | .authCompletionDone => none
  | .streaming => none
  | .kill => some (.incoming, .write)

/-- A tunnel between two events. -/
inductive Phase (t : TunnelCtx (ClientCtx κ)) : Prop
  | terminated (h : t.isTerminated = true)
  | waiting {side : Side} {r : Request} (h : awaited t.data.stage = some (side, r))
      (hw : Waits t side r)
  | streaming (h : t.data.stage = .streaming) (hf : Flows t)

/-! ## Access -/

@[simp] theorem setSocket_data (t : TunnelCtx δ) (side : Side) (s : SocketCtx) :
    (t.setSocket side s).data = t.data := by
  cases side <;> rfl

@[simp] theorem check_data (t : TunnelCtx δ) (b : Bool) : (t.check b).data = t.data := by
  cases b <;> rfl

@[simp] theorem setStates_data (t : TunnelCtx δ) (side : Side) (rd wr : SocketState) :
    (setStates t side rd wr).data = t.data := setSocket_data t side _

@[simp] theorem onOpenSocket_data (t : TunnelCtx δ) (side : Side) (f : SocketCtx → SocketCtx) :
    (onOpenSocket t side f).data = t.data := by
  unfold onOpenSocket
  split_ifs
  · exact check_data t false
  · exact setSocket_data t side _

@[simp] theorem tunnelSocketCtxWrite_data (streaming : δ → Bool) (t : TunnelCtx δ) (side : Side)
    (data : Bytes) : (tunnelSocketCtxWrite streaming t side data).data = t.data :=
  (onOpenSocket_data _ side _).trans (check_data t _)

theorem Quiet.check (hq : Quiet t) (b : Bool) : Quiet (t.check b) := by
  refine ⟨(check_isTerminated t b).trans hq.isTerminated_eq, fun side => ?_⟩
  rw [check_socket]
  exact hq.idle side

/-- The data of the client are not looked at. -/
theorem Quiet.withData (hq : Quiet t) (d : δ) : Quiet { t with data := d } := by
  refine ⟨hq.isTerminated_eq, fun side => ?_⟩
  cases side with
  | incoming => exact hq.idle .incoming
  | outgoing => exact hq.idle .outgoing

theorem Waits.withData (hw : Waits t side r) (d : δ) : Waits { t with data := d } side r := by
  refine ⟨hw.isTerminated_eq, ?_, ?_⟩
  · cases side <;> exact hw.awaits
  · cases side <;> exact hw.idle

theorem Waits.check (hw : Waits t side r) (b : Bool) : Waits (t.check b) side r := by
  refine ⟨(check_isTerminated t b).trans hw.isTerminated_eq, ?_, ?_⟩
  · rw [check_socket]
    exact hw.awaits
  · rw [check_socket]
    exact hw.idle

/-- An operation on an idle socket starts `r`. -/
theorem Quiet.waits (hq : Quiet t) {f : SocketCtx → SocketCtx}
    (hf : ∀ s, Awaits none s → Awaits (some r) (f s)) : Waits (onOpenSocket t side f) side r := by
  have hside := hq.idle side
  have heq : onOpenSocket t side f = t.setSocket side (f (t.socket side)) :=
    if_neg (by rw [hside.isTerminated_eq]; exact Bool.false_ne_true)
  rw [heq]
  refine ⟨?_, ?_, ?_⟩
  · rw [setSocket_isTerminated]
    exact hq.isTerminated_eq
  · rw [socket_setSocket]
    exact hf _ hside
  · have hne : side.other ≠ side := by cases side <;> decide
    rw [socket_setSocket_ne t hne]
    exact hq.idle side.other

theorem Quiet.read (hq : Quiet t) (b : Bool) : Waits (socketCtxRead t side b) side .read := by
  unfold socketCtxRead
  apply (hq.check _).waits
  intro s hs
  exact ⟨⟨hs.isTerminated_eq, hs.handleClosing_eq, hs.timerClosing_eq⟩, rfl,
    hs.wrstate_eq, rfl, hs.writes_eq, hs.connects_eq, hs.lookups_eq⟩

theorem Quiet.socketWrite (hq : Quiet t) (streaming : δ → Bool) (data : Bytes) :
    Waits (tunnelSocketCtxWrite streaming t side data) side .write := by
  unfold tunnelSocketCtxWrite socketCtxWrite
  apply (hq.check _).waits
  intro s hs
  exact ⟨⟨hs.isTerminated_eq, hs.handleClosing_eq, hs.timerClosing_eq⟩, hs.rdstate_eq,
    rfl, hs.reading_eq, congrArg (· + 1) hs.writes_eq, hs.connects_eq,
    hs.lookups_eq⟩

theorem Quiet.connect (hq : Quiet t) : Waits (socketCtxConnect t side) side .connect := by
  apply hq.waits
  intro s hs
  exact ⟨⟨hs.isTerminated_eq, hs.handleClosing_eq, hs.timerClosing_eq⟩, hs.rdstate_eq,
    hs.wrstate_eq, hs.reading_eq, hs.writes_eq,
    congrArg (· + 1) hs.connects_eq, hs.lookups_eq⟩

theorem Quiet.lookup (hq : Quiet t) : Waits (socketCtxGetaddrinfo t side) side .lookup := by
  apply hq.waits
  intro s hs
  exact ⟨⟨hs.isTerminated_eq, hs.handleClosing_eq, hs.timerClosing_eq⟩, hs.rdstate_eq,
    hs.wrstate_eq, hs.reading_eq, hs.writes_eq, hs.connects_eq,
    congrArg (· + 1) hs.lookups_eq⟩

/-! ### Relaying -/

theorem Quiet.flows (hq : Quiet t) : Flows t := by
  refine ⟨hq.isTerminated_eq, fun side => ?_⟩
  have hs := hq.idle side
  refine ⟨hs.toIsOpen, ?_, hs.connects_eq, hs.lookups_eq⟩
  rw [hs.wrstate_eq]
  decide

theorem Flows.check (hf : Flows t) (b : Bool) : Flows (t.check b) := by
  refine ⟨(check_isTerminated t b).trans hf.isTerminated_eq, fun side => ?_⟩
  rw [check_socket]
  exact hf.streams side

theorem Flows.withData (hf : Flows t) (d : δ) : Flows { t with data := d } := by
  refine ⟨hf.isTerminated_eq, fun side => ?_⟩
  cases side with
  | incoming => exact hf.streams .incoming
  | outgoing => exact hf.streams .outgoing

theorem Flows.setSocket (hf : Flows t) {s : SocketCtx} (hs : Streams s) :
    Flows (t.setSocket side s) := by
  refine ⟨(setSocket_isTerminated t side s).trans hf.isTerminated_eq, fun side' => ?_⟩
  by_cases hside : side' = side
  · subst hside
    rw [socket_setSocket]
    exact hs
  · rw [socket_setSocket_ne t hside]
    exact hf.streams side'

theorem Flows.onOpenSocket_eq (hf : Flows t) (f : SocketCtx → SocketCtx) :
    onOpenSocket t side f = t.setSocket side (f (t.socket side)) :=
  if_neg (by rw [(hf.streams side).isTerminated_eq]; exact Bool.false_ne_true)

theorem Flows.read (hf : Flows t) (b : Bool) : Flows (socketCtxRead t side b) := by
  have hs := hf.streams side
  unfold socketCtxRead
  rw [(hf.check _).onOpenSocket_eq, check_socket]
  exact (hf.check _).setSocket ⟨⟨hs.isTerminated_eq, hs.handleClosing_eq, hs.timerClosing_eq⟩,
    hs.wrstate_ne, hs.connects_eq, hs.lookups_eq⟩

theorem Flows.socketWrite (hf : Flows t) (streaming : δ → Bool) (data : Bytes) :
    Flows (tunnelSocketCtxWrite streaming t side data) := by
  have hs := hf.streams side
  unfold tunnelSocketCtxWrite socketCtxWrite
  rw [(hf.check _).onOpenSocket_eq, check_socket]
  exact (hf.check _).setSocket ⟨⟨hs.isTerminated_eq, hs.handleClosing_eq, hs.timerClosing_eq⟩,
    fun h => SocketState.noConfusion h, hs.connects_eq, hs.lookups_eq⟩

theorem tunnelShutdown_isTerminated (t : TunnelCtx δ) : (tunnelShutdown t).isTerminated = true := by
  unfold tunnelShutdown
  split_ifs with hterm
  · exact hterm
  · simp only [tunnelCtxRelease_isTerminated, socketCtxClose_isTerminated, tunnelCtxAddRef]

end Tunnels

/-! ## The functions of the client -/

section Functions

variable {t : TunnelCtx (ClientCtx κ)} {side : Side} {r : Request}

theorem Quiet.write (hq : Quiet t) (data : Bytes) : Waits (write t side data) side .write :=
  hq.socketWrite tunnelSsrIsInStreaming data

theorem Flows.write (hf : Flows t) (data : Bytes) : Flows (write t side data) :=
  hf.socketWrite tunnelSsrIsInStreaming data

theorem phase_shutdown (t : TunnelCtx (ClientCtx κ)) : Phase (tunnelShutdown t) :=
  .terminated (tunnelShutdown_isTerminated t)

theorem Waits.phase {stage : Stage} (hw : Waits t side r) (hstage : awaited stage = some (side, r)) :
    Phase (setStage t stage) :=
  .waiting hstage (hw.withData _)

theorem Quiet.refuse (hq : Quiet t) (reply : Bytes) : Phase (refuse t reply) :=
  (hq.write reply).phase rfl

theorem Quiet.connectSsrServer (hq : Quiet t) : Phase (doConnectSsrServer env t) := by
  unfold doConnectSsrServer
  extract_lets v
  have hv : Quiet v := hq.check _
  split_ifs
  · exact hv.refuse _
  · exact phase_shutdown v
  · exact hv.connect.phase rfl

theorem Quiet.commonConnetRemoteServer (hq : Quiet t) (targetAddress : Bytes) :
    Phase (doCommonConnetRemoteServer env t targetAddress) := by
  unfold doCommonConnetRemoteServer
  extract_lets d v
  have hv : Quiet v := hq.withData _
  split_ifs
  · exact hv.lookup.phase rfl
  · exact hv.connectSsrServer

theorem Quiet.resolveAftercare (hq : Quiet t) : Phase (doResolveSsrServerHostAftercare env t) := by
  unfold doResolveSsrServerHostAftercare
  extract_lets v
  have hv : Quiet v := hq.check _
  split_ifs
  · exact hv.refuse _
  · exact hv.connectSsrServer

theorem Quiet.sendAuthPackage (hq : Quiet t) : Phase (doSsrSendAuthPackageToServer env t) := by
  unfold doSsrSendAuthPackageToServer
  extract_lets v r w
  have hv : Quiet v := hq.check _
  have hw : Quiet w := hv.withData _
  split_ifs
  · cases r.2 with
    | none => exact phase_shutdown w
    | some out => exact (hw.write out).phase rfl
  · exact hv.refuse _

theorem Quiet.launchStreaming (hq : Quiet t) : Phase (doLaunchStreaming env t) := by
  unfold doLaunchStreaming
  extract_lets v tmp d w r x
  have hv : Quiet v := hq.check _
  have hx : Quiet x := (hv.withData d).withData _
  split_ifs
  · exact phase_shutdown v
  · cases r.2 with
    | none => exact phase_shutdown x
    | some out => exact .streaming rfl (((hx.flows.write out).read false).read true |>.withData _)

theorem Quiet.actionAfterAuth (hq : Quiet t) : Phase (doActionAfterAuthServerSuccess env t) :=
  ((hq.withData _).check _).launchStreaming

theorem Quiet.waitingServerFeedback (hq : Quiet t) : Phase (doSsrWaitingServerFeedback env t) := by
  unfold doSsrWaitingServerFeedback
  extract_lets v
  have hv : Quiet v := hq.check _
  split_ifs
  · exact phase_shutdown v
  · exact (hv.read true).phase rfl
  · exact hv.actionAfterAuth

/-- What the dispatcher makes of the answer of the server. -/
theorem Quiet.receiptForFeedback (hq : Quiet t) (hresult : 0 ≤ t.outgoing.result) (buf : Bytes) :
    Phase (if (doSsrReceiptForFeedback env t buf).2 = false then
      doActionAfterAuthServerSuccess env (doSsrReceiptForFeedback env t buf).1
      else (doSsrReceiptForFeedback env t buf).1) := by
  unfold doSsrReceiptForFeedback
  extract_lets v r w x y
  have hv : Quiet v := hq.check _
  have hy : Quiet y := ((hv.withData _).check _).check _
  have hneg : ¬v.outgoing.result < 0 := by
    have hsocket : v.socket .outgoing = t.socket .outgoing := check_socket t _ .outgoing
    have hres : v.outgoing.result = t.outgoing.result := congrArg SocketCtx.result hsocket
    omega
  rw [if_neg hneg]
  cases r.2.feedback with
  | none => exact hy.actionAfterAuth
  | some feedback => exact (hy.write feedback).phase rfl

end Functions

/-! ## Events -/

/-- `socket_ctx_close` is called by `tunnel_shutdown` only. -/
def Occurs {δ : Type*} (t : TunnelCtx δ) (e : Event) : Prop := Enabled t e ∧ ∀ side, e ≠ .close side

instance {δ : Type*} (t : TunnelCtx δ) (e : Event) : Decidable (Occurs t e) := by
  unfold Occurs
  infer_instance

section Terminated

variable {δ : Type*} {h : Handlers δ} {t t' t'' : TunnelCtx δ}

/-- The client's data and what was written to the sockets are as before. -/
structure Same (t t' : TunnelCtx δ) : Prop where
  isTerminated_eq : t'.isTerminated = t.isTerminated
  data_eq : t'.data = t.data
  written_eq : ∀ side, (t'.socket side).written = (t.socket side).written

theorem Same.refl (t : TunnelCtx δ) : Same t t := ⟨rfl, rfl, fun _ => rfl⟩

theorem Same.trans (h : Same t t') (h' : Same t' t'') : Same t t'' :=
  ⟨h'.isTerminated_eq.trans h.isTerminated_eq, h'.data_eq.trans h.data_eq,
    fun side => (h'.written_eq side).trans (h.written_eq side)⟩

theorem same_setSocket {side : Side} {s : SocketCtx} (hs : s.written = (t.socket side).written) :
    Same t (t.setSocket side s) := by
  refine ⟨setSocket_isTerminated t side s, ?_, fun side' => ?_⟩
  · cases side <;> rfl
  · by_cases hside : side' = side
    · subst hside
      rw [socket_setSocket, hs]
    · rw [socket_setSocket_ne t hside]

theorem same_check (t : TunnelCtx δ) (b : Bool) : Same t (t.check b) := by
  refine ⟨check_isTerminated t b, ?_, fun side => ?_⟩
  · cases b <;> rfl
  · rw [check_socket]

theorem same_onOpenSocket (t : TunnelCtx δ) (side : Side) {f : SocketCtx → SocketCtx}
    (hf : ∀ s, (f s).written = s.written) : Same t (onOpenSocket t side f) := by
  unfold onOpenSocket
  split_ifs
  · exact same_check t false
  · exact same_setSocket (hf _)

theorem same_read (t : TunnelCtx δ) (side : Side) (b : Bool) : Same t (socketCtxRead t side b) :=
  (same_check t _).trans (same_onOpenSocket _ side fun _ => rfl)

theorem same_readReady (t : TunnelCtx δ) (side : Side) : Same t (readReady h t side) := by
  have hstopped : Same t (readStopped h t side) :=
    (same_check t _).trans (same_setSocket (by rw [check_socket]))
  exact hstopped.trans (same_setSocket rfl)

theorem same_writeReady (t : TunnelCtx δ) (side : Side) : Same t (writeReady h t side) := by
  have hcheck := same_check t
    (decide (h.tunnelIsInStreaming t.data = true ∨ (t.socket side).wrstate = .busy))
  exact hcheck.trans (same_setSocket rfl)

theorem same_release (t : TunnelCtx δ) : Same t (tunnelCtxRelease t) := by
  simp only [tunnelCtxRelease]
  split_ifs
  · unfold TunnelCtx.check
    split_ifs
    · exact ⟨rfl, rfl, fun side => by cases side <;> rfl⟩
    · exact ⟨rfl, rfl, fun side => by cases side <;> rfl⟩
  · exact ⟨rfl, rfl, fun side => by cases side <;> rfl⟩

theorem same_closeDone (t : TunnelCtx δ) (side : Side) : Same t (uvSocketCloseDoneCb t side) := by
  unfold uvSocketCloseDoneCb
  extract_lets s u u1 u2 s2 u3 s3
  have hu : Same t u := same_setSocket rfl
  have h1 : Same u u1 := same_check u _
  have h2 : Same u1 u2 := same_release u1
  have h3 : Same u u3 := by
    simp only [u3]
    split_ifs
    · exact (h1.trans h2).trans (same_setSocket rfl)
    · exact h1
    · exact Same.refl u
  exact (hu.trans h3).trans (same_setSocket rfl)

theorem same_close (t : TunnelCtx δ) (side : Side) :
    Same t (socketCtxClose (tunnelCtxAddRef t) side) := by
  have hadd : Same t (tunnelCtxAddRef t) := ⟨rfl, rfl, fun side => by cases side <;> rfl⟩
  unfold socketCtxClose
  extract_lets s
  split_ifs
  · exact hadd.trans (same_release _)
  · refine hadd.trans ((same_check _ _).trans (same_setSocket ?_))
    rw [check_socket]

theorem same_shutdown (hopen : t.isTerminated = false) :
    Same { t with isTerminated := true } (tunnelShutdown t) := by
  have hne : ¬t.isTerminated = true := by
    rw [hopen]
    exact Bool.false_ne_true
  unfold tunnelShutdown
  rw [if_neg hne]
  exact ((same_close _ .incoming).trans (same_close _ .outgoing)).trans (same_release _)

theorem tunnelShutdown_data (t : TunnelCtx δ) : (tunnelShutdown t).data = t.data := by
  cases hterm : t.isTerminated with
  | true => rw [tunnelShutdown, if_pos hterm]
  | false => exact (same_shutdown hterm).data_eq

/-- Nothing happens to a tunnel that was shut down, but that its handles are closed. -/
theorem same_step (hterm : t.isTerminated = true) (e : Event) : Same t (step h t e) := by
  have hset : ∀ {side : Side} {s : SocketCtx}, (t.setSocket side s).isTerminated = true :=
    (setSocket_isTerminated t _ _).trans hterm
  -- every callback returns at the test of `terminated`, and changes its own socket at most
  cases e with
  | read side data =>
      simp only [step, uvSocketReadDoneCb, setResult, hset, if_true, ite_self]
      exact same_setSocket rfl
  | readFailed side eof =>
      simp only [step, uvSocketReadFailedCb, setResult, hset, if_true]
      exact same_setSocket rfl
  | written side ok =>
      simp only [step, uvSocketWriteDoneCb, setResult, setSocket_setSocket, hset, if_true]
      exact same_setSocket (by rw [socket_setSocket])
  | connected side ok =>
      simp only [step, uvSocketConnectDoneCb, hset, if_true]
      exact same_setSocket rfl
  | resolved side ok =>
      simp only [step, uvSocketOnGetaddrinfoCb, hset, if_true]
      exact same_setSocket rfl
  | timeout side =>
      simp only [step, uvSocketTimerExpireCb, hset, if_true, setSocket_setSocket]
      exact same_setSocket (by rw [socket_setSocket])
  | handleClosed side =>
      have hclear : Same t (t.setSocket side { t.socket side with handleClosing := false }) :=
        same_setSocket rfl
      exact hclear.trans (same_closeDone _ side)
  | timerClosed side =>
      have hclear : Same t (t.setSocket side { t.socket side with timerClosing := false }) :=
        same_setSocket rfl
      exact hclear.trans (same_closeDone _ side)
  | shutdown =>
      rw [step, tunnelShutdown, if_pos hterm]
      exact Same.refl t
  | close side => exact same_close t side

end Terminated

section Requests

variable {δ : Type*} {h : Handlers δ} {t : TunnelCtx δ} {side : Side} {r : Request} {e : Event}

/-! ### Events that end the tunnel -/

/-- From `t` to `t'` the tunnel was shut down, and nothing else happened. -/
def ShutDown (t t' : TunnelCtx δ) : Prop :=
  ∃ u, Same t u ∧ Same (tunnelShutdown u) t'

theorem writeFailed_shutDown (hopen : t.isTerminated = false) (side : Side) :
    ShutDown t (uvSocketWriteDoneCb h t side false) := by
  unfold uvSocketWriteDoneCb
  extract_lets s u v
  have hu : Same t u := same_setSocket rfl
  have hv : Same u v := same_setSocket rfl
  rw [(hu.trans hv).isTerminated_eq, hopen, if_neg Bool.false_ne_true, if_pos rfl]
  have hw : Same v (setStates v side (v.socket side).rdstate .stop) := same_setSocket rfl
  exact ⟨_, (hu.trans hv).trans hw, Same.refl _⟩

theorem connectFailed_shutDown (hopen : t.isTerminated = false) (side : Side) :
    ShutDown t (uvSocketConnectDoneCb h t side false) := by
  unfold uvSocketConnectDoneCb
  extract_lets s u
  have hu : Same t u := same_setSocket rfl
  rw [hu.isTerminated_eq, hopen, if_neg Bool.false_ne_true, if_pos rfl]
  exact ⟨u, hu, Same.refl _⟩

theorem lookupFailed_shutDown (hopen : t.isTerminated = false) (side : Side) :
    ShutDown t (uvSocketOnGetaddrinfoCb h t side false) := by
  unfold uvSocketOnGetaddrinfoCb
  extract_lets s u
  have hu : Same t u := same_setSocket rfl
  rw [hu.isTerminated_eq, hopen, if_neg Bool.false_ne_true, if_pos rfl]
  exact ⟨u, hu, Same.refl _⟩

/-! ### What may happen while a request is in flight -/

/-- The events that complete `r`. -/
def Completes (side : Side) : Request → Event → Prop
  | .read, e => (∃ data, e = .read side data) ∨ ∃ eof, e = .readFailed side eof
  | .write, e => ∃ ok, e = .written side ok
  | .connect, e => ∃ ok, e = .connected side ok
  | .lookup, e => ∃ ok, e = .resolved side ok

theorem Awaits.enabled {s : SocketCtx} {request : Option Request} (hs : Awaits request s) :
    (s.reading = true → request = some .read) ∧ (0 < s.writes → request = some .write) ∧
      (0 < s.connects → request = some .connect) ∧ (0 < s.lookups → request = some .lookup) := by
  refine ⟨fun h => ?_, fun h => ?_, fun h => ?_, fun h => ?_⟩
  · rw [hs.reading_eq] at h
    exact of_decide_eq_true h
  · by_contra hne
    rw [hs.writes_eq, if_neg hne] at h
    exact Nat.lt_irrefl 0 h
  · by_contra hne
    rw [hs.connects_eq, if_neg hne] at h
    exact Nat.lt_irrefl 0 h
  · by_contra hne
    rw [hs.lookups_eq, if_neg hne] at h
    exact Nat.lt_irrefl 0 h

theorem Waits.event (hw : Waits t side r) (hocc : Occurs t e) :
    (∃ s, e = .timeout s) ∨ e = .shutdown ∨ Completes side r e := by
  obtain ⟨hen, hclose⟩ := hocc
  -- only `side` waits for anything, and only for `r`
  have hrequest : ∀ s, ∃ request, Awaits request (t.socket s) ∧
      (∀ q, request = some q → s = side ∧ q = r) := by
    intro s
    by_cases hs : s = side
    · subst hs
      exact ⟨some r, hw.awaits, fun q hq => ⟨rfl, (Option.some.inj hq).symm⟩⟩
    · have hother : s = side.other := by
        cases s <;> cases side <;> first | rfl | exact absurd rfl hs
      subst hother
      exact ⟨none, hw.idle, fun q hq => by cases hq⟩
  cases e with
  | read s data =>
      obtain ⟨request, hs, hin⟩ := hrequest s
      obtain ⟨rfl, rfl⟩ := hin _ (hs.enabled.1 hen)
      exact .inr (.inr (.inl ⟨data, rfl⟩))
  | readFailed s eof =>
      obtain ⟨request, hs, hin⟩ := hrequest s
      obtain ⟨rfl, rfl⟩ := hin _ (hs.enabled.1 hen)
      exact .inr (.inr (.inr ⟨eof, rfl⟩))
  | written s ok =>
      obtain ⟨request, hs, hin⟩ := hrequest s
      obtain ⟨rfl, rfl⟩ := hin _ (hs.enabled.2.1 hen)
      exact .inr (.inr ⟨ok, rfl⟩)
  | connected s ok =>
      obtain ⟨request, hs, hin⟩ := hrequest s
      obtain ⟨rfl, rfl⟩ := hin _ (hs.enabled.2.2.1 hen)
      exact .inr (.inr ⟨ok, rfl⟩)
  | resolved s ok =>
      obtain ⟨request, hs, hin⟩ := hrequest s
      obtain ⟨rfl, rfl⟩ := hin _ (hs.enabled.2.2.2 hen)
      exact .inr (.inr ⟨ok, rfl⟩)
  | timeout s => exact .inl ⟨s, rfl⟩
  | handleClosed s =>
      obtain ⟨request, hs, -⟩ := hrequest s
      exact absurd (hs.handleClosing_eq.symm.trans hen.1) Bool.false_ne_true
  | timerClosed s =>
      obtain ⟨request, hs, -⟩ := hrequest s
      exact absurd (hs.timerClosing_eq.symm.trans hen) Bool.false_ne_true
  | shutdown => exact .inr (.inl rfl)
  | close s => exact absurd rfl (hclose s)

/-! ### The completion of a request -/

theorem check_setSocket (t : TunnelCtx δ) (side : Side) (s : SocketCtx) (b : Bool) :
    (t.setSocket side s).check b = (t.check b).setSocket side s := by
  cases b <;> cases side <;> rfl

theorem Waits.setSocket (hw : Waits t side r) {s : SocketCtx} (hs : Awaits none s) :
    Quiet (t.setSocket side s) := by
  refine ⟨(setSocket_isTerminated t side s).trans hw.isTerminated_eq, fun side' => ?_⟩
  by_cases hside : side' = side
  · subst hside
    rw [socket_setSocket]
    exact hs
  · have hother : side' = side.other := by
      cases side' <;> cases side <;> first | rfl | exact absurd rfl hside
    rw [socket_setSocket_ne t hside, hother]
    exact hw.idle

/-- The tunnel with which the dispatcher goes on when the read is done. -/
theorem Waits.readQuiet (hw : Waits t side .read) (hstage : h.tunnelIsInStreaming t.data = false)
    (n : ℤ) (b : Bool) :
    Quiet (setStates ((readReady h (setResult t side n) side).check b) side .stop
      (((readReady h (setResult t side n) side).check b).socket side).wrstate) := by
  have hs := hw.awaits
  simp only [readReady, readStopped, setResult, setStates, check_setSocket, setSocket_setSocket,
    socket_setSocket, setSocket_data]
  refine ((hw.check _).check _).setSocket ?_
  refine ⟨⟨hs.isTerminated_eq, hs.handleClosing_eq, hs.timerClosing_eq⟩, rfl, hs.wrstate_eq, ?_,
    hs.writes_eq, hs.connects_eq, hs.lookups_eq⟩
  change ((t.socket side).reading && h.tunnelIsInStreaming t.data) = false
  rw [hstage, Bool.and_false]

/-- The same when the write is done. -/
theorem Waits.writeQuiet (hw : Waits t side .write) (n : ℤ) (b : Bool) {u : TunnelCtx δ}
    (hu : u = (writeReady h (setResult (t.setSocket side
      { t.socket side with writes := (t.socket side).writes - 1 }) side n) side).check b) :
    Quiet (setStates u side (u.socket side).rdstate .stop) := by
  have hs := hw.awaits
  subst hu
  simp only [writeReady, setResult, setStates, check_setSocket, setSocket_setSocket,
    socket_setSocket]
  refine ((hw.check _).check _).setSocket ?_
  exact ⟨⟨hs.isTerminated_eq, hs.handleClosing_eq, hs.timerClosing_eq⟩, hs.rdstate_eq, rfl,
    hs.reading_eq, congrArg (· - 1) hs.writes_eq, hs.connects_eq, hs.lookups_eq⟩

theorem Waits.connectQuiet (hw : Waits t side .connect) (n : ℤ) :
    Quiet (t.setSocket side
      { t.socket side with
        connects := (t.socket side).connects - 1
        result := n
        timerActive := false }) := by
  have hs := hw.awaits
  refine hw.setSocket ?_
  exact ⟨⟨hs.isTerminated_eq, hs.handleClosing_eq, hs.timerClosing_eq⟩, hs.rdstate_eq,
    hs.wrstate_eq, hs.reading_eq, hs.writes_eq, congrArg (· - 1) hs.connects_eq, hs.lookups_eq⟩

theorem Waits.lookupQuiet (hw : Waits t side .lookup) (n : ℤ) :
    Quiet (t.setSocket side
      { t.socket side with
        lookups := (t.socket side).lookups - 1
        result := n
        onGetaddrinfoPending := false
        timerActive := false }) := by
  have hs := hw.awaits
  refine hw.setSocket ?_
  exact ⟨⟨hs.isTerminated_eq, hs.handleClosing_eq, hs.timerClosing_eq⟩, hs.rdstate_eq,
    hs.wrstate_eq, hs.reading_eq, hs.writes_eq, hs.connects_eq, congrArg (· - 1) hs.lookups_eq⟩

theorem readReady_data (t : TunnelCtx δ) (side : Side) :
    (readReady h t side).data = t.data := by
  simp only [readReady, readStopped, setStates_data, setSocket_data, check_data]

theorem writeReady_data (t : TunnelCtx δ) (side : Side) :
    (writeReady h t side).data = t.data := by
  simp only [writeReady, setStates_data, check_data]

theorem readReady_result (t : TunnelCtx δ) (side : Side) :
    ((readReady h t side).socket side).result = (t.socket side).result := by
  simp only [readReady, readStopped, setStates, socket_setSocket]

theorem Waits.setResult (hw : Waits t side r) (n : ℤ) : Waits (setResult t side n) side r := by
  have hs := hw.awaits
  unfold Tunnel.setResult
  refine ⟨(setSocket_isTerminated t side _).trans hw.isTerminated_eq, ?_, ?_⟩
  · rw [socket_setSocket]
    exact ⟨⟨hs.isTerminated_eq, hs.handleClosing_eq, hs.timerClosing_eq⟩, hs.rdstate_eq,
      hs.wrstate_eq, hs.reading_eq, hs.writes_eq, hs.connects_eq, hs.lookups_eq⟩
  · have hne : side.other ≠ side := by cases side <;> decide
    rw [socket_setSocket_ne t hne]
    exact hw.idle

variable (h) in
/-- A completed write, up to the dispatcher. -/
theorem Waits.written_eq (hw : Waits t side .write) :
    ∃ v, Same t v ∧ (∀ b, Quiet (setStates (v.check b) side ((v.check b).socket side).rdstate .stop)) ∧
      step h t (.written side true) = h.tunnelWriteDone v side := by
  set u := Tunnel.setResult (t.setSocket side
    { t.socket side with writes := (t.socket side).writes - 1 }) side 0 with hudef
  have hfirst : Same t (t.setSocket side
    { t.socket side with writes := (t.socket side).writes - 1 }) := same_setSocket rfl
  have hu : Same t u := hfirst.trans (same_setSocket rfl)
  have hterm : ¬u.isTerminated = true := by
    rw [hu.isTerminated_eq, hw.isTerminated_eq]
    exact Bool.false_ne_true
  refine ⟨writeReady h u side, hu.trans (same_writeReady u side),
    fun b => hw.writeQuiet 0 b rfl, ?_⟩
  simp only [step, uvSocketWriteDoneCb, if_true]
  rw [← hudef, if_neg hterm, if_neg Bool.noConfusion]

variable (h) in
/-- A connection that stands, up to the handler. -/
theorem Waits.connected_eq (hw : Waits t side .connect) :
    ∃ u, Quiet u ∧ Same t u ∧ (u.socket side).result = 0 ∧
      step h t (.connected side true) = h.tunnelOutgoingConnectedDone u side := by
  have hq := hw.connectQuiet 0
  refine ⟨_, hq, same_setSocket rfl, by rw [socket_setSocket], ?_⟩
  simp only [step, uvSocketConnectDoneCb, if_true]
  rw [hq.isTerminated_eq, if_neg Bool.false_ne_true, if_neg Bool.noConfusion]

variable (h) in
/-- A lookup that is done, up to the handler. -/
theorem Waits.resolved_eq (hw : Waits t side .lookup) :
    ∃ u, Quiet u ∧ Same t u ∧ (u.socket side).result = 0 ∧
      step h t (.resolved side true) = h.tunnelOnGetaddrinfoDone u side := by
  have hq := hw.lookupQuiet 0
  refine ⟨_, hq, same_setSocket rfl, by rw [socket_setSocket], ?_⟩
  simp only [step, uvSocketOnGetaddrinfoCb, if_true]
  rw [hq.isTerminated_eq, if_neg Bool.false_ne_true, if_neg Bool.noConfusion]

/-! ### Callbacks of a tunnel that relays -/

variable (h) in
/-- The socket of a read as the dispatcher finds it. -/
theorem flows_readReady (hf : Flows t) (side : Side) (n : ℤ) :
    Flows (readReady h (setResult t side n) side) ∧
      Same t (readReady h (setResult t side n) side) ∧
      ((readReady h (setResult t side n) side).socket side).rdstate = .done := by
  have hs := hf.streams side
  simp only [readReady, readStopped, setResult, setStates, check_setSocket, setSocket_setSocket,
    socket_setSocket]
  refine ⟨(hf.check _).setSocket ?_, (same_check t _).trans (same_setSocket ?_), trivial⟩
  · exact ⟨⟨hs.isTerminated_eq, hs.handleClosing_eq, hs.timerClosing_eq⟩, hs.wrstate_ne,
      hs.connects_eq, hs.lookups_eq⟩
  · rw [check_socket]

theorem Flows.setResult (hf : Flows t) (side : Side) (n : ℤ) : Flows (setResult t side n) := by
  have hs := hf.streams side
  exact hf.setSocket ⟨⟨hs.isTerminated_eq, hs.handleClosing_eq, hs.timerClosing_eq⟩, hs.wrstate_ne,
    hs.connects_eq, hs.lookups_eq⟩

variable (h) in
/-- A completed write, from the callback to the end of the dispatcher. -/
theorem Flows.writeFinished (hf : Flows t) (side : Side) :
    Same t (setStates (writeReady h t side) side
        ((writeReady h t side).socket side).rdstate .stop) ∧
      Flows (setStates (writeReady h t side) side
        ((writeReady h t side).socket side).rdstate .stop) := by
  have hs := hf.streams side
  simp only [writeReady, setStates, setSocket_setSocket, socket_setSocket, check_socket]
  refine ⟨(same_check t _).trans (same_setSocket ?_), (hf.check _).setSocket ?_⟩
  · rw [check_socket]
  · exact ⟨⟨hs.isTerminated_eq, hs.handleClosing_eq, hs.timerClosing_eq⟩,
      fun h => SocketState.noConfusion h, hs.connects_eq, hs.lookups_eq⟩

/-- The socket of a write as the dispatcher finds it. -/
theorem writeReady_wrstate (t : TunnelCtx δ) (side : Side) :
    ((writeReady h t side).socket side).wrstate = .done := by
  rw [writeReady, setStates, socket_setSocket]

end Requests

section Steps

variable {t : TunnelCtx (ClientCtx κ)} {side : Side} {r : Request} {e : Event}

theorem ShutDown.phase {t' : TunnelCtx (ClientCtx κ)} (h : ShutDown t t') : Phase t' := by
  obtain ⟨u, -, hu⟩ := h
  exact .terminated (hu.isTerminated_eq.trans (tunnelShutdown_isTerminated u))

theorem readFailed_shutDown (hopen : t.isTerminated = false) (side : Side) (eof : Bool) :
    ShutDown t (uvSocketReadFailedCb (handlers env) t side eof) := by
  unfold uvSocketReadFailedCb
  extract_lets u v w
  have hu : Same t u := same_setSocket rfl
  have hv : Same u v := (same_check u _).trans (same_setSocket (by rw [check_socket]))
  have hw : Same v w := same_setSocket rfl
  rw [hu.isTerminated_eq, hopen, if_neg Bool.false_ne_true]
  refine ⟨w, (hu.trans hv).trans hw, ?_⟩
  split_ifs
  · exact Same.refl _
  · exact Same.refl _

theorem timeout_shutDown (hopen : t.isTerminated = false) (side : Side) :
    ShutDown t (uvSocketTimerExpireCb (handlers env) t side) := by
  unfold uvSocketTimerExpireCb
  extract_lets s u v s'
  have hu : Same t u := same_setSocket rfl
  have hv : v = tunnelShutdown u := by
    have hne : ¬u.isTerminated = true := by
      rw [hu.isTerminated_eq, hopen]
      exact Bool.false_ne_true
    exact if_neg hne
  refine ⟨u, hu, ?_⟩
  rw [← hv]
  exact same_setSocket rfl

/-- After a handler, `tunnel_socket_ctx_on_read_cb` may only start the timer. -/
theorem Phase.timerStarted (hp : Phase t) (side : Side) :
    Phase (if t.isTerminated then t
      else if tunnelSsrIsInStreaming t.data && (t.socket side).checkTimeout then
        onOpenSocket t side fun s => { s with timerActive := true }
      else t) := by
  split_ifs with hterm hstreaming
  · exact hp
  · rw [Bool.and_eq_true, tunnelSsrIsInStreaming, decide_eq_true_eq] at hstreaming
    cases hp with
    | terminated h => exact absurd h hterm
    | waiting h hw =>
        rw [hstreaming.1] at h
        cases h
    | streaming h hf =>
        have hs := hf.streams side
        rw [hf.onOpenSocket_eq]
        refine .streaming ((congrArg ClientCtx.stage (setSocket_data t side _)).trans h)
          (hf.setSocket ?_)
        exact ⟨⟨hs.isTerminated_eq, hs.handleClosing_eq, hs.timerClosing_eq⟩, hs.wrstate_ne,
          hs.connects_eq, hs.lookups_eq⟩
  · exact hp

/-! ### What is dispatched

A completed request finds a tunnel in which nothing is in flight. -/

variable (env) in
/-- The answer of the server; afterwards `tunnel_socket_ctx_on_read_cb` may start the timer. -/
theorem Waits.answerRead (hw : Waits t .outgoing .read)
    (hst : t.data.stage = .ssrServerFeedbackArrived) {data : Bytes} (hdata : data ≠ []) :
    ∃ u v, Quiet u ∧ Same t u ∧ 0 ≤ u.outgoing.result ∧
      v = (if (doSsrReceiptForFeedback env u data).2 = false then
        doActionAfterAuthServerSuccess env (doSsrReceiptForFeedback env u data).1
        else (doSsrReceiptForFeedback env u data).1) ∧
      step (handlers env) t (.read .outgoing data) =
        if v.isTerminated then v
        else if tunnelSsrIsInStreaming v.data && (v.socket .outgoing).checkTimeout then
          onOpenSocket v .outgoing fun s => { s with timerActive := true }
        else v := by
  have hstreaming : tunnelSsrIsInStreaming t.data = false := by
    rw [tunnelSsrIsInStreaming, hst]
    rfl
  set w := readReady (handlers env) (Tunnel.setResult t .outgoing data.length) .outgoing with hwdef
  have hready : Same t w := by
    have hset : Same t (Tunnel.setResult t .outgoing data.length) := same_setSocket rfl
    exact hset.trans (same_readReady _ _)
  set u := setStates (w.check (w.outgoing.rdstate = .done)) .outgoing .stop
    (w.check (w.outgoing.rdstate = .done)).outgoing.wrstate with hudef
  have hu : Same t u := (hready.trans (same_check w _)).trans (same_setSocket rfl)
  have hresult : 0 ≤ u.outgoing.result := by
    change 0 ≤ ((setStates _ .outgoing _ _).socket .outgoing).result
    rw [Tunnel.setStates, socket_setSocket, check_socket, hwdef, readReady_result, Tunnel.setResult,
      socket_setSocket]
    exact Int.natCast_nonneg data.length
  refine ⟨u, _, hw.readQuiet hstreaming data.length _, hu, hresult, rfl, ?_⟩
  have hterm : ¬(Tunnel.setResult t .outgoing data.length).isTerminated = true := by
    rw [Tunnel.setResult, setSocket_isTerminated, hw.isTerminated_eq]
    exact Bool.false_ne_true
  -- in this stage the dispatcher looks at the feedback
  have hdispatch : (handlers env).tunnelReadDone w .outgoing data =
      if (doSsrReceiptForFeedback env u data).2 = false then
        doActionAfterAuthServerSuccess env (doSsrReceiptForFeedback env u data).1
      else (doSsrReceiptForFeedback env u data).1 := by
    change tunnelSsrDispatcher env w .outgoing data = _
    unfold tunnelSsrDispatcher
    rw [hready.data_eq, hst]
  simp only [step, uvSocketReadDoneCb]
  rw [if_neg hdata, if_neg hterm, ← hwdef, hdispatch]
  rfl

variable (env) in
theorem Waits.authWritten (hw : Waits t .outgoing .write) (hst : t.data.stage = .ssrAuthSent) :
    ∃ u, Quiet u ∧ Same t u ∧
      step (handlers env) t (.written .outgoing true) = doSsrWaitingServerFeedback env u := by
  obtain ⟨v, hv, hq, heq⟩ := hw.written_eq (handlers env)
  refine ⟨_, hq (decide (v.outgoing.wrstate = .done)),
    (hv.trans (same_check v _)).trans (same_setSocket rfl), ?_⟩
  rw [heq]
  change tunnelSsrDispatcher env v .outgoing [] = _
  unfold tunnelSsrDispatcher
  rw [hv.data_eq, hst]
  rfl

variable (env) in
theorem Waits.receiptWritten (hw : Waits t .outgoing .write)
    (hst : t.data.stage = .ssrReceiptToServerSent) :
    ∃ u, Quiet u ∧ Same t u ∧
      step (handlers env) t (.written .outgoing true) = doActionAfterAuthServerSuccess env u := by
  obtain ⟨v, hv, hq, heq⟩ := hw.written_eq (handlers env)
  refine ⟨_, hq (decide (v.outgoing.wrstate = .done)),
    (hv.trans (same_check v _)).trans (same_setSocket rfl), ?_⟩
  rw [heq]
  change tunnelSsrDispatcher env v .outgoing [] = _
  unfold tunnelSsrDispatcher
  rw [hv.data_eq, hst]
  rfl

variable (env) in
theorem Waits.connectDone (hw : Waits t side .connect)
    (hst : t.data.stage = .connectSsrServerDone) :
    ∃ u, Quiet u ∧ Same t u ∧
      step (handlers env) t (.connected side true) = doSsrSendAuthPackageToServer env u := by
  obtain ⟨u, hq, hu, -, heq⟩ := hw.connected_eq (handlers env)
  refine ⟨u, hq, hu, ?_⟩
  rw [heq]
  change tunnelSsrDispatcher env u side [] = _
  unfold tunnelSsrDispatcher
  rw [hu.data_eq, hst]

variable (env) in
theorem Waits.lookupDone (hw : Waits t side .lookup)
    (hst : t.data.stage = .resolveSsrServerHostDone) :
    ∃ u, Quiet u ∧ Same t u ∧
      step (handlers env) t (.resolved side true) = doResolveSsrServerHostAftercare env u := by
  obtain ⟨u, hq, hu, -, heq⟩ := hw.resolved_eq (handlers env)
  refine ⟨u, hq, hu, ?_⟩
  rw [heq]
  change tunnelSsrDispatcher env u side [] = _
  unfold tunnelSsrDispatcher
  rw [hu.data_eq, hst]

theorem phase_readDone (hw : Waits t side .read) (hstage : awaited t.data.stage = some (side, .read))
    (data : Bytes) : Phase (step (handlers env) t (.read side data)) := by
  obtain ⟨hst, rfl⟩ : t.data.stage = .ssrServerFeedbackArrived ∧ side = .outgoing := by
    cases h : t.data.stage <;> rw [h] at hstage <;> cases hstage
    exact ⟨rfl, rfl⟩
  by_cases hempty : data = []
  · simp only [step, uvSocketReadDoneCb]
    rw [if_pos hempty]
    refine .waiting ?_ (hw.setResult _)
    rw [Tunnel.setResult, setSocket_data]
    exact hstage
  · obtain ⟨u, v, hq, -, hresult, hv, heq⟩ := hw.answerRead env hst hempty
    have hphase : Phase v := by
      rw [hv]
      exact hq.receiptForFeedback hresult data
    rw [heq]
    exact hphase.timerStarted .outgoing

theorem phase_writeDone (hw : Waits t side .write)
    (hstage : awaited t.data.stage = some (side, .write)) (ok : Bool) :
    Phase (step (handlers env) t (.written side ok)) := by
  cases ok with
  | false => exact (writeFailed_shutDown hw.isTerminated_eq side).phase
  | true =>
      have hst : (t.data.stage = .ssrAuthSent ∧ side = .outgoing) ∨
          (t.data.stage = .ssrReceiptToServerSent ∧ side = .outgoing) ∨ t.data.stage = .kill := by
        cases h : t.data.stage <;> rw [h] at hstage <;> cases hstage <;> simp
      rcases hst with ⟨hst, rfl⟩ | ⟨hst, rfl⟩ | hst
      · obtain ⟨u, hq, -, heq⟩ := hw.authWritten env hst
        rw [heq]
        exact hq.waitingServerFeedback
      · obtain ⟨u, hq, -, heq⟩ := hw.receiptWritten env hst
        rw [heq]
        exact hq.actionAfterAuth
      · obtain ⟨v, hv, -, heq⟩ := hw.written_eq (handlers env)
        rw [heq]
        change Phase (tunnelSsrDispatcher env v side [])
        unfold tunnelSsrDispatcher
        rw [hv.data_eq, hst]
        exact phase_shutdown _

theorem phase_connectDone (hw : Waits t side .connect)
    (hstage : awaited t.data.stage = some (side, .connect)) (ok : Bool) :
    Phase (step (handlers env) t (.connected side ok)) := by
  cases ok with
  | false => exact (connectFailed_shutDown hw.isTerminated_eq side).phase
  | true =>
      have hst : t.data.stage = .connectSsrServerDone := by
        cases h : t.data.stage <;> rw [h] at hstage <;> cases hstage
      obtain ⟨u, hq, -, heq⟩ := hw.connectDone env hst
      rw [heq]
      exact hq.sendAuthPackage

theorem phase_getaddrinfoDone (hw : Waits t side .lookup)
    (hstage : awaited t.data.stage = some (side, .lookup)) (ok : Bool) :
    Phase (step (handlers env) t (.resolved side ok)) := by
  cases ok with
  | false => exact (lookupFailed_shutDown hw.isTerminated_eq side).phase
  | true =>
      have hst : t.data.stage = .resolveSsrServerHostDone := by
        cases h : t.data.stage <;> rw [h] at hstage <;> cases hstage
      obtain ⟨u, hq, -, heq⟩ := hw.lookupDone env hst
      rw [heq]
      exact hq.resolveAftercare

/-- Whatever happens while a request is in flight, the next stage waits for what it has started. -/
theorem phase_waiting (hw : Waits t side r) (hstage : awaited t.data.stage = some (side, r))
    (hocc : Occurs t e) : Phase (step (handlers env) t e) := by
  rcases hw.event hocc with ⟨s, rfl⟩ | rfl | hcompletes
  · exact (timeout_shutDown hw.isTerminated_eq s).phase
  · exact phase_shutdown t
  · cases r with
    | read =>
        rcases hcompletes with ⟨data, rfl⟩ | ⟨eof, rfl⟩
        · exact phase_readDone hw hstage data
        · exact (readFailed_shutDown hw.isTerminated_eq side eof).phase
    | write =>
        obtain ⟨ok, rfl⟩ := hcompletes
        exact phase_writeDone hw hstage ok
    | connect =>
        obtain ⟨ok, rfl⟩ := hcompletes
        exact phase_connectDone hw hstage ok
    | lookup =>
        obtain ⟨ok, rfl⟩ := hcompletes
        exact phase_getaddrinfoDone hw hstage ok

end Steps

end Client
end SsrNative
