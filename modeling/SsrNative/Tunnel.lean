import SsrNative.Bytes
import SsrNative.Lib.Transition

/-!
# Tunnel — the two sockets of a tunnel and the event loop

`tunnel.c`: a tunnel owns an incoming and an outgoing socket, each with a stream handle, a timer
handle and requests that libuv holds on to.  libuv calls back when something happens; the callbacks
here update the sockets and call the handlers that the client or the server has put into the tunnel.

Beside the fields of the source a socket has what libuv knows about it (whether it reads, which
requests are in flight, which handles are closing), and a tunnel has two fields that only observe:
how often `tunnel_destroy_internal` ran, and whether an `ASSERT` or `VERIFY` failed.  The model goes
on after a failed `ASSERT`, as a release build does.
-/

namespace SsrNative
namespace Tunnel

/-! ## Data -/

inductive SocketState where
  | stop
  | busy
  | done
  | dead
deriving DecidableEq

inductive Side where
  | incoming
  | outgoing
deriving DecidableEq

def Side.other : Side → Side
  | .incoming => .outgoing
  | .outgoing => .incoming

/-- `struct socket_ctx`, and from `reading` on what libuv holds for it. -/
structure SocketCtx where
  rdstate : SocketState
  wrstate : SocketState
  isTerminated : Bool
  refCount : ℤ
  result : ℤ
  checkTimeout : Bool
  onGetaddrinfoPending : Bool
  /-- `on_closed` is set; it is always `tunnel_socket_ctx_on_closed_cb`. -/
  onClosed : Bool
  closingCount : ℤ
  reading : Bool
  timerActive : Bool
  connects : ℕ
  lookups : ℕ
  writes : ℕ
  handleClosing : Bool
  timerClosing : Bool
  /-- Everything handed to `uv_write`, oldest first. -/
  written : List Bytes
deriving DecidableEq

/-- `socket_context_create`. -/
def socketContextCreate : SocketCtx where
  rdstate := .stop
  wrstate := .stop
  isTerminated := false
  refCount := 1
  result := 0
  checkTimeout := false
  onGetaddrinfoPending := false
  onClosed := false
  closingCount := 0
  reading := false
  timerActive := false
  connects := 0
  lookups := 0
  writes := 0
  handleClosing := false
  timerClosing := false
  written := []

/-- `struct tunnel_ctx`; `data` belongs to the client or the server. -/
structure TunnelCtx (δ : Type*) where
  data : δ
  isTerminated : Bool
  incoming : SocketCtx
  outgoing : SocketCtx
  refCount : ℤ
  destroyed : ℕ
  failed : Bool
deriving DecidableEq

section Model

variable {δ : Type*}

def TunnelCtx.socket (t : TunnelCtx δ) : Side → SocketCtx
  | .incoming => t.incoming
  | .outgoing => t.outgoing

def TunnelCtx.setSocket (t : TunnelCtx δ) (side : Side) (s : SocketCtx) : TunnelCtx δ :=
  match side with
  | .incoming => { t with incoming := s }
  | .outgoing => { t with outgoing := s }

/-- Record a failed `ASSERT` or `VERIFY`. -/
def TunnelCtx.check (t : TunnelCtx δ) (b : Bool) : TunnelCtx δ :=
  if b then t else { t with failed := true }

/-! ## Reference counts and closing -/

/-- `tunnel_destroy_internal`: the tunnel's own references to its sockets are released. -/
def tunnelDestroyInternal (t : TunnelCtx δ) : TunnelCtx δ :=
  { t with
    destroyed := t.destroyed + 1
    incoming := { t.incoming with refCount := t.incoming.refCount - 1 }
    outgoing := { t.outgoing with refCount := t.outgoing.refCount - 1 } }

def tunnelCtxAddRef (t : TunnelCtx δ) : TunnelCtx δ := { t with refCount := t.refCount + 1 }

def tunnelCtxRelease (t : TunnelCtx δ) : TunnelCtx δ :=
  let t := { t with refCount := t.refCount - 1 }
  if t.refCount ≤ 0 then tunnelDestroyInternal (t.check (t.refCount = 0)) else t

/-- `tunnel_socket_ctx_on_closed_cb`. -/
def tunnelSocketCtxOnClosedCb (t : TunnelCtx δ) : TunnelCtx δ := tunnelCtxRelease t

/-- `socket_ctx_close` with `tunnel_socket_ctx_on_closed_cb` for `on_closed`.  A lookup in flight is
cancelled with `uv_cancel`; its callback fires nevertheless, so nothing changes for it here. -/
def socketCtxClose (t : TunnelCtx δ) (side : Side) : TunnelCtx δ :=
  let s := t.socket side
  if s.isTerminated then tunnelSocketCtxOnClosedCb t
  else
    (t.check (s.rdstate ≠ .dead ∧ s.wrstate ≠ .dead)).setSocket side
      { s with
        isTerminated := true
        rdstate := .dead
        wrstate := .dead
        reading := false
        timerActive := false
        refCount := s.refCount + 2
        handleClosing := true
        timerClosing := true
        closingCount := 2
        onClosed := true }

def tunnelShutdown (t : TunnelCtx δ) : TunnelCtx δ :=
  if t.isTerminated then t
  else
    let t := { t with isTerminated := true }
    let t := socketCtxClose (tunnelCtxAddRef t) .incoming
    let t := socketCtxClose (tunnelCtxAddRef t) .outgoing
    tunnelCtxRelease t

/-! ## What handlers may do with a socket

On a socket that was closed libuv refuses these calls, and the `VERIFY` around them fails. -/

/-- An operation on a socket that is not closed. -/
def onOpenSocket (t : TunnelCtx δ) (side : Side) (f : SocketCtx → SocketCtx) : TunnelCtx δ :=
  if (t.socket side).isTerminated then t.check false else t.setSocket side (f (t.socket side))

def socketCtxRead (t : TunnelCtx δ) (side : Side) (checkTimeout : Bool) : TunnelCtx δ :=
  onOpenSocket (t.check ((t.socket side).rdstate = .stop)) side fun s =>
    { s with
      rdstate := .busy
      checkTimeout := checkTimeout
      reading := true
      timerActive := s.timerActive || checkTimeout }

def socketCtxWrite (t : TunnelCtx δ) (side : Side) (data : Bytes) : TunnelCtx δ :=
  onOpenSocket t side fun s =>
    { s with wrstate := .busy, writes := s.writes + 1, written := s.written ++ [data] }

/-- `socket_ctx_connect` when `uv_tcp_connect` accepts the request. -/
def socketCtxConnect (t : TunnelCtx δ) (side : Side) : TunnelCtx δ :=
  onOpenSocket t side fun s => { s with connects := s.connects + 1, timerActive := true }

def socketCtxGetaddrinfo (t : TunnelCtx δ) (side : Side) : TunnelCtx δ :=
  onOpenSocket t side fun s =>
    { s with lookups := s.lookups + 1, timerActive := true, onGetaddrinfoPending := true }

/-- Handlers also assign to `rdstate` and `wrstate`, which libuv does not look at. -/
def setStates (t : TunnelCtx δ) (side : Side) (rd wr : SocketState) : TunnelCtx δ :=
  t.setSocket side { t.socket side with rdstate := rd, wrstate := wr }

/-- What one statement of a handler can do to its tunnel. -/
inductive ApiStep : TunnelCtx δ → TunnelCtx δ → Prop
  | data (t : TunnelCtx δ) (d : δ) : ApiStep t { t with data := d }
  | check (t : TunnelCtx δ) (b : Bool) : ApiStep t (t.check b)
  | states (t : TunnelCtx δ) (side : Side) (rd wr : SocketState) : ApiStep t (setStates t side rd wr)
  | read (t : TunnelCtx δ) (side : Side) (b : Bool) : ApiStep t (socketCtxRead t side b)
  | write (t : TunnelCtx δ) (side : Side) (d : Bytes) : ApiStep t (socketCtxWrite t side d)
  | connect (t : TunnelCtx δ) (side : Side) : ApiStep t (socketCtxConnect t side)
  | getaddrinfo (t : TunnelCtx δ) (side : Side) : ApiStep t (socketCtxGetaddrinfo t side)
  | shutdown (t : TunnelCtx δ) : ApiStep t (tunnelShutdown t)

/-- What a handler does: some statements one after the other. -/
inductive ApiSteps : TunnelCtx δ → TunnelCtx δ → Prop
  | refl (t : TunnelCtx δ) : ApiSteps t t
  | tail {t u v : TunnelCtx δ} : ApiSteps t u → ApiStep u v → ApiSteps t v

theorem ApiSteps.trans {t u v : TunnelCtx δ} (h : ApiSteps t u) (h' : ApiSteps u v) :
    ApiSteps t v := by
  induction h' with
  | refl => exact h
  | tail _ hstep ih => exact ih.tail hstep

namespace ApiSteps

variable {t u : TunnelCtx δ} {side : Side}

theorem withData {d : δ} (h : ApiSteps t u) : ApiSteps t { u with data := d } := h.tail (.data u d)

theorem checked {b : Bool} (h : ApiSteps t u) : ApiSteps t (u.check b) := h.tail (.check u b)

theorem setStates {rd wr : SocketState} (h : ApiSteps t u) : ApiSteps t (setStates u side rd wr) :=
  h.tail (.states u side rd wr)

theorem read {checkTimeout : Bool} (h : ApiSteps t u) : ApiSteps t (socketCtxRead u side checkTimeout) :=
  h.tail (.read u side checkTimeout)

theorem connect (h : ApiSteps t u) : ApiSteps t (socketCtxConnect u side) := h.tail (.connect u side)

theorem getaddrinfo (h : ApiSteps t u) : ApiSteps t (socketCtxGetaddrinfo u side) :=
  h.tail (.getaddrinfo u side)

theorem shutdown (h : ApiSteps t u) : ApiSteps t (tunnelShutdown u) := h.tail (.shutdown u)

end ApiSteps

/-- The functions that client and server put into `struct tunnel_ctx`. -/
structure Handlers (δ : Type*) where
  tunnelIsInStreaming : δ → Bool
  tunnelReadDone : TunnelCtx δ → Side → Bytes → TunnelCtx δ
  tunnelWriteDone : TunnelCtx δ → Side → TunnelCtx δ
  tunnelOutgoingConnectedDone : TunnelCtx δ → Side → TunnelCtx δ
  tunnelOnGetaddrinfoDone : TunnelCtx δ → Side → TunnelCtx δ
  tunnelTimeoutExpireDone : TunnelCtx δ → Side → TunnelCtx δ
  tunnelArriveEndOfFile : TunnelCtx δ → Side → TunnelCtx δ

/-- The handlers reach the tunnel through its functions only. -/
structure Handlers.UsesApi (h : Handlers δ) : Prop where
  readDone : ∀ t side data, ApiSteps t (h.tunnelReadDone t side data)
  writeDone : ∀ t side, ApiSteps t (h.tunnelWriteDone t side)
  connectedDone : ∀ t side, ApiSteps t (h.tunnelOutgoingConnectedDone t side)
  getaddrinfoDone : ∀ t side, ApiSteps t (h.tunnelOnGetaddrinfoDone t side)
  timeoutDone : ∀ t side, ApiSteps t (h.tunnelTimeoutExpireDone t side)
  endOfFile : ∀ t side, ApiSteps t (h.tunnelArriveEndOfFile t side)

/-- `tunnel_socket_ctx_write`; `streaming` is `tunnel_is_in_streaming`. -/
def tunnelSocketCtxWrite (streaming : δ → Bool) (t : TunnelCtx δ) (side : Side) (data : Bytes) :
    TunnelCtx δ :=
  socketCtxWrite (t.check (streaming t.data = true ∨ (t.socket side).wrstate = .stop)) side data

/-! ## The callbacks -/

variable (h : Handlers δ)

/-- `socket->result`, which every callback sets first. -/
def setResult (t : TunnelCtx δ) (side : Side) (result : ℤ) : TunnelCtx δ :=
  t.setSocket side { t.socket side with result := result }

/-- What `tunnel_socket_ctx_on_read_cb` does before it looks at the status: outside of streaming the
socket stops reading. -/
def readStopped (t : TunnelCtx δ) (side : Side) : TunnelCtx δ :=
  let s := t.socket side
  let streaming := h.tunnelIsInStreaming t.data
  (t.check (streaming = true ∨ s.rdstate = .busy)).setSocket side
    { s with reading := s.reading && streaming, timerActive := false }

/-- The tunnel as `tunnel_read_done` gets it. -/
def readReady (t : TunnelCtx δ) (side : Side) : TunnelCtx δ :=
  let t := readStopped h t side
  setStates t side .done (t.socket side).wrstate

/-- `uv_socket_read_done_cb` and `tunnel_socket_ctx_on_read_cb` with data; no data is like no call. -/
def uvSocketReadDoneCb (t : TunnelCtx δ) (side : Side) (data : Bytes) : TunnelCtx δ :=
  let t := setResult t side data.length
  if data = [] then t
  else if t.isTerminated then t
  else
    let t := h.tunnelReadDone (readReady h t side) side data
    if t.isTerminated then t
    else if h.tunnelIsInStreaming t.data && (t.socket side).checkTimeout then
      onOpenSocket t side fun s => { s with timerActive := true }
    else t

/-- The same with an error; `eof` tells the end of the stream from other errors. -/
def uvSocketReadFailedCb (t : TunnelCtx δ) (side : Side) (eof : Bool) : TunnelCtx δ :=
  let t := setResult t side (-1)
  if t.isTerminated then t
  else
    let t := readStopped h t side
    let t := setStates t side .stop (t.socket side).wrstate
    if eof then h.tunnelArriveEndOfFile t side else tunnelShutdown t

/-- The tunnel as `tunnel_write_done` gets it. -/
def writeReady (t : TunnelCtx δ) (side : Side) : TunnelCtx δ :=
  let t := t.check (h.tunnelIsInStreaming t.data = true ∨ (t.socket side).wrstate = .busy)
  setStates t side (t.socket side).rdstate .done

/-- `uv_socket_write_done_cb` and `tunnel_socket_ctx_on_written_cb`. -/
def uvSocketWriteDoneCb (t : TunnelCtx δ) (side : Side) (ok : Bool) : TunnelCtx δ :=
  let t := t.setSocket side { t.socket side with writes := (t.socket side).writes - 1 }
  let t := setResult t side (if ok then 0 else -1)
  if t.isTerminated then t
  else if ok = false then tunnelShutdown (setStates t side (t.socket side).rdstate .stop)
  else h.tunnelWriteDone (writeReady h t side) side

/-- `uv_socket_connect_done_cb` and `tunnel_socket_ctx_on_connect_cb`. -/
def uvSocketConnectDoneCb (t : TunnelCtx δ) (side : Side) (ok : Bool) : TunnelCtx δ :=
  let t := t.setSocket side
    { t.socket side with
      connects := (t.socket side).connects - 1
      result := if ok then 0 else -1
      timerActive := false }
  if t.isTerminated then t
  else if ok = false then tunnelShutdown t
  else h.tunnelOutgoingConnectedDone t side

/-- `uv_socket_on_getaddrinfo_cb` and `tunnel_socket_ctx_on_getaddrinfo_cb`. -/
def uvSocketOnGetaddrinfoCb (t : TunnelCtx δ) (side : Side) (ok : Bool) : TunnelCtx δ :=
  let t := t.setSocket side
    { t.socket side with
      lookups := (t.socket side).lookups - 1
      result := if ok then 0 else -1
      onGetaddrinfoPending := false
      timerActive := false }
  if t.isTerminated then t
  else if ok = false then tunnelShutdown t
  else h.tunnelOnGetaddrinfoDone t side

/-- `uv_socket_timer_expire_cb` and `tunnel_socket_ctx_on_timeout_cb`. -/
def uvSocketTimerExpireCb (t : TunnelCtx δ) (side : Side) : TunnelCtx δ :=
  let t := t.setSocket side
    { t.socket side with
      timerActive := false
      result := -1
      refCount := (t.socket side).refCount + 1 }
  let t := if t.isTerminated then t else tunnelShutdown (h.tunnelTimeoutExpireDone t side)
  t.setSocket side { t.socket side with refCount := (t.socket side).refCount - 1 }

/-- `uv_socket_close_done_cb`, once libuv has let go of the handle. -/
def uvSocketCloseDoneCb (t : TunnelCtx δ) (side : Side) : TunnelCtx δ :=
  let s := t.socket side
  let t := t.setSocket side { s with closingCount := s.closingCount - 1 }
  let t :=
    if s.closingCount - 1 ≤ 0 then
      let t := t.check (s.closingCount - 1 = 0)
      if s.onClosed then
        let t := tunnelSocketCtxOnClosedCb t
        t.setSocket side { t.socket side with onClosed := false }
      else t
    else t
  t.setSocket side { t.socket side with refCount := (t.socket side).refCount - 1 }

/-! ## Events -/

/-- What can happen to a tunnel: a callback of libuv for one of its sockets, or a call of
`tunnel_shutdown` or `socket_ctx_close` from outside. -/
inductive Event where
  | read (side : Side) (data : Bytes)
  | readFailed (side : Side) (eof : Bool)
  | written (side : Side) (ok : Bool)
  | connected (side : Side) (ok : Bool)
  | resolved (side : Side) (ok : Bool)
  | timeout (side : Side)
  | handleClosed (side : Side)
  | timerClosed (side : Side)
  | shutdown
  | close (side : Side)
deriving DecidableEq

/-- The socket for which an event is a callback. -/
def Event.callback? : Event → Option Side
  | .read side _ => some side
  | .readFailed side _ => some side
  | .written side _ => some side
  | .connected side _ => some side
  | .resolved side _ => some side
  | .timeout side => some side
  | .handleClosed side => some side
  | .timerClosed side => some side
  | .shutdown => none
  | .close _ => none

/-- When libuv may deliver a callback: the requests of a handle complete before it is closed.  Calls
from outside need a tunnel that still exists. -/
def Enabled (t : TunnelCtx δ) : Event → Prop
  | .read side _ => (t.socket side).reading = true
  | .readFailed side _ => (t.socket side).reading = true
  | .written side _ => 0 < (t.socket side).writes
  | .connected side _ => 0 < (t.socket side).connects
  | .resolved side _ => 0 < (t.socket side).lookups
  | .timeout side => (t.socket side).timerActive = true
  | .handleClosed side =>
      (t.socket side).handleClosing = true ∧ (t.socket side).connects = 0 ∧ (t.socket side).writes = 0
  | .timerClosed side => (t.socket side).timerClosing = true
  | .shutdown => t.destroyed = 0
  | .close _ => t.destroyed = 0

instance (t : TunnelCtx δ) (e : Event) : Decidable (Enabled t e) := by
  cases e <;> unfold Enabled <;> infer_instance

def step (t : TunnelCtx δ) : Event → TunnelCtx δ
  | .read side data => uvSocketReadDoneCb h t side data
  | .readFailed side eof => uvSocketReadFailedCb h t side eof
  | .written side ok => uvSocketWriteDoneCb h t side ok
  | .connected side ok => uvSocketConnectDoneCb h t side ok
  | .resolved side ok => uvSocketOnGetaddrinfoCb h t side ok
  | .timeout side => uvSocketTimerExpireCb h t side
  | .handleClosed side =>
      uvSocketCloseDoneCb (t.setSocket side { t.socket side with handleClosing := false }) side
  | .timerClosed side =>
      uvSocketCloseDoneCb (t.setSocket side { t.socket side with timerClosing := false }) side
  | .shutdown => tunnelShutdown t
  | .close side => socketCtxClose (tunnelCtxAddRef t) side

/-- `tunnel_initialize`: `success` is what `init_done_cb` returned. -/
def tunnelInitialize (data : δ) (listener success : Bool) : TunnelCtx δ :=
  let t : TunnelCtx δ :=
    { data := data
      isTerminated := false
      incoming := socketContextCreate
      outgoing := socketContextCreate
      refCount := 0
      destroyed := 0
      failed := false }
  let t := tunnelCtxAddRef t
  if success then (if listener then socketCtxRead t .incoming true else t) else tunnelShutdown t

end Model

end Tunnel
end SsrNative
