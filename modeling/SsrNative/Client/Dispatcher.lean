import SsrNative.Tunnel

/-!
# Dispatcher — the client's state machine between application and server

`tunnel_ssr_dispatcher` of `client/client.c` drives a tunnel from the moment its application has
asked for a connection: the server is looked up and connected to, the target address is sent, the
obfuscation may want an answer and reply to it, and then both directions are relayed.

The dispatcher is not told which event called it.  It looks at the stage and at the states of the
sockets.

The cipher pipeline and the environment are parameters here.
-/

namespace SsrNative
namespace Client

open Tunnel

/-- The stages of `enum tunnel_stage` that follow the SOCKS5 negotiation. -/
inductive Stage where
  | resolveSsrServerHostDone
  | connectSsrServerDone
  | ssrAuthSent
  | ssrServerFeedbackArrived
  | ssrReceiptToServerSent
  | authCompletionDone
  | streaming
  | kill
deriving DecidableEq

/-- What `tunnel_cipher_client_decrypt` returns: the buffer unless there is an error, and
`*feedback`. -/
structure Decrypted where
  buf : Option Bytes
  feedback : Option Bytes

/-- `tunnel_cipher_create` and the functions of a `tunnel_cipher_ctx`; an encryption that fails
gives `none`. -/
structure Cipher (κ : Type*) where
  create : Bytes → κ
  needFeedback : κ → Bool
  encrypt : κ → Bytes → κ × Option Bytes
  decrypt : κ → Bytes → κ × Decrypted

/-- What the client asks its surroundings, each once for a tunnel: whether the server is given by an
address, whether the server may be reached, and whether `uv_tcp_connect` accepts the request. -/
structure Env (κ : Type*) where
  cipher : Cipher κ
  hostIsAddress : Bool
  canAccess : Bool
  connectAccepted : Bool

/-- `struct client_ctx`. -/
structure ClientCtx (κ : Type*) where
  stage : Stage
  cipher : κ
  targetAddressPkg : Bytes
  firstClientPkg : Bytes

section Model

variable {κ : Type*} (env : Env κ)

/-- `tunnel_ssr_is_in_streaming`. -/
def tunnelSsrIsInStreaming (ctx : ClientCtx κ) : Bool := decide (ctx.stage = .streaming)

def setStage (t : TunnelCtx (ClientCtx κ)) (stage : Stage) : TunnelCtx (ClientCtx κ) :=
  { t with data := { t.data with stage := stage } }

def setCipher (t : TunnelCtx (ClientCtx κ)) (cipher : κ) : TunnelCtx (ClientCtx κ) :=
  { t with data := { t.data with cipher := cipher } }

def write (t : TunnelCtx (ClientCtx κ)) (side : Side) (data : Bytes) : TunnelCtx (ClientCtx κ) :=
  tunnelSocketCtxWrite tunnelSsrIsInStreaming t side data

/-- The four `ASSERT`s with which most functions of the client begin. -/
def checkStopped (t : TunnelCtx (ClientCtx κ)) : TunnelCtx (ClientCtx κ) :=
  t.check (t.incoming.rdstate = .stop ∧ t.incoming.wrstate = .stop ∧
    t.outgoing.rdstate = .stop ∧ t.outgoing.wrstate = .stop)

/-! ## Connecting to the server -/

/-- A reply to the application that ends the tunnel when it is written. -/
def refuse (t : TunnelCtx (ClientCtx κ)) (reply : Bytes) : TunnelCtx (ClientCtx κ) :=
  setStage (write t .incoming reply) .kill

def doConnectSsrServer (t : TunnelCtx (ClientCtx κ)) : TunnelCtx (ClientCtx κ) :=
  let t := checkStopped t
  if env.canAccess = false then refuse t [5, 2, 0, 1, 0, 0, 0, 0, 0, 0]
  else if env.connectAccepted = false then tunnelShutdown t
  else setStage (socketCtxConnect t .outgoing) .connectSsrServerDone

/-- `do_common_connet_remote_server` for the address that the application has asked for. -/
def doCommonConnetRemoteServer (t : TunnelCtx (ClientCtx κ)) (targetAddress : Bytes) :
    TunnelCtx (ClientCtx κ) :=
  let t := { t with
    data := { t.data with
      targetAddressPkg := targetAddress
      cipher := env.cipher.create targetAddress } }
  if env.hostIsAddress = false then
    setStage (socketCtxGetaddrinfo t .outgoing) .resolveSsrServerHostDone
  else doConnectSsrServer env t

def doResolveSsrServerHostAftercare (t : TunnelCtx (ClientCtx κ)) : TunnelCtx (ClientCtx κ) :=
  let t := checkStopped t
  if t.outgoing.result < 0 then refuse t [5, 4, 0, 1, 0, 0, 0, 0, 0, 0]
  else doConnectSsrServer env t

def doSsrSendAuthPackageToServer (t : TunnelCtx (ClientCtx κ)) : TunnelCtx (ClientCtx κ) :=
  let t := checkStopped t
  if t.outgoing.result = 0 then
    let r := env.cipher.encrypt t.data.cipher t.data.targetAddressPkg
    let t := setCipher t r.1
    match r.2 with
    | none => tunnelShutdown t
    | some out => setStage (write t .outgoing out) .ssrAuthSent
  else refuse t [5, 5, 0, 1, 0, 0, 0, 0, 0, 0]

/-! ## The answer of the server -/

def doLaunchStreaming (t : TunnelCtx (ClientCtx κ)) : TunnelCtx (ClientCtx κ) :=
  let t := checkStopped t
  if t.incoming.result < 0 then tunnelShutdown t
  else
    let tmp := t.data.firstClientPkg
    let t := { t with data := { t.data with firstClientPkg := [] } }
    let r := env.cipher.encrypt t.data.cipher tmp
    let t := setCipher t r.1
    match r.2 with
    | none => tunnelShutdown t
    | some out =>
        let t := write t .outgoing out
        let t := socketCtxRead t .incoming false
        let t := socketCtxRead t .outgoing true
        setStage t .streaming

/-- `do_action_after_auth_server_success`: the dispatcher is called again for the new stage. -/
def doActionAfterAuthServerSuccess (t : TunnelCtx (ClientCtx κ)) : TunnelCtx (ClientCtx κ) :=
  doLaunchStreaming env (checkStopped (setStage t .authCompletionDone))

def doSsrWaitingServerFeedback (t : TunnelCtx (ClientCtx κ)) : TunnelCtx (ClientCtx κ) :=
  let t := checkStopped t
  if t.outgoing.result < 0 then tunnelShutdown t
  else if env.cipher.needFeedback t.data.cipher then
    setStage (socketCtxRead t .outgoing true) .ssrServerFeedbackArrived
  else doActionAfterAuthServerSuccess env t

/-- `do_ssr_receipt_for_feedback`; the flag tells whether a receipt is on its way. -/
def doSsrReceiptForFeedback (t : TunnelCtx (ClientCtx κ)) (buf : Bytes) :
    TunnelCtx (ClientCtx κ) × Bool :=
  let t := checkStopped t
  if t.outgoing.result < 0 then (tunnelShutdown t, false)
  else
    let r := env.cipher.decrypt t.data.cipher buf
    let t := setCipher t r.1
    let t := t.check r.2.buf.isSome
    let t := t.check (r.2.buf = some [])
    match r.2.feedback with
    | none => (t, false)
    | some feedback => (setStage (write t .outgoing feedback) .ssrReceiptToServerSent, true)

/-! ## Relaying -/

/-- `tunnel_extract_data`: what was read on a socket, encrypted for the server or decrypted for the
application. -/
def tunnelExtractData (t : TunnelCtx (ClientCtx κ)) (side : Side) (buf : Bytes) :
    TunnelCtx (ClientCtx κ) × Option Bytes :=
  match side with
  | .incoming =>
      let r := env.cipher.encrypt t.data.cipher buf
      (setCipher t r.1, r.2)
  | .outgoing =>
      let r := env.cipher.decrypt t.data.cipher buf
      ((setCipher t r.1).check r.2.feedback.isNone, r.2.buf)

def tunnelSsrClientStreaming (t : TunnelCtx (ClientCtx κ)) (side : Side) (buf : Bytes) :
    TunnelCtx (ClientCtx κ) :=
  let s := t.socket side
  let t := t.check (s.rdstate = .done ∨ s.wrstate = .done)
  if s.wrstate = .done then setStates t side s.rdstate .stop
  else if s.rdstate = .done then
    let r := tunnelExtractData env (setStates t side .stop s.wrstate) side buf
    match r.2 with
    | none => tunnelShutdown r.1
    | some out => write r.1 side.other out
  else t.check false

/-! ## The dispatcher -/

/-- `tunnel_ssr_dispatcher`; `buf` is the buffer of the socket, which holds something only while a
read is dispatched. -/
def tunnelSsrDispatcher (t : TunnelCtx (ClientCtx κ)) (side : Side) (buf : Bytes) :
    TunnelCtx (ClientCtx κ) :=
  match t.data.stage with
  | .resolveSsrServerHostDone => doResolveSsrServerHostAftercare env t
  | .connectSsrServerDone => doSsrSendAuthPackageToServer env t
  | .ssrAuthSent =>
      let t := t.check (t.outgoing.wrstate = .done)
      doSsrWaitingServerFeedback env (setStates t .outgoing t.outgoing.rdstate .stop)
  | .ssrServerFeedbackArrived =>
      let t := t.check (t.outgoing.rdstate = .done)
      let r := doSsrReceiptForFeedback env (setStates t .outgoing .stop t.outgoing.wrstate) buf
      if r.2 = false then doActionAfterAuthServerSuccess env r.1 else r.1
  | .ssrReceiptToServerSent =>
      let t := t.check (t.outgoing.wrstate = .done)
      doActionAfterAuthServerSuccess env (setStates t .outgoing t.outgoing.rdstate .stop)
  | .authCompletionDone => doLaunchStreaming env (checkStopped t)
  | .streaming => tunnelSsrClientStreaming env t side buf
  | .kill => tunnelShutdown t

/-- What the client puts into its tunnels. -/
def handlers : Handlers (ClientCtx κ) where
  tunnelIsInStreaming := tunnelSsrIsInStreaming
  tunnelReadDone t side data := tunnelSsrDispatcher env t side data
  tunnelWriteDone t side := tunnelSsrDispatcher env t side []
  tunnelOutgoingConnectedDone t side := tunnelSsrDispatcher env t side []
  tunnelOnGetaddrinfoDone t side := tunnelSsrDispatcher env t side []
  tunnelTimeoutExpireDone t _ := t
  tunnelArriveEndOfFile t _ := tunnelShutdown t

end Model

end Client

/-! ## The client reaches its tunnel through the functions of the tunnel -/

namespace Tunnel
namespace ApiSteps

open Client

variable {κ : Type*} {env : Env κ} {t u : TunnelCtx (ClientCtx κ)}

theorem setStage {stage : Stage} (h : ApiSteps t u) : ApiSteps t (setStage u stage) :=
  h.withData

theorem setCipher {cipher : κ} (h : ApiSteps t u) : ApiSteps t (setCipher u cipher) :=
  h.withData

theorem write {side : Side} {data : Bytes} (h : ApiSteps t u) :
    ApiSteps t (write u side data) := h.checked.tail (.write _ side data)

theorem refuse {reply : Bytes} (h : ApiSteps t u) : ApiSteps t (refuse u reply) :=
  h.write.setStage

theorem connectSsrServer (h : ApiSteps t u) : ApiSteps t (doConnectSsrServer env u) := by
  unfold doConnectSsrServer
  extract_lets v
  have hv : ApiSteps t v := h.checked
  split_ifs
  · exact hv.refuse
  · exact hv.shutdown
  · exact hv.connect.setStage

theorem launchStreaming (h : ApiSteps t u) : ApiSteps t (doLaunchStreaming env u) := by
  unfold doLaunchStreaming
  extract_lets v tmp d w r x
  have hv : ApiSteps t v := h.checked
  have hw : ApiSteps t w := hv.withData
  split_ifs
  · exact hv.shutdown
  · cases r.2 with
    | none => exact hw.setCipher.shutdown
    | some out => exact hw.setCipher.write.read.read.setStage

theorem actionAfterAuth (h : ApiSteps t u) :
    ApiSteps t (doActionAfterAuthServerSuccess env u) :=
  h.setStage.checked.launchStreaming

theorem receiptForFeedback {buf : Bytes} (h : ApiSteps t u) :
    ApiSteps t (doSsrReceiptForFeedback env u buf).1 := by
  unfold doSsrReceiptForFeedback
  extract_lets v r w x y
  have hv : ApiSteps t v := h.checked
  have hy : ApiSteps t y := hv.setCipher.checked.checked
  split_ifs
  · exact hv.shutdown
  · cases r.2.feedback with
    | none => exact hy
    | some feedback => exact hy.write.setStage

theorem clientStreaming {side : Side} {buf : Bytes} (h : ApiSteps t u) :
    ApiSteps t (tunnelSsrClientStreaming env u side buf) := by
  unfold tunnelSsrClientStreaming
  extract_lets s v r
  have hv : ApiSteps t v := h.checked
  have hr : ApiSteps t r.1 := by
    cases side with
    | incoming => exact hv.setStates.setCipher
    | outgoing => exact hv.setStates.setCipher.checked
  split_ifs
  · exact hv.setStates
  · cases r.2 with
    | none => exact hr.shutdown
    | some out => exact hr.write
  · exact hv.checked

end ApiSteps
end Tunnel

namespace Client

open Tunnel

section Api

variable {κ : Type*} {env : Env κ}

theorem apiSteps_dispatcher (t : TunnelCtx (ClientCtx κ)) (side : Side) (buf : Bytes) :
    ApiSteps t (tunnelSsrDispatcher env t side buf) := by
  have h := ApiSteps.refl t
  cases hstage : t.data.stage <;> simp only [tunnelSsrDispatcher, hstage]
  case resolveSsrServerHostDone =>
    unfold doResolveSsrServerHostAftercare
    extract_lets v
    have hv : ApiSteps t v := h.checked
    split_ifs
    · exact hv.refuse
    · exact hv.connectSsrServer
  case connectSsrServerDone =>
    unfold doSsrSendAuthPackageToServer
    extract_lets v r w
    have hv : ApiSteps t v := h.checked
    split_ifs
    · cases r.2 with
      | none => exact hv.setCipher.shutdown
      | some out => exact hv.setCipher.write.setStage
    · exact hv.refuse
  case ssrAuthSent =>
    unfold doSsrWaitingServerFeedback
    extract_lets v
    have hv : ApiSteps t v := h.checked.setStates.checked
    split_ifs
    · exact hv.shutdown
    · exact hv.read.setStage
    · exact hv.actionAfterAuth
  case ssrServerFeedbackArrived =>
    split_ifs
    · exact h.checked.setStates.receiptForFeedback.actionAfterAuth
    · exact h.checked.setStates.receiptForFeedback
  case ssrReceiptToServerSent => exact h.checked.setStates.actionAfterAuth
  case authCompletionDone => exact h.checked.launchStreaming
  case streaming => exact h.clientStreaming
  case kill => exact h.shutdown

theorem handlers_usesApi : (handlers env).UsesApi where
  readDone t side data := apiSteps_dispatcher t side data
  writeDone t side := apiSteps_dispatcher t side []
  connectedDone t side := apiSteps_dispatcher t side []
  getaddrinfoDone t side := apiSteps_dispatcher t side []
  timeoutDone t _ := .refl t
  endOfFile t _ := (ApiSteps.refl t).shutdown

end Api

end Client
end SsrNative
