import SsrNative.Obfs.Checksums
import SsrNative.Socks5Address
import SsrNative.Tunnel
import SsrNative.Websocket
import SsrNative.Client.TlsTunnel
import SsrNative.Server.Pipeline

/-!
# Server dispatcher — the server's state machine between client and target

`tunnel_dispatcher` of `server/server.c` takes a tunnel from its first read to the streaming stage.  The
first read is decrypted; an obfuscation may want to answer it and the protocol may want to confirm it;
then the address of the target is parsed, looked up and connected to, and both directions are relayed.
Over TLS the first read is a request to upgrade to websocket, and frames are relayed.

Tunnels over TLS that carry UDP are left out, and so are the sizes of reads (`_overhead`,
`_recv_buffer_size`, `_recv_d_max_size`).
-/

namespace SsrNative
namespace Server

open Bytes
open Tunnel
open Websocket

/-! ## The header -/

/-- `pre_parse_header`: the buffer as it is left, and what is returned. -/
def preParseHeader (data : Bytes) : Bytes × Bool :=
  let len := data.length
  if len = 0 then (data, false)
  else
    let datatype := byteAt data 0
    if datatype = 0x80 then
      let hdrLen := (byteAt data 1).toNat + 2
      if len ≤ 2 ∨ len ≤ hdrLen then (data, false)
      else (shortenedTo data hdrLen (len - hdrLen), true)
    else if datatype = 0x81 then (shortenedTo data 1 (len - 1), true)
    else if datatype = 0x82 then
      let hdrLen := rdBe16 data 1 + 3
      if len ≤ 3 ∨ len ≤ hdrLen then (data, false)
      else (shortenedTo data hdrLen (len - hdrLen), true)
    else if datatype = 0x88 ∨ ~~~datatype = 0x88 then
      let dataSize := rdBe16 data 1
      if len ≤ 14 ∨ Obfs.Checksums.crc32Imp (window data 0 dataSize) ≠ 0xffffffff then (data, false)
      else
        let startPos := 3 + (byteAt data 3).toNat
        let short := shortenedTo data startPos (subSize dataSize (4 + startPos))
        -- the bytes behind the packet are looked for in the buffer that was just shortened
        if dataSize < len then (short ++ window short dataSize (len - dataSize), true)
        else (short, true)
    else (data, true)

/-- `is_legal_header`. -/
def isLegalHeader (buf : Bytes) : Bool :=
  byteAt buf 0 = 0x01 ∨ byteAt buf 0 = 0x03 ∨ byteAt buf 0 = 0x04

/-- `is_header_complete`. -/
def isHeaderComplete (buf : Bytes) : Bool := (socks5AddressParse buf).isSome

/-! ## Data -/

inductive Stage where
  | initial
  | obfsReceiptDone
  | clientFeedbackComing
  | protocolConfirmDone
  | resolveHost
  | connectHost
  | launchStreaming
  | tlsClientFeedback
  | normalResponse
  | streaming
deriving DecidableEq

/-- `tunnel_cipher_create` and the functions of a `tunnel_cipher_ctx`; `none` is a null pointer. -/
structure Cipher (κ : Type*) where
  create : κ
  decrypt : κ → Bytes → κ × ServerDecrypted
  encrypt : κ → Bytes → κ × Option Bytes

/-- What the server asks its surroundings, each once for a tunnel, and what it does with frames over TLS.
`upgradeRequest` finds the key and the decoded target address in a request that asks for the configured
path, and nothing in any other request. -/
structure Env (κ : Type*) where
  cipher : Cipher κ
  addressCached : Socks5Address → Bool
  connectAccepted : Bool
  overTlsEnable : Bool
  upgradeRequest : Bytes → Option (Bytes × Bytes)
  wsNormalResponse : Bytes → Bytes
  extractDataFromAssembledWebsocketFrame : κ → Bytes → κ × Bytes
  buildWebsocketFrameFromRaw : κ → Bytes → κ × Bytes

/-- `struct server_ctx`; the cipher comes with the frames it has begun, and `desired_addr`, which belongs
to the tunnel, is `none` until an address was parsed. -/
structure ServerCtx (κ : Type*) where
  stage : Stage
  cipher : κ
  targetAddressWithDataPkg : Bytes
  desiredAddr : Option Socks5Address
  secWebsocketKey : Bytes
  wsCloseFrameSent : Bool

section Model

variable {κ : Type*} (env : Env κ)

/-- `tunnel_is_in_streaming`. -/
def tunnelIsInStreaming (ctx : ServerCtx κ) : Bool := decide (ctx.stage = .streaming)

def setStage (t : TunnelCtx (ServerCtx κ)) (stage : Stage) : TunnelCtx (ServerCtx κ) :=
  { t with data := { t.data with stage := stage } }

def setCipher (t : TunnelCtx (ServerCtx κ)) (cipher : κ) : TunnelCtx (ServerCtx κ) :=
  { t with data := { t.data with cipher := cipher } }

def setPkg (t : TunnelCtx (ServerCtx κ)) (pkg : Bytes) : TunnelCtx (ServerCtx κ) :=
  { t with data := { t.data with targetAddressWithDataPkg := pkg } }

def write (t : TunnelCtx (ServerCtx κ)) (side : Side) (data : Bytes) : TunnelCtx (ServerCtx κ) :=
  tunnelSocketCtxWrite tunnelIsInStreaming t side data

/-- The four `ASSERT`s with which the functions behind the handshake begin. -/
def checkStopped (t : TunnelCtx (ServerCtx κ)) : TunnelCtx (ServerCtx κ) :=
  t.check (t.incoming.rdstate = .stop ∧ t.incoming.wrstate = .stop ∧
    t.outgoing.rdstate = .stop ∧ t.outgoing.wrstate = .stop)

/-! ## Connecting to the target -/

def doConnectHostStart (t : TunnelCtx (ServerCtx κ)) : TunnelCtx (ServerCtx κ) :=
  let t := setStage (checkStopped t) .connectHost
  if env.connectAccepted then socketCtxConnect t .outgoing else tunnelShutdown t

/-- `do_parse`. -/
def doParse (t : TunnelCtx (ServerCtx κ)) : TunnelCtx (ServerCtx κ) :=
  let pkg := t.data.targetAddressWithDataPkg
  match socks5AddressParse pkg with
  | none => tunnelShutdown { t with data := { t.data with desiredAddr := none } }
  | some addr =>
      let offset := socks5AddressOffset pkg
      let t := (({ t with data := { t.data with desiredAddr := some addr } }).check
        (offset = addr.size))
      let t := setPkg t (shortenedTo pkg offset (subSize pkg.length offset))
      if env.addressCached addr then doConnectHostStart env t
      else socketCtxGetaddrinfo (setStage t .resolveHost) .outgoing

/-- `do_prepare_parse`. -/
def doPrepareParse (t : TunnelCtx (ServerCtx κ)) : TunnelCtx (ServerCtx κ) :=
  let t := setPkg t (preParseHeader t.data.targetAddressWithDataPkg).1
  if isLegalHeader t.data.targetAddressWithDataPkg = false then tunnelShutdown t
  else if isHeaderComplete t.data.targetAddressWithDataPkg = false then tunnelShutdown t
  else doParse env t

def doResolveHostDone (t : TunnelCtx (ServerCtx κ)) : TunnelCtx (ServerCtx κ) :=
  let t := t.check ((t.incoming.rdstate = .stop ∨ t.incoming.rdstate = .done) ∧
    (t.incoming.wrstate = .stop ∨ t.incoming.wrstate = .done) ∧
    (t.outgoing.rdstate = .stop ∨ t.outgoing.rdstate = .done) ∧
    (t.outgoing.wrstate = .stop ∨ t.outgoing.wrstate = .done))
  if t.outgoing.result < 0 then tunnelShutdown t else doConnectHostStart env t

/-! ## The first reads -/

def doInitPackage (t : TunnelCtx (ServerCtx κ)) (buf : Bytes) : TunnelCtx (ServerCtx κ) :=
  if t.incoming.result < 0 then tunnelShutdown t
  else
    let r := env.cipher.decrypt env.cipher.create buf
    let t := setCipher t r.1
    match r.2.obfsReceipt with
    | some receipt =>
        setStage (write (t.check r.2.protoConfirm.isNone) .incoming receipt) .obfsReceiptDone
    | none =>
        match r.2.ret with
        | none => tunnelShutdown t
        | some result =>
            let t := setPkg t result
            match r.2.protoConfirm with
            | some confirm => setStage (write t .incoming confirm) .protocolConfirmDone
            | none => doPrepareParse env t

def doHandleClientFeedback (t : TunnelCtx (ServerCtx κ)) (buf : Bytes) : TunnelCtx (ServerCtx κ) :=
  if t.incoming.result < 0 then tunnelShutdown t
  else
    let r := env.cipher.decrypt t.data.cipher buf
    let t := (setCipher t r.1).check r.2.obfsReceipt.isNone
    if r.2.ret.getD [] = [] then tunnelShutdown t
    else
      let t := setPkg t (t.data.targetAddressWithDataPkg ++ r.2.ret.getD [])
      match r.2.protoConfirm with
      | some confirm => setStage (write t .incoming confirm) .protocolConfirmDone
      | none => doPrepareParse env t

def doNormalResponse (t : TunnelCtx (ServerCtx κ)) (buf : Bytes) : TunnelCtx (ServerCtx κ) :=
  setStage (write t .incoming (env.wsNormalResponse buf)) .normalResponse

/-- `do_tls_init_package` for a request that does not ask for UDP. -/
def doTlsInitPackage (t : TunnelCtx (ServerCtx κ)) (buf : Bytes) : TunnelCtx (ServerCtx κ) :=
  if t.incoming.result < 0 then tunnelShutdown t
  else
    let t := setCipher t env.cipher.create
    match env.upgradeRequest buf with
    | none => doNormalResponse env t buf
    | some (key, address) =>
        let t := { t with data := { t.data with secWebsocketKey := key } }
        if isLegalHeader address = false then doNormalResponse env t buf
        else doPrepareParse env (setPkg t address)

/-! ## Launching -/

def doTlsClientFeedback (t : TunnelCtx (ServerCtx κ)) : TunnelCtx (ServerCtx κ) :=
  setStage (write t .incoming (Client.websocketConnectResponse t.data.secWebsocketKey))
    .tlsClientFeedback

def doTlsLaunchStreaming (t : TunnelCtx (ServerCtx κ)) : TunnelCtx (ServerCtx κ) :=
  let t := checkStopped t
  if t.incoming.result < 0 then tunnelShutdown t
  else setStage (socketCtxRead (socketCtxRead t .incoming false) .outgoing true) .streaming

def doLaunchStreaming (t : TunnelCtx (ServerCtx κ)) : TunnelCtx (ServerCtx κ) :=
  let t := t.check (t.incoming.rdstate = .stop ∧ t.incoming.wrstate = .stop ∧
    t.outgoing.rdstate = .stop ∧ t.outgoing.wrstate = .done)
  let t := setStates t .outgoing t.outgoing.rdstate .stop
  if t.outgoing.result < 0 then tunnelShutdown t
  else setStage (socketCtxRead (socketCtxRead t .incoming false) .outgoing true) .streaming

def doConnectHostDone (t : TunnelCtx (ServerCtx κ)) : TunnelCtx (ServerCtx κ) :=
  let t := checkStopped t
  let pkg := t.data.targetAddressWithDataPkg
  if env.overTlsEnable then doTlsClientFeedback (t.check (pkg = []))
  else if t.outgoing.result = 0 then
    if 0 < pkg.length then setStage (write t .outgoing pkg) .launchStreaming
    else doLaunchStreaming (setStates t .outgoing t.outgoing.rdstate .done)
  else tunnelShutdown t

/-! ## Relaying -/

/-- `tunnel_extract_data`. -/
def tunnelExtractData (t : TunnelCtx (ServerCtx κ)) (side : Side) (src : Bytes) :
    TunnelCtx (ServerCtx κ) × Option Bytes :=
  match side with
  | .outgoing =>
      if env.overTlsEnable then
        let r := env.buildWebsocketFrameFromRaw t.data.cipher src
        (setCipher t r.1, some r.2)
      else
        let r := env.cipher.encrypt t.data.cipher src
        (setCipher t r.1, r.2)
  | .incoming =>
      if env.overTlsEnable then
        let r := env.extractDataFromAssembledWebsocketFrame t.data.cipher src
        (setCipher t r.1, some r.2)
      else
        let r := env.cipher.decrypt t.data.cipher src
        (((setCipher t r.1).check r.2.obfsReceipt.isNone).check r.2.protoConfirm.isNone, r.2.ret)

def tunnelServerStreaming (t : TunnelCtx (ServerCtx κ)) (side : Side) (src : Bytes) :
    TunnelCtx (ServerCtx κ) :=
  let t := t.check ((t.socket side).wrstate = .done ∨ (t.socket side).rdstate = .done)
  let t := t.check ((t.socket side.other).wrstate ≠ .done ∧ (t.socket side.other).rdstate ≠ .done)
  let s := t.socket side
  if s.wrstate = .done then setStates t side s.rdstate .stop
  else if s.rdstate = .done then
    let r := tunnelExtractData env (setStates t side .stop s.wrstate) side src
    match r.2 with
    | none => tunnelShutdown r.1
    | some out => write r.1 side.other out
  else t.check false

/-! ## The dispatcher -/

/-- `tunnel_dispatcher`; `buf` is the buffer of the socket, which holds something only while a read is
dispatched. -/
def tunnelDispatcher (t : TunnelCtx (ServerCtx κ)) (side : Side) (buf : Bytes) :
    TunnelCtx (ServerCtx κ) :=
  match t.data.stage with
  | .initial =>
      let t := t.check (side = .incoming ∧ t.incoming.rdstate = .done ∧ t.incoming.wrstate = .stop)
      let t := setStates t .incoming .stop t.incoming.wrstate
      if env.overTlsEnable then doTlsInitPackage env t buf else doInitPackage env t buf
  | .obfsReceiptDone =>
      let t := t.check (side = .incoming ∧ t.incoming.rdstate = .stop ∧ t.incoming.wrstate = .done)
      let t := setStates t .incoming t.incoming.rdstate .stop
      setStage (socketCtxRead t .incoming true) .clientFeedbackComing
  | .clientFeedbackComing =>
      let t := t.check (side = .incoming ∧ t.incoming.rdstate = .done ∧ t.incoming.wrstate = .stop)
      doHandleClientFeedback env (setStates t .incoming .stop t.incoming.wrstate) buf
  | .protocolConfirmDone =>
      let t := t.check (side = .incoming ∧ t.incoming.rdstate = .stop ∧ t.incoming.wrstate = .done)
      doPrepareParse env (setStates t .incoming t.incoming.rdstate .stop)
  | .resolveHost => doResolveHostDone env (t.check (side = .outgoing))
  | .connectHost => doConnectHostDone env (t.check (side = .outgoing))
  | .launchStreaming => doLaunchStreaming (t.check (side = .outgoing))
  | .tlsClientFeedback =>
      let t := t.check (side = .incoming ∧ t.incoming.wrstate = .done)
      doTlsLaunchStreaming (setStates t .incoming t.incoming.rdstate .stop)
  | .normalResponse => tunnelShutdown t
  | .streaming => tunnelServerStreaming env t side buf

/-- `websocket_build_close_frame` with `WS_CLOSE_REASON_NORMAL` and without a text; a frame of the server
has no mask. -/
def closeFrame : Bytes :=
  (websocketBuildFrame ⟨WS_OPCODE_CLOSE, true, false, WS_CLOSE_REASON_NORMAL, 0, 0⟩ (fun _ => 0)
    (be16 WS_CLOSE_REASON_NORMAL)).1

/-- `tunnel_arrive_end_of_file`. -/
def tunnelArriveEndOfFile (t : TunnelCtx (ServerCtx κ)) (side : Side) : TunnelCtx (ServerCtx κ) :=
  match side with
  | .incoming => tunnelShutdown t
  | .outgoing =>
      if env.overTlsEnable then
        let t := write (t.check (t.outgoing.rdstate = .stop)) .incoming closeFrame
        { t with data := { t.data with wsCloseFrameSent := true } }
      else tunnelShutdown t

/-- `tunnel_write_done`. -/
def tunnelWriteDone (t : TunnelCtx (ServerCtx κ)) (side : Side) : TunnelCtx (ServerCtx κ) :=
  if env.overTlsEnable = true ∧ side = .incoming ∧ t.data.wsCloseFrameSent = true then
    let t := t.check (t.incoming.wrstate = .done)
    tunnelShutdown (setStates t .incoming t.incoming.rdstate .stop)
  else tunnelDispatcher env t side []

/-- What the server puts into its tunnels. -/
def handlers : Handlers (ServerCtx κ) where
  tunnelIsInStreaming := tunnelIsInStreaming
  tunnelReadDone t side data := tunnelDispatcher env t side data
  tunnelWriteDone t side := tunnelWriteDone env t side
  tunnelOutgoingConnectedDone t side := tunnelDispatcher env t side []
  tunnelOnGetaddrinfoDone t side := tunnelDispatcher env t side []
  tunnelTimeoutExpireDone t _ := t
  tunnelArriveEndOfFile t side := tunnelArriveEndOfFile env t side

/-- `_init_done_cb`. -/
def initData (cipher : κ) : ServerCtx κ where
  stage := .initial
  cipher := cipher
  targetAddressWithDataPkg := []
  desiredAddr := none
  secWebsocketKey := []
  wsCloseFrameSent := false

end Model

/-! ## The server reaches its tunnel through the functions of the tunnel -/

section Api

variable {κ : Type*} {env : Env κ} {t u : TunnelCtx (ServerCtx κ)}

theorem apiSteps_write {side : Side} {data : Bytes} (h : ApiSteps t u) : ApiSteps t (write u side data) :=
  h.checked.tail (.write _ side data)

theorem apiSteps_connectHostStart (h : ApiSteps t u) : ApiSteps t (doConnectHostStart env u) := by
  unfold doConnectHostStart
  extract_lets v
  have hv : ApiSteps t v := h.checked.withData
  split_ifs
  · exact hv.connect
  · exact hv.shutdown

theorem apiSteps_parse (h : ApiSteps t u) : ApiSteps t (doParse env u) := by
  unfold doParse
  dsimp only
  cases socks5AddressParse u.data.targetAddressWithDataPkg with
  | none => exact h.withData.shutdown
  | some addr =>
      dsimp only
      split_ifs
      · exact apiSteps_connectHostStart h.withData.checked.withData
      · exact h.withData.checked.withData.withData.getaddrinfo

theorem apiSteps_prepareParse (h : ApiSteps t u) : ApiSteps t (doPrepareParse env u) := by
  unfold doPrepareParse
  extract_lets v
  have hv : ApiSteps t v := h.withData
  split_ifs
  · exact hv.shutdown
  · exact hv.shutdown
  · exact apiSteps_parse hv

theorem apiSteps_resolveHostDone (h : ApiSteps t u) : ApiSteps t (doResolveHostDone env u) := by
  unfold doResolveHostDone
  extract_lets v
  have hv : ApiSteps t v := h.checked
  split_ifs
  · exact hv.shutdown
  · exact apiSteps_connectHostStart hv

theorem apiSteps_initPackage {buf : Bytes} (h : ApiSteps t u) : ApiSteps t (doInitPackage env u buf) := by
  unfold doInitPackage
  extract_lets r v
  have hv : ApiSteps t v := h.withData
  split_ifs
  · exact h.shutdown
  · cases r.2.obfsReceipt with
    | some receipt => exact (apiSteps_write hv.checked).withData
    | none =>
        cases r.2.ret with
        | none => exact hv.shutdown
        | some result =>
            cases r.2.protoConfirm with
            | some confirm => exact (apiSteps_write hv.withData).withData
            | none => exact apiSteps_prepareParse hv.withData

theorem apiSteps_clientFeedback {buf : Bytes} (h : ApiSteps t u) :
    ApiSteps t (doHandleClientFeedback env u buf) := by
  unfold doHandleClientFeedback
  extract_lets r v w
  have hv : ApiSteps t v := h.withData.checked
  split_ifs
  · exact h.shutdown
  · exact hv.shutdown
  · cases r.2.protoConfirm with
    | some confirm => exact (apiSteps_write hv.withData).withData
    | none => exact apiSteps_prepareParse hv.withData

theorem apiSteps_tlsInitPackage {buf : Bytes} (h : ApiSteps t u) : ApiSteps t (doTlsInitPackage env u buf) := by
  unfold doTlsInitPackage
  extract_lets v
  have hv : ApiSteps t v := h.withData
  split_ifs
  · exact h.shutdown
  · cases env.upgradeRequest buf with
    | none => exact (apiSteps_write hv).withData
    | some r =>
        obtain ⟨key, address⟩ := r
        dsimp only
        split_ifs
        · exact (apiSteps_write hv.withData).withData
        · exact apiSteps_prepareParse hv.withData.withData

theorem apiSteps_tlsLaunchStreaming (h : ApiSteps t u) : ApiSteps t (doTlsLaunchStreaming u) := by
  unfold doTlsLaunchStreaming
  extract_lets v
  have hv : ApiSteps t v := h.checked
  split_ifs
  · exact hv.shutdown
  · exact hv.read.read.withData

theorem apiSteps_launchStreaming (h : ApiSteps t u) : ApiSteps t (doLaunchStreaming u) := by
  unfold doLaunchStreaming
  extract_lets v w
  have hw : ApiSteps t w := h.checked.setStates
  split_ifs
  · exact hw.shutdown
  · exact hw.read.read.withData

theorem apiSteps_connectHostDone (h : ApiSteps t u) : ApiSteps t (doConnectHostDone env u) := by
  unfold doConnectHostDone
  extract_lets v pkg
  have hv : ApiSteps t v := h.checked
  split_ifs
  · exact (apiSteps_write hv.checked).withData
  · exact (apiSteps_write hv).withData
  · exact apiSteps_launchStreaming hv.setStates
  · exact hv.shutdown

theorem apiSteps_extractData {side : Side} {src : Bytes} (h : ApiSteps t u) :
    ApiSteps t (tunnelExtractData env u side src).1 := by
  cases side with
  | outgoing =>
      unfold tunnelExtractData
      dsimp only
      split_ifs
      · exact h.withData
      · exact h.withData
  | incoming =>
      unfold tunnelExtractData
      dsimp only
      split_ifs
      · exact h.withData
      · exact h.withData.checked.checked

theorem apiSteps_streaming {side : Side} {src : Bytes} (h : ApiSteps t u) :
    ApiSteps t (tunnelServerStreaming env u side src) := by
  unfold tunnelServerStreaming
  extract_lets v w s r
  have hw : ApiSteps t w := h.checked.checked
  have hr : ApiSteps t r.1 := apiSteps_extractData hw.setStates
  split_ifs
  · exact hw.setStates
  · cases r.2 with
    | none => exact hr.shutdown
    | some out => exact apiSteps_write hr
  · exact hw.checked

variable (env) in
theorem apiSteps_dispatcher (t : TunnelCtx (ServerCtx κ)) (side : Side) (buf : Bytes) :
    ApiSteps t (tunnelDispatcher env t side buf) := by
  have h := ApiSteps.refl t
  cases hstage : t.data.stage <;> simp only [tunnelDispatcher, hstage]
  case initial =>
    split_ifs
    · exact apiSteps_tlsInitPackage h.checked.setStates
    · exact apiSteps_initPackage h.checked.setStates
  case obfsReceiptDone => exact h.checked.setStates.read.withData
  case clientFeedbackComing => exact apiSteps_clientFeedback h.checked.setStates
  case protocolConfirmDone => exact apiSteps_prepareParse h.checked.setStates
  case resolveHost => exact apiSteps_resolveHostDone h.checked
  case connectHost => exact apiSteps_connectHostDone h.checked
  case launchStreaming => exact apiSteps_launchStreaming h.checked
  case tlsClientFeedback => exact apiSteps_tlsLaunchStreaming h.checked.setStates
  case normalResponse => exact h.shutdown
  case streaming => exact apiSteps_streaming h

theorem handlers_usesApi : (handlers env).UsesApi where
  readDone t side data := apiSteps_dispatcher env t side data
  writeDone t side := by
    have hdispatch := apiSteps_dispatcher env t side []
    show ApiSteps t (tunnelWriteDone env t side)
    unfold tunnelWriteDone
    split_ifs
    · exact (ApiSteps.refl t).checked.setStates.shutdown
    · exact hdispatch
  connectedDone t side := apiSteps_dispatcher env t side []
  getaddrinfoDone t side := apiSteps_dispatcher env t side []
  timeoutDone t _ := .refl t
  endOfFile t side := by
    have h := ApiSteps.refl t
    show ApiSteps t (tunnelArriveEndOfFile env t side)
    unfold tunnelArriveEndOfFile
    cases side with
    | incoming => exact h.shutdown
    | outgoing =>
        dsimp only
        split_ifs
        · exact (apiSteps_write h.checked).withData
        · exact h.shutdown

end Api

end Server
end SsrNative
