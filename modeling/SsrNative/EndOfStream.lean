import SsrNative.Client.Relay
import SsrNative.Client.TlsRelay
import SsrNative.Server.Dispatcher

/-!
# EndOfStream — what client and server do when a stream ends

Both shut a tunnel down as soon as one of its streams has ended, with what libuv has not written yet.
Over TLS the server answers the end of the target's stream with a close frame and shuts the tunnel down
when the next write to the client completes, which need not be that frame; and the client shuts its
tunnel down at that frame, whatever the application has not got yet.  `nothing_cut_iff` says which orders
of callbacks lose nothing.
-/

namespace SsrNative

open Bytes
open Tunnel
open Client (Flows tunnelSocketCtxWrite_data)
open Lib.Transition

/-! ## The server -/

namespace Server

section Streaming

variable {κ : Type*} (env : Env κ) {t : TunnelCtx (ServerCtx κ)} {side : Side}

/-- `tunnel_extract_data` has a result. -/
def extracts (ctx : ServerCtx κ) (side : Side) (data : Bytes) : Bool :=
  match side with
  | .outgoing => env.overTlsEnable || (env.cipher.encrypt ctx.cipher data).2.isSome
  | .incoming => env.overTlsEnable || (env.cipher.decrypt ctx.cipher data).2.ret.isSome

/-- The socket at which the end of the stream is answered. -/
def lingers : Option Side := if env.overTlsEnable then some .outgoing else none

/-- `tunnel_extract_data` touches nothing but the cipher. -/
theorem tunnelExtractData_spec (hf : Flows t) (side : Side) (src : Bytes) :
    Flows (tunnelExtractData env t side src).1 ∧
      load (tunnelExtractData env t side src).1 = load t ∧
      (tunnelExtractData env t side src).1.data.stage = t.data.stage ∧
      (tunnelExtractData env t side src).1.data.wsCloseFrameSent = t.data.wsCloseFrameSent ∧
      (tunnelExtractData env t side src).2.isSome = extracts env t.data side src := by
  have hcipher : ∀ c : κ, Flows (setCipher t c) ∧ load (setCipher t c) = load t := fun c =>
    ⟨hf.withData _, load_withData t _⟩
  cases side with
  | outgoing =>
      cases htls : env.overTlsEnable with
      | true =>
          simp only [tunnelExtractData, extracts, htls, if_true, Bool.true_or]
          exact ⟨(hcipher _).1, (hcipher _).2, rfl, rfl, rfl⟩
      | false =>
          simp only [tunnelExtractData, extracts, htls, Bool.false_eq_true, if_false, Bool.false_or]
          exact ⟨(hcipher _).1, (hcipher _).2, rfl, rfl, trivial⟩
  | incoming =>
      cases htls : env.overTlsEnable with
      | true =>
          simp only [tunnelExtractData, extracts, htls, if_true, Bool.true_or]
          exact ⟨(hcipher _).1, (hcipher _).2, rfl, rfl, rfl⟩
      | false =>
          simp only [tunnelExtractData, extracts, htls, Bool.false_eq_true, if_false, Bool.false_or,
            Client.check_data, load_check]
          exact ⟨((hcipher _).1.check _).check _, (hcipher _).2, rfl, rfl, trivial⟩

/-- A read that is done. -/
theorem streaming_read (hf : Flows t) (hrd : (t.socket side).rdstate = .done) (src : Bytes) :
    ∃ u, Flows u ∧ load u = load t ∧ u.data = t.data ∧
      tunnelServerStreaming env t side src =
        match (tunnelExtractData env u side src).2 with
        | none => tunnelShutdown (tunnelExtractData env u side src).1
        | some out => write (tunnelExtractData env u side src).1 side.other out := by
  set v := (t.check (decide ((t.socket side).wrstate = .done ∨ (t.socket side).rdstate = .done)))
  set x := v.check (decide ((v.socket side.other).wrstate ≠ .done ∧
    (v.socket side.other).rdstate ≠ .done))
  have hsocket : x.socket side = t.socket side := by
    rw [check_socket, check_socket]
  have hs := hf.streams side
  have hfx : Flows x := (hf.check _).check _
  refine ⟨setStates x side .stop (x.socket side).wrstate, ?_, ?_, ?_, ?_⟩
  · refine hfx.setSocket ?_
    rw [hsocket]
    exact ⟨⟨hs.isTerminated_eq, hs.handleClosing_eq, hs.timerClosing_eq⟩, hs.wrstate_ne,
      hs.connects_eq, hs.lookups_eq⟩
  · refine (load_setSocket ?_ ?_).trans ((load_check v _).trans (load_check t _))
    · rfl
    · rfl
  · rw [Client.setStates_data, Client.check_data, Client.check_data]
  · have hwr : ¬(x.socket side).wrstate = .done := by
      rw [hsocket]
      exact hs.wrstate_ne
    have hrd' : (x.socket side).rdstate = .done := by
      rw [hsocket]
      exact hrd
    unfold tunnelServerStreaming
    dsimp only
    refine (if_neg hwr).trans ((if_pos hrd').trans ?_)
    rfl

/-- A write that is done. -/
theorem streaming_write (hwr : (t.socket side).wrstate = .done) (src : Bytes) :
    ∃ u, (∀ s, u.socket s = t.socket s) ∧ u.isTerminated = t.isTerminated ∧ u.data = t.data ∧
      tunnelServerStreaming env t side src = setStates u side (u.socket side).rdstate .stop := by
  set v := (t.check (decide ((t.socket side).wrstate = .done ∨ (t.socket side).rdstate = .done)))
  set x := v.check (decide ((v.socket side.other).wrstate ≠ .done ∧
    (v.socket side.other).rdstate ≠ .done))
  have hsocket : ∀ s, x.socket s = t.socket s := fun s => by
    rw [check_socket, check_socket]
  refine ⟨x, hsocket, ?_, ?_, ?_⟩
  · rw [check_isTerminated, check_isTerminated]
  · rw [Client.check_data, Client.check_data]
  · have hwr' : (x.socket side).wrstate = .done := by
      rw [hsocket]
      exact hwr
    unfold tunnelServerStreaming
    dsimp only
    rw [if_pos hwr']

/-- While it waits for the close frame the tunnel is shut down by the next write to the client. -/
theorem writeDone_last (htls : env.overTlsEnable = true) (hsent : t.data.wsCloseFrameSent = true) :
    tunnelWriteDone env t .incoming =
      tunnelShutdown (setStates (t.check (t.incoming.wrstate = .done)) .incoming
        (t.check (t.incoming.wrstate = .done)).incoming.rdstate .stop) :=
  if_pos ⟨htls, rfl, hsent⟩

variable {env} in
theorem lingers_eq_some {side : Side} (h : lingers env = some side) :
    env.overTlsEnable = true ∧ side = .outgoing := by
  unfold lingers at h
  split_ifs at h with htls
  exact ⟨htls, (Option.some.inj h).symm⟩

theorem readDone_streaming (hs : t.data.stage = .streaming) (side : Side) (data : Bytes) :
    (handlers env).tunnelReadDone t side data = tunnelServerStreaming env t side data := by
  change tunnelDispatcher env t side data = _
  unfold tunnelDispatcher
  rw [hs]

/-- The close frame of the WebSocket is the one write that is not followed by a read. -/
theorem writeDone_streaming (hs : t.data.stage = .streaming) {side : Side}
    (hlast : ¬ (t.data.wsCloseFrameSent = true ∧ (lingers env).map Side.other = some side)) :
    (handlers env).tunnelWriteDone t side = tunnelServerStreaming env t side [] := by
  have hne : ¬(env.overTlsEnable = true ∧ side = .incoming ∧ t.data.wsCloseFrameSent = true) := by
    rintro ⟨htls, rfl, hsent⟩
    exact hlast ⟨hsent, by simp [lingers, htls, Side.other]⟩
  change tunnelWriteDone env t side = _
  rw [tunnelWriteDone, if_neg hne]
  unfold tunnelDispatcher
  rw [hs]

theorem relayHandlers : RelayHandlers (handlers env) (lingers env) (fun ctx => ctx.stage = .streaming)
    ServerCtx.wsCloseFrameSent (extracts env) where
  accepted := by
    intro t side data hf hs hrd hacc
    obtain ⟨u, hfu, hlu, hdu, heq⟩ := streaming_read env hf hrd data
    obtain ⟨hfx, hlx, hst, hc, hsome⟩ := tunnelExtractData_spec env hfu side data
    rw [hdu, hacc] at hsome
    obtain ⟨out, hout⟩ := Option.isSome_iff_exists.1 hsome
    rw [readDone_streaming env hs, heq, hout]
    have hwritten : load (write (tunnelExtractData env u side data).1 side.other out) =
        addWrite (load t) side.other := by
      rw [write, load_write hfx, hlx, hlu]
    have hdata : (write (tunnelExtractData env u side data).1 side.other out).data =
        (tunnelExtractData env u side data).1.data := tunnelSocketCtxWrite_data ..
    refine ⟨hfx.socketWrite _ out, ?_, ?_, hwritten⟩
    · rw [hdata, hst, hdu]
      exact hs
    · rw [hdata, hc, hdu]
  refused := by
    intro t side data hf hs hrd hacc
    obtain ⟨u, hfu, hlu, hdu, heq⟩ := streaming_read env hf hrd data
    obtain ⟨hfx, hlx, hst, hc, hsome⟩ := tunnelExtractData_spec env hfu side data
    rw [hdu, hacc, Option.isSome_eq_false_iff, Option.isNone_iff_eq_none] at hsome
    rw [readDone_streaming env hs, heq, hsome]
    exact (ends_shutdown _ _).of_eq (hc.trans (congrArg _ hdu)) (hlx.trans hlu)
  written := by
    intro t side hf hs hwr hlast
    obtain ⟨u, hsock, hterm, hdata, heq⟩ := streaming_write env hwr []
    -- the write is counted when it completes, and both sockets stay as they were
    have hload : load u = load t := by
      funext s
      rw [load, hsock]
      rfl
    rw [writeDone_streaming env hs hlast, heq]
    refine ⟨⟨?_, fun s => ?_⟩, ?_, ?_, ?_⟩
    · rw [setStates, setSocket_isTerminated, hterm]
      exact (setSocket_isTerminated t side _).symm.trans hf.isTerminated_eq
    · have hs' := hf.streams s
      by_cases hside : s = side
      · subst hside
        rw [setStates, socket_setSocket] at hs' ⊢
        rw [hsock]
        exact hs'
      · rw [setStates, socket_setSocket_ne _ hside] at hs' ⊢
        rw [hsock]
        exact hs'
    · rw [Client.setStates_data, hdata]
      exact hs
    · rw [Client.setStates_data, hdata]
    · refine (load_setSocket ?_ ?_).trans hload
      · rfl
      · rfl
  lastWritten := by
    intro t side hc hlast
    obtain ⟨side', hside, rfl⟩ := Option.map_eq_some_iff.1 hlast
    obtain ⟨htls, rfl⟩ := lingers_eq_some hside
    change Ends _ t (tunnelWriteDone env t .incoming)
    rw [writeDone_last env htls hc]
    refine (ends_shutdown _ _).of_eq ?_ ?_
    · rw [Client.setStates_data, Client.check_data]
    · refine (load_setSocket ?_ ?_).trans (load_check t _)
      · rfl
      · rfl
  ended := by
    intro t side hside
    change Ends _ t (tunnelArriveEndOfFile env t side)
    cases side with
    | incoming => exact ends_shutdown _ t
    | outgoing =>
        have htls : ¬env.overTlsEnable = true := fun htls => hside (if_pos htls)
        simp only [tunnelArriveEndOfFile]
        rw [if_neg htls]
        exact ends_shutdown _ t
  answered := by
    intro t side hf hs hside
    obtain ⟨htls, rfl⟩ := lingers_eq_some hside
    -- the end of the stream is answered with a close frame
    have hfc := hf.check (decide (t.outgoing.rdstate = .stop))
    set u := write (t.check (decide (t.outgoing.rdstate = .stop))) .incoming closeFrame
    have heq : (handlers env).tunnelArriveEndOfFile t .outgoing =
        { u with data := { u.data with wsCloseFrameSent := true } } := by
      change tunnelArriveEndOfFile env t .outgoing = _
      simp only [tunnelArriveEndOfFile]
      rw [if_pos htls]
    have hdata : u.data = t.data := (tunnelSocketCtxWrite_data _ _ _ _).trans (Client.check_data _ _)
    rw [heq]
    refine ⟨(hfc.socketWrite _ closeFrame).withData _, ?_, rfl, ?_⟩
    · change u.data.stage = .streaming
      rw [hdata]
      exact hs
    · rw [load_withData]
      exact (load_write hfc _ _).trans (congrArg (addWrite · Side.incoming) (load_check t _))

end Streaming

end Server

/-! ## The client -/

namespace Client

section Streaming

variable {κ : Type*} (env : Env κ)

/-- `tunnel_extract_data` has a result. -/
def extracts (ctx : ClientCtx κ) (side : Side) (data : Bytes) : Bool :=
  (Relay.extract env ctx.cipher data side).2.isSome

variable {env}

/-- A read that is done, up to what is made of it. -/
theorem streaming_read {t : TunnelCtx (ClientCtx κ)} {side : Side} (hf : Flows t)
    (hs : t.data.stage = .streaming) (hrd : (t.socket side).rdstate = .done) (data : Bytes) :
    ∃ u, Flows u ∧ load u = load t ∧ u.data.stage = .streaming ∧
      (handlers env).tunnelReadDone t side data =
        match (Relay.extract env t.data.cipher data side).2 with
        | none => tunnelShutdown u
        | some out => write u side.other out := by
  have hsock := hf.streams side
  set v := setStates t side .stop (t.socket side).wrstate
  have hfv : Flows v := hf.setSocket ⟨⟨hsock.isTerminated_eq, hsock.handleClosing_eq,
    hsock.timerClosing_eq⟩, hsock.wrstate_ne, hsock.connects_eq, hsock.lookups_eq⟩
  have hlv : load v = load t := by
    refine load_setSocket ?_ ?_
    · rfl
    · rfl
  have hdv : v.data = t.data := setStates_data t side _ _
  obtain ⟨hout, -, hfx, hst⟩ := @relay_extract κ env v side hfv data
  have hlx : load (tunnelExtractData env v side data).1 = load v := by
    cases side with
    | incoming => exact load_withData v _
    | outgoing => exact (load_check _ _).trans (load_withData v _)
  refine ⟨(tunnelExtractData env v side data).1, hfx, hlx.trans hlv, ?_, ?_⟩
  · rw [hst, hdv]
    exact hs
  · have hdispatch : (handlers env).tunnelReadDone t side data =
        tunnelSsrClientStreaming env t side data := by
      change tunnelSsrDispatcher env t side data = _
      unfold tunnelSsrDispatcher
      rw [hs]
    have hcipher : (relay v).cipher = t.data.cipher := congrArg ClientCtx.cipher hdv
    rw [hcipher] at hout
    rw [hdispatch, clientStreaming_read hrd hsock.wrstate_ne, ← hout]
    rcases tunnelExtractData env v side data with ⟨x, out⟩
    cases out with
    | none => rfl
    | some out => rfl

variable (env) in
theorem relayHandlers : RelayHandlers (handlers env) none (fun ctx => ctx.stage = .streaming)
    (fun _ => false) (extracts env) where
  accepted := by
    intro t side data hf hs hrd hacc
    obtain ⟨u, hfu, hlu, hsu, heq⟩ := streaming_read hf hs hrd data
    obtain ⟨out, hout⟩ := Option.isSome_iff_exists.1 hacc
    rw [heq, hout]
    refine ⟨hfu.write out, ?_, rfl, ?_⟩
    · rw [(relay_write hfu side.other out).2]
      exact hsu
    · rw [← hlu]
      exact load_write hfu _ out
  refused := by
    intro t side data hf hs hrd hacc
    obtain ⟨u, hfu, hlu, hsu, heq⟩ := streaming_read hf hs hrd data
    have hnone : (Relay.extract env t.data.cipher data side).2 = none := by
      rw [← Option.isNone_iff_eq_none, ← Option.isSome_eq_false_iff]
      exact hacc
    rw [heq, hnone]
    exact (ends_shutdown _ u).of_eq rfl hlu
  written := by
    intro t side hf hs hwr hlast
    have hdispatch : (handlers env).tunnelWriteDone t side =
        setStates t side (t.socket side).rdstate .stop := by
      change tunnelSsrDispatcher env t side [] = _
      unfold tunnelSsrDispatcher
      rw [hs]
      exact clientStreaming_write hwr
    rw [hdispatch]
    refine ⟨hf, ?_, rfl, ?_⟩
    · rw [setStates_data]
      exact hs
    · refine load_setSocket ?_ ?_
      · rfl
      · rfl
  lastWritten := by
    intro t side hc hlast
    cases hc
  ended := fun _ => ends_shutdown _ _
  answered := by
    intro t side hf hs hside
    cases hside

end Streaming

end Client

/-! ## Both -/

/-- In every state that the streaming stage reaches, in whatever order reads, completed writes and ends
of streams come, nothing that had been read before the end of a stream is cut off, exactly when every
callback was safe.  The first part is the server, over TLS or not, the second the client and the third
the client over TLS. -/
theorem nothing_cut_iff {κ σ ρ : Type} (es : List Event) (es' : List Client.TlsRelayEvent) :
    (∀ (env : Server.Env κ) (t : TunnelCtx (Server.ServerCtx κ)),
      Flows t → t.data.stage = .streaming → t.data.wsCloseFrameSent = false →
      Legal Relayed (Watched.step (Server.handlers env)) (Watched.begin t) es →
      ((∀ pre, pre <+: es →
          (pre.foldl (Watched.step (Server.handlers env)) (Watched.begin t)).NothingCut) ↔
        Legal (Safe (Server.lingers env) Server.ServerCtx.wsCloseFrameSent (Server.extracts env))
          (Watched.step (Server.handlers env)) (Watched.begin t) es)) ∧
    (∀ (env : Client.Env κ) (t : TunnelCtx (Client.ClientCtx κ)),
      Flows t → t.data.stage = .streaming →
      Legal Relayed (Watched.step (Client.handlers env)) (Watched.begin t) es →
      ((∀ pre, pre <+: es →
          (pre.foldl (Watched.step (Client.handlers env)) (Watched.begin t)).NothingCut) ↔
        Legal (Safe none (fun _ => false) (Client.extracts env))
          (Watched.step (Client.handlers env)) (Watched.begin t) es)) ∧
    (∀ (env : Client.TlsEnv σ ρ) (t : TunnelCtx (Client.TlsCtx σ ρ)),
      Client.TlsOpen t →
      Legal Client.TlsRelayed (Client.tlsWatchedStep env) (Client.tlsBegin t) es' →
      ((∀ pre, pre <+: es' →
          Client.TlsNothingCut (pre.foldl (Client.tlsWatchedStep env) (Client.tlsBegin t))) ↔
        Legal (Client.TlsSafe env) (Client.tlsWatchedStep env) (Client.tlsBegin t) es')) :=
  ⟨fun env _ hf hs hc hrun => (Server.relayHandlers env).nothingCut_iff hf hs hc hrun,
    fun env _ hf hs hrun => (Client.relayHandlers env).nothingCut_iff hf hs rfl hrun,
    fun env _ ht hrun => Client.tlsNothingCut_iff env ht hrun⟩

/-- A server that encrypts nothing. -/
def sampleEnv (overTls : Bool) : Server.Env Unit where
  cipher := ⟨(), fun _ buf => ((), ⟨some buf, none, none⟩), fun _ buf => ((), some buf)⟩
  addressCached _ := true
  connectAccepted := true
  overTlsEnable := overTls
  upgradeRequest buf := some ([120], buf)
  wsNormalResponse _ := []
  extractDataFromAssembledWebsocketFrame _ src := ((), src)
  buildWebsocketFrameFromRaw _ src := ((), src)

/-- Its tunnel when the target is connected. -/
def sampleTunnel : TunnelCtx (Server.ServerCtx Unit) :=
  [.read .incoming [1, 127, 0, 0, 1, 0, 80], .connected .outgoing true].foldl
    (step (Server.handlers (sampleEnv false))) (tunnelInitialize (Server.initData ()) true true)

/-- The same over TLS, when the client has got the response to its request. -/
def sampleTlsTunnel : TunnelCtx (Server.ServerCtx Unit) :=
  [.read .incoming [1, 127, 0, 0, 1, 0, 80], .connected .outgoing true, .written .incoming true].foldl
    (step (Server.handlers (sampleEnv true))) (tunnelInitialize (Server.initData ()) true true)

def sampleClient : TunnelCtx (Client.ClientCtx UInt8) :=
  Client.clientAfter ⟨Client.countingCipher, true, true, true⟩
    (tunnelInitialize ⟨.kill, 0, [], [1]⟩ false true) [3, 1, 97, 0, 80]
    [.connected .outgoing true, .written .outgoing true, .written .outgoing true]

/-- A client over TLS that has got the response to its request. -/
def sampleTlsClient : TunnelCtx (Client.TlsCtx Unit Unit) :=
  tunnelInitialize ⟨{ Client.sampleUpgrading with stage := .tlsStreaming }, ⟨[], 0, false, false⟩⟩ true true

theorem sampleTlsClient_open : Client.TlsOpen sampleTlsClient := by
  refine ⟨⟨rfl, fun side => ?_⟩, rfl, rfl, rfl, rfl, rfl, rfl⟩
  cases side <;> exact ⟨⟨rfl, rfl, rfl⟩, by decide, rfl, rfl⟩

/-- Two bytes for the application in a frame. -/
def sampleFrame : Bytes := [0x82, 2, 104, 105]

/-- The server's close frame. -/
def sampleClose : Bytes := [0x88, 0]

/-- Over TLS, at the client and at the client over TLS, with every write to the side that goes on done
before the end.  The last frame for the server is written after the tunnel was shut down. -/
theorem nothing_cut_iff_sample :
    (∀ pre, pre <+: [.read .outgoing [1, 2], .written .incoming true, .readFailed .outgoing true,
        .written .incoming true] →
      (pre.foldl (Watched.step (Server.handlers (sampleEnv true)))
        (Watched.begin sampleTlsTunnel)).NothingCut) ∧
    (∀ pre, pre <+: [.read .outgoing [1, 2], .written .incoming true, .readFailed .outgoing true] →
      (pre.foldl (Watched.step (Client.handlers ⟨Client.countingCipher, true, true, true⟩))
        (Watched.begin sampleClient)).NothingCut) ∧
    (∀ pre, pre <+: [.socket (.read .incoming [1, 2]), .dataReceived 4 sampleFrame,
        .socket (.written .incoming true), .dataReceived 2 sampleClose, .written, .shutdownDone] →
      Client.TlsNothingCut (pre.foldl (Client.tlsWatchedStep (Client.plainTlsEnv [] none))
        (Client.tlsBegin sampleTlsClient))) := by
  refine ⟨?_, ?_, ?_⟩
  · refine ((nothing_cut_iff (σ := Unit) (ρ := Unit) _ []).1 (sampleEnv true) sampleTlsTunnel
      ⟨rfl, fun side => ?_⟩ rfl rfl (by decide)).2 (by decide)
    cases side <;> exact ⟨⟨rfl, rfl, rfl⟩, by decide, rfl, rfl⟩
  · refine ((nothing_cut_iff (σ := Unit) (ρ := Unit) _ []).2.1 _ sampleClient ⟨rfl, fun side => ?_⟩ rfl
      (by decide)).2 (by decide)
    cases side <;> exact ⟨⟨rfl, rfl, rfl⟩, by decide, rfl, rfl⟩
  · exact ((nothing_cut_iff (κ := Unit) [] _).2.2 (Client.plainTlsEnv [] none) sampleTlsClient
      sampleTlsClient_open (by decide)).2 (by decide)

/-- The target sends three bytes and ends its stream: the server shuts the tunnel down while they are
on their way to the client.  The client over TLS does so with two bytes for the application when it reads
the close frame behind them. -/
theorem tail_cut :
    (Legal Relayed (Watched.step (Server.handlers (sampleEnv false))) (Watched.begin sampleTunnel)
        [.read .outgoing [1, 2, 3], .readFailed .outgoing true] ∧
      ¬ ([.read .outgoing [1, 2, 3], .readFailed .outgoing true].foldl
        (Watched.step (Server.handlers (sampleEnv false))) (Watched.begin sampleTunnel)).NothingCut) ∧
    (Legal Client.TlsRelayed (Client.tlsWatchedStep (Client.plainTlsEnv [] none))
        (Client.tlsBegin sampleTlsClient) [.dataReceived 4 sampleFrame, .dataReceived 2 sampleClose] ∧
      ¬ Client.TlsNothingCut ([.dataReceived 4 sampleFrame, .dataReceived 2 sampleClose].foldl
        (Client.tlsWatchedStep (Client.plainTlsEnv [] none)) (Client.tlsBegin sampleTlsClient))) :=
  ⟨⟨by decide, fun h => absurd (h rfl .outgoing rfl) (by decide)⟩,
    by decide, fun h => absurd (h.socket rfl rfl) (by decide)⟩

end SsrNative
