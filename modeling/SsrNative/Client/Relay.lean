import SsrNative.Client.Phases

/-!
# Relay — the streaming stage as a relay between two peers

What `tunnel_ssr_client_streaming` is for: what was read from the application is encrypted once and
written to the server, what was read from the server is decrypted once and written to the
application, in the order of the reads (`Relay`).  The tunnel refines this, however reads and
completed writes are interleaved (`relay_run`), because no write is `done` when a read is dispatched.
-/

namespace SsrNative
namespace Client

open Tunnel
open Lib.Transition

/-! ## The relay -/

/-- The cipher, what was delivered to each side, and whether the connection is over. -/
structure Relay (κ : Type*) where
  cipher : κ
  toServer : List Bytes
  toClient : List Bytes
  closed : Bool

section Relaying

variable {κ : Type*} (env : Env κ)

/-- What the cipher makes of data from a side. -/
def Relay.extract (cipher : κ) (data : Bytes) : Side → κ × Option Bytes
  | .incoming => env.cipher.encrypt cipher data
  | .outgoing => ((env.cipher.decrypt cipher data).1, (env.cipher.decrypt cipher data).2.buf)

def Relay.deliver (r : Relay κ) (data : Bytes) : Side → Relay κ
  | .incoming => { r with toClient := r.toClient ++ [data] }
  | .outgoing => { r with toServer := r.toServer ++ [data] }

/-- Data from a side go to the other side, or end the connection. -/
def Relay.carry (r : Relay κ) (side : Side) (data : Bytes) : Relay κ :=
  match Relay.extract env r.cipher data side with
  | (cipher, none) => { r with cipher := cipher, closed := true }
  | (cipher, some out) => Relay.deliver { r with cipher := cipher } out side.other

def Relay.step (r : Relay κ) (e : Event) : Relay κ :=
  if r.closed then r
  else
    match e with
    | .read side data => if data = [] then r else r.carry env side data
    | .written _ true => r
    | .written _ false => { r with closed := true }
    | .readFailed _ _ => { r with closed := true }
    | .timeout _ => { r with closed := true }
    | .shutdown => { r with closed := true }
    | .connected _ _ => r
    | .resolved _ _ => r
    | .handleClosed _ => r
    | .timerClosed _ => r
    | .close _ => r

/-- The relay that a tunnel is. -/
def relay (t : TunnelCtx (ClientCtx κ)) : Relay κ where
  cipher := t.data.cipher
  toServer := t.outgoing.written
  toClient := t.incoming.written
  closed := t.isTerminated

variable {env} {t t' : TunnelCtx (ClientCtx κ)} {side : Side}

theorem Same.relay_eq (h : Same t t') : relay t' = relay t := by
  have hin : t'.incoming.written = t.incoming.written := h.written_eq .incoming
  have hout : t'.outgoing.written = t.outgoing.written := h.written_eq .outgoing
  simp only [relay, h.data_eq, h.isTerminated_eq, hin, hout]

/-! ## The tunnel as a relay -/

/-- A write that is done. -/
theorem clientStreaming_write {buf : Bytes} (hwr : (t.socket side).wrstate = .done) :
    tunnelSsrClientStreaming env t side buf = setStates t side (t.socket side).rdstate .stop := by
  unfold tunnelSsrClientStreaming
  extract_lets s u r
  have hu : u = t := if_pos (decide_eq_true (.inr hwr))
  rw [if_pos hwr, hu]

/-- A read that is done: what comes out of the data is written to the other socket. -/
theorem clientStreaming_read {buf : Bytes} (hrd : (t.socket side).rdstate = .done)
    (hwr : (t.socket side).wrstate ≠ .done) :
    tunnelSsrClientStreaming env t side buf =
      match tunnelExtractData env (setStates t side .stop (t.socket side).wrstate) side buf with
      | (u, none) => tunnelShutdown u
      | (u, some out) => write u side.other out := by
  unfold tunnelSsrClientStreaming
  extract_lets s u r
  have hu : u = t := if_pos (decide_eq_true (.inl hrd))
  rw [if_neg hwr, if_pos hrd]
  simp only [r, hu, s]
  rcases tunnelExtractData env (setStates t side .stop (t.socket side).wrstate) side buf with ⟨v, out⟩
  cases out with
  | none => rfl
  | some out => rfl

theorem relay_shutdown (t : TunnelCtx (ClientCtx κ)) :
    relay (tunnelShutdown t) = { relay t with closed := true } := by
  cases hterm : t.isTerminated with
  | true =>
      rw [tunnelShutdown, if_pos hterm]
      simp only [relay, hterm]
  | false => exact (same_shutdown hterm).relay_eq

theorem relay_write (hf : Flows t) (side : Side) (data : Bytes) :
    relay (write t side data) = (relay t).deliver data side ∧ (write t side data).data = t.data := by
  unfold Client.write tunnelSocketCtxWrite socketCtxWrite
  rw [(hf.check _).onOpenSocket_eq]
  refine ⟨?_, (setSocket_data _ side _).trans (check_data t _)⟩
  rw [← (same_check t (decide (tunnelSsrIsInStreaming t.data = true ∨
    (t.socket side).wrstate = .stop))).relay_eq]
  cases side <;> rfl

variable (env) in
/-- `tunnel_extract_data` passes the data to the cipher once and changes nothing else. -/
theorem relay_extract (hf : Flows t) (buf : Bytes) :
    (tunnelExtractData env t side buf).2 = (Relay.extract env (relay t).cipher buf side).2 ∧
      relay (tunnelExtractData env t side buf).1 =
        { relay t with cipher := (Relay.extract env (relay t).cipher buf side).1 } ∧
      Flows (tunnelExtractData env t side buf).1 ∧
      (tunnelExtractData env t side buf).1.data.stage = t.data.stage := by
  cases side with
  | incoming => exact ⟨rfl, rfl, hf.withData _, rfl⟩
  | outgoing =>
      refine ⟨rfl, ?_, (hf.withData _).check _, ?_⟩
      · exact (same_check _ _).relay_eq
      · change ((setCipher t _).check _).data.stage = t.data.stage
        rw [check_data]
        rfl

/-- A tunnel that streams, or did when it was shut down. -/
structure Relays (t : TunnelCtx (ClientCtx κ)) : Prop where
  stage_eq : t.data.stage = .streaming
  flows : t.isTerminated = false → Flows t

theorem Relays.of_terminated (hstage : t.data.stage = .streaming) (hterm : t.isTerminated = true) :
    Relays t :=
  ⟨hstage, fun hopen => by rw [hterm] at hopen; cases hopen⟩

theorem Relays.streaming (hr : Relays t) : tunnelSsrIsInStreaming t.data = true :=
  decide_eq_true hr.stage_eq

/-- A read that is dispatched as such. -/
theorem relays_clientStreaming (hstage : t.data.stage = .streaming) (hf : Flows t)
    (hrd : (t.socket side).rdstate = .done) (buf : Bytes) :
    Relays (tunnelSsrClientStreaming env t side buf) ∧
      relay (tunnelSsrClientStreaming env t side buf) = (relay t).carry env side buf := by
  have hs := hf.streams side
  set u := setStates t side .stop (t.socket side).wrstate with hu
  have hsame : Same t u := same_setSocket rfl
  have hfu : Flows u := hf.setSocket ⟨⟨hs.isTerminated_eq, hs.handleClosing_eq, hs.timerClosing_eq⟩,
    hs.wrstate_ne, hs.connects_eq, hs.lookups_eq⟩
  obtain ⟨hout, hrelay, hfv, hstv⟩ := relay_extract env hfu buf
  rw [clientStreaming_read hrd hs.wrstate_ne, ← hu]
  rcases hex : tunnelExtractData env u side buf with ⟨v, out⟩
  rw [hex] at hout hrelay hfv hstv
  rw [hsame.relay_eq] at hout hrelay
  have hstage' : v.data.stage = .streaming := by
    rw [hstv, hsame.data_eq]
    exact hstage
  rcases hcipher : Relay.extract env (relay t).cipher buf side with ⟨cipher, out'⟩
  rw [hcipher] at hout hrelay
  obtain rfl : out = out' := hout
  have hrelay' : relay v = { relay t with cipher := cipher } := hrelay
  simp only [Relay.carry, hcipher]
  cases out with
  | none =>
      refine ⟨.of_terminated ?_ (tunnelShutdown_isTerminated v), ?_⟩
      · rw [tunnelShutdown_data]
        exact hstage'
      · simp only [relay_shutdown, hrelay']
  | some out =>
      obtain ⟨h1, h2⟩ := relay_write hfv side.other out
      refine ⟨⟨?_, fun _ => hfv.write out⟩, ?_⟩
      · change (Client.write v side.other out).data.stage = .streaming
        rw [h2]
        exact hstage'
      · simp only [h1, hrelay']

/-! ## Events -/

theorem Relays.same (hr : Relays t) (hs : Same t t') (hf : Flows t → Flows t') : Relays t' := by
  refine ⟨?_, fun hopen => hf (hr.flows ?_)⟩
  · rw [hs.data_eq]
    exact hr.stage_eq
  · rw [← hs.isTerminated_eq]
    exact hopen

theorem Relays.shutDown (hr : Relays t) (hs : ShutDown t t') :
    Relays t' ∧ relay t' = { relay t with closed := true } := by
  obtain ⟨u, hu, hu'⟩ := hs
  refine ⟨.of_terminated ?_ (hu'.isTerminated_eq.trans (tunnelShutdown_isTerminated u)), ?_⟩
  · rw [hu'.data_eq, tunnelShutdown_data, hu.data_eq]
    exact hr.stage_eq
  · rw [hu'.relay_eq, relay_shutdown, hu.relay_eq]

theorem relays_readDone (hr : Relays t) (hf : Flows t) {data : Bytes} (hdata : data ≠ []) :
    Relays (uvSocketReadDoneCb (handlers env) t side data) ∧
      relay (uvSocketReadDoneCb (handlers env) t side data) = (relay t).carry env side data := by
  unfold uvSocketReadDoneCb
  extract_lets u v
  obtain ⟨hready, hsame, hrd⟩ := flows_readReady (handlers env) hf side data.length
  have hstage : (readReady (handlers env) u side).data.stage = .streaming := by
    rw [hsame.data_eq]
    exact hr.stage_eq
  have hv_eq : v = tunnelSsrClientStreaming env (readReady (handlers env) u side) side data := by
    change tunnelSsrDispatcher env (readReady (handlers env) u side) side data = _
    unfold tunnelSsrDispatcher
    rw [hstage]
  obtain ⟨hv, hrelay⟩ : Relays v ∧ relay v = (relay t).carry env side data := by
    rw [← hsame.relay_eq, hv_eq]
    exact relays_clientStreaming hstage hready hrd data
  have hterm : ¬u.isTerminated = true := by
    change ¬(setResult t side _).isTerminated = true
    rw [setResult, setSocket_isTerminated, hf.isTerminated_eq]
    exact Bool.false_ne_true
  rw [if_neg hdata, if_neg hterm]
  by_cases hvterm : v.isTerminated = true
  · rw [if_pos hvterm]
    exact ⟨hv, hrelay⟩
  · have hfv := hv.flows (Bool.eq_false_iff.2 hvterm)
    have hs := hfv.streams side
    rw [if_neg hvterm]
    split_ifs
    · rw [hfv.onOpenSocket_eq]
      have htimer : Same v (v.setSocket side { v.socket side with timerActive := true }) :=
        same_setSocket rfl
      refine ⟨hv.same htimer fun hf' => hf'.setSocket ?_, htimer.relay_eq.trans hrelay⟩
      exact ⟨⟨hs.isTerminated_eq, hs.handleClosing_eq, hs.timerClosing_eq⟩, hs.wrstate_ne,
        hs.connects_eq, hs.lookups_eq⟩
    · exact ⟨hv, hrelay⟩

theorem relays_writeDone (hr : Relays t) (hf : Flows t) :
    Relays (uvSocketWriteDoneCb (handlers env) t side true) ∧
      relay (uvSocketWriteDoneCb (handlers env) t side true) = relay t := by
  unfold uvSocketWriteDoneCb
  extract_lets s u v
  have hs := hf.streams side
  have hterm : v.isTerminated = false := by
    change (setResult u side _).isTerminated = false
    rw [setResult, setSocket_isTerminated, setSocket_isTerminated]
    exact hf.isTerminated_eq
  have hready : ((handlers env).tunnelWriteDone (writeReady (handlers env) v side) side) =
      setStates (writeReady (handlers env) v side) side
        ((writeReady (handlers env) v side).socket side).rdstate .stop := by
    have hstage : (writeReady (handlers env) v side).data.stage = .streaming := by
      rw [writeReady_data]
      change (setResult u side _).data.stage = .streaming
      rw [setResult, setSocket_data, setSocket_data]
      exact hr.stage_eq
    change tunnelSsrDispatcher env (writeReady (handlers env) v side) side [] = _
    unfold tunnelSsrDispatcher
    rw [hstage]
    exact clientStreaming_write (writeReady_wrstate v side)
  rw [hterm, if_neg Bool.false_ne_true, if_neg Bool.noConfusion, hready]
  have hu : Same t u := same_setSocket rfl
  have hv : Same u v := same_setSocket rfl
  have hfu : Flows u := hf.setSocket ⟨⟨hs.isTerminated_eq, hs.handleClosing_eq, hs.timerClosing_eq⟩,
    hs.wrstate_ne, hs.connects_eq, hs.lookups_eq⟩
  have hfv : Flows v := hfu.setResult side _
  have hfinal := hfv.writeFinished (handlers env) side
  have hsame : Same t _ := (hu.trans hv).trans hfinal.1
  exact ⟨hr.same hsame fun _ => hfinal.2, hsame.relay_eq⟩

variable (env) in
/-- While a tunnel streams it is a relay. -/
theorem relays_step (hr : Relays t) {e : Event} (hocc : Occurs t e) :
    Relays (step (handlers env) t e) ∧ relay (step (handlers env) t e) = (relay t).step env e := by
  -- behind the shutdown no callback moves the relay
  cases hterm : t.isTerminated with
  | true =>
      have hsame := same_step (h := handlers env) hterm e
      refine ⟨hr.same hsame fun hf => ?_, ?_⟩
      · rw [hf.isTerminated_eq] at hterm
        cases hterm
      · have hclosed : (relay t).closed = true := hterm
        unfold Relay.step
        rw [if_pos hclosed]
        exact hsame.relay_eq
  | false =>
      have hf := hr.flows hterm
      have hclosed : (relay t).closed = false := hterm
      obtain ⟨hen, hclose⟩ := hocc
      simp only [Relay.step, hclosed, Bool.false_eq_true, if_false]
      cases e with
      | read side data =>
          by_cases hdata : data = []
          · have hres : Same t (setResult t side data.length) := same_setSocket rfl
            simp only [step, uvSocketReadDoneCb, if_pos hdata]
            exact ⟨hr.same hres fun _ => hf.setResult side _, hres.relay_eq⟩
          · simp only [step, if_neg hdata]
            exact relays_readDone hr hf hdata
      | readFailed side eof => exact hr.shutDown (readFailed_shutDown hterm side eof)
      | written side ok =>
          cases ok with
          | true => exact relays_writeDone hr hf
          | false => exact hr.shutDown (writeFailed_shutDown hterm side)
      -- a tunnel that relays waits for neither a connection nor an address
      | connected side ok =>
          have hpos : 0 < (t.socket side).connects := hen
          rw [(hf.streams side).connects_eq] at hpos
          exact absurd hpos (Nat.lt_irrefl 0)
      | resolved side ok =>
          have hpos : 0 < (t.socket side).lookups := hen
          rw [(hf.streams side).lookups_eq] at hpos
          exact absurd hpos (Nat.lt_irrefl 0)
      | timeout side => exact hr.shutDown (timeout_shutDown hterm side)
      -- nor does it close a handle
      | handleClosed side =>
          exact absurd ((hf.streams side).handleClosing_eq.symm.trans hen.1) Bool.false_ne_true
      | timerClosed side =>
          exact absurd ((hf.streams side).timerClosing_eq.symm.trans hen) Bool.false_ne_true
      | shutdown => exact hr.shutDown ⟨t, Same.refl t, Same.refl _⟩
      | close side => exact absurd rfl (hclose side)

theorem relay_run (hr : Relays t) {es : List Event} (hrun : Legal Occurs (step (handlers env)) t es) :
    relay (es.foldl (step (handlers env)) t) = es.foldl (Relay.step env) (relay t) := by
  induction es generalizing t with
  | nil => rfl
  | cons e es ih =>
      obtain ⟨hr', hrelay⟩ := relays_step env hr hrun.1
      rw [List.foldl_cons, List.foldl_cons, ← hrelay]
      exact ih hr' hrun.2

/-! ## From the connection on -/

theorem phase_step {e : Event} (hp : Phase t) (hocc : Occurs t e) :
    Phase (step (handlers env) t e) := by
  cases hp with
  | terminated h => exact .terminated ((same_step h e).isTerminated_eq.trans h)
  | waiting h hw => exact phase_waiting hw h hocc
  | streaming h hf =>
      obtain ⟨hr, -⟩ := relays_step env ⟨h, fun _ => hf⟩ hocc
      cases hterm : (step (handlers env) t e).isTerminated with
      | true => exact .terminated hterm
      | false => exact .streaming hr.stage_eq (hr.flows hterm)

/-- When a tunnel streams, the dispatcher takes a read for a read and a completed write for a
completed write, and the tunnel relays. -/
structure StreamingOk (env : Env κ) (t : TunnelCtx (ClientCtx κ)) : Prop where
  read_is_read : ∀ side data, data ≠ [] → Occurs t (.read side data) →
    ((readReady (handlers env) (setResult t side data.length) side).socket side).rdstate = .done ∧
    ((readReady (handlers env) (setResult t side data.length) side).socket side).wrstate ≠ .done ∧
    relay (step (handlers env) t (.read side data)) = (relay t).carry env side data
  write_is_write : ∀ side, Occurs t (.written side true) →
    ((writeReady (handlers env) (setResult (t.setSocket side
      { t.socket side with writes := (t.socket side).writes - 1 }) side 0) side).socket side).wrstate =
        .done ∧
    relay (step (handlers env) t (.written side true)) = relay t
  relays : ∀ es, Legal Occurs (step (handlers env)) t es →
    relay (es.foldl (step (handlers env)) t) = es.foldl (Relay.step env) (relay t)

theorem Flows.streamingOk (hf : Flows t) (hstage : t.data.stage = .streaming) :
    StreamingOk env t where
  read_is_read side data hdata hocc := by
    obtain ⟨hready, -, hrd⟩ := flows_readReady (handlers env) hf side data.length
    exact ⟨hrd, (hready.streams side).wrstate_ne, (relays_readDone ⟨hstage, fun _ => hf⟩ hf hdata).2⟩
  write_is_write side hocc :=
    ⟨writeReady_wrstate _ side, (relays_writeDone ⟨hstage, fun _ => hf⟩ hf).2⟩
  relays es hrun := relay_run ⟨hstage, fun _ => hf⟩ hrun

/-- The tunnel after `es`, from the connection to the server on. -/
def clientAfter (env : Env κ) (t : TunnelCtx (ClientCtx κ)) (targetAddress : Bytes)
    (es : List Event) : TunnelCtx (ClientCtx κ) :=
  es.foldl (step (handlers env)) (doCommonConnetRemoteServer env t targetAddress)

/-- In whatever order reads, completed writes and the other events come after the SOCKS5
negotiation, the streaming stage relays what is read. -/
theorem streaming_relays (hq : Quiet t) (targetAddress : Bytes) (es : List Event)
    (hrun : Legal Occurs (step (handlers env)) (doCommonConnetRemoteServer env t targetAddress) es)
    (hopen : (clientAfter env t targetAddress es).isTerminated = false)
    (hstage : (clientAfter env t targetAddress es).data.stage = .streaming) :
    StreamingOk env (clientAfter env t targetAddress es) := by
  have hphase : Phase (clientAfter env t targetAddress es) :=
    hrun.invariant (fun _ _ => phase_step) (hq.commonConnetRemoteServer targetAddress)
  cases hphase with
  | terminated h =>
      rw [h] at hopen
      cases hopen
  | waiting h hw =>
      rw [hstage] at h
      cases h
  | streaming h hf => exact hf.streamingOk h

/-- A cipher that adds to every byte how often it was called before. -/
def countingCipher : Cipher UInt8 where
  create _ := 0
  needFeedback _ := false
  encrypt n data := (n + 1, some (data.map (· + n)))
  decrypt n data := (n + 1, ⟨some (data.map (· + n)), none⟩)

theorem quiet_start (data : ClientCtx κ) : Quiet (tunnelInitialize data false true) := by
  refine ⟨rfl, fun side => ?_⟩
  cases side <;> exact ⟨⟨rfl, rfl, rfl⟩, rfl, rfl, rfl, rfl, rfl, rfl⟩

theorem streaming_relays_sample :
    StreamingOk ⟨countingCipher, true, true, true⟩
      (clientAfter ⟨countingCipher, true, true, true⟩
        (tunnelInitialize ⟨.kill, 0, [], [1]⟩ false true) [3, 1, 97, 0, 80]
        [.connected .outgoing true, .written .outgoing true, .read .incoming [7],
          .read .outgoing [8, 9], .written .outgoing true]) :=
  streaming_relays (quiet_start _) _ _ (by decide) (by decide) (by decide)

end Relaying

end Client
end SsrNative
