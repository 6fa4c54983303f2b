import SsrNative.Aead
import SsrNative.Client.Phases
import SsrNative.Client.S5
import SsrNative.Client.UdpTunnels
import SsrNative.Server.Dispatcher
import SsrNative.Server.ReadSizes

/-!
# EncryptCalls — what is handed to `aead_encrypt`

A chunk of an AEAD stream carries at most `0x3FFF` bytes, and `aead_chunk_encrypt` only asserts it.
Here the ciphers of the client's and of the server's tunnels record the plaintexts that they get, and
the bound is derived for every run: TCP keeps it, because each side reads less at once; UDP over TLS
keeps it exactly when the datagrams are small enough (`plaintexts_fit_iff`).
-/

namespace SsrNative
namespace EncryptCalls

open Aead
open Client
open Lib.Segments
open Lib.Transition
open Tunnel

/-! ## Plaintexts -/

def CHUNK_SIZE_MASK : ℕ := 0x3FFF

def SSR_BUFF_SIZE : ℕ := 2048

/-- The part of the configuration that decides what a buffer goes through before the cipher: whether
the method is an AEAD method, and `client_pre_encrypt` or `server_pre_encrypt` of the protocol, which
`origin` does not have. -/
structure Config (π : Type*) where
  aead : Bool
  overTlsEnable : Bool
  preEncrypt : Option (π → Bytes → π × Bytes)

/-- The state of a cipher that records what `aead_encrypt` gets. -/
structure Recorded (κ π : Type*) where
  cipher : κ
  protocol : π
  plaintexts : List Bytes

section Record

variable {κ π ω : Type*}

/-- `config_ssrot_revision`, without the obfuscation. -/
def configSsrotRevision (cfg : Config π) : Config π :=
  if cfg.overTlsEnable then { cfg with preEncrypt := none }
  else if cfg.aead then { cfg with preEncrypt := none }
  else cfg

/-- `tunnel_cipher_client_encrypt` and `tunnel_cipher_server_encrypt`, up to `aead_encrypt`. -/
def record (cfg : Config π) (aeadEncrypt : κ → Bytes → κ × ω) (s : Recorded κ π) (buf : Bytes) :
    Recorded κ π × ω :=
  let p :=
    match cfg.preEncrypt with
    | none => (s.protocol, buf)
    | some preEncrypt => preEncrypt s.protocol buf
  let r := aeadEncrypt s.cipher p.2
  (⟨r.1, p.1, s.plaintexts ++ [p.2]⟩, r.2)

/-- No plaintext was too long. -/
def Recorded.Fits (s : Recorded κ π) : Prop := ∀ p ∈ s.plaintexts, p.length ≤ CHUNK_SIZE_MASK

/-- The assertion of `aead_chunk_encrypt` holds for the plaintexts that are not too long. -/
theorem aeadEncrypt_isSome_iff (C : AeadCipher) (F : Bloom) (st : AeadCtx × F.State) (p : Bytes) :
    (aeadEncrypt C F st p).2.isSome = true ↔ p.length ≤ CHUNK_SIZE_MASK := by
  have hchunk : ∀ ctx, (aeadChunkEncrypt C ctx p).2.isSome = true ↔ p.length ≤ CHUNK_SIZE_MASK := by
    intro ctx
    unfold aeadChunkEncrypt CHUNK_SIZE_MASK
    split_ifs with hlen
    · exact iff_of_false nofun (Nat.not_le.2 hlen)
    · exact iff_of_true rfl (Nat.not_lt.1 hlen)
  unfold aeadEncrypt
  split_ifs with hempty
  · exact iff_of_true rfl (by omega)
  · dsimp only
    rw [Option.isSome_map]
    exact hchunk _
  · exact hchunk _

/-- An AEAD method switches the protocol off. -/
theorem configSsrotRevision_preEncrypt {cfg : Config π} (h : cfg.aead = true) :
    (configSsrotRevision cfg).preEncrypt = none := by
  unfold configSsrotRevision
  rw [if_pos h]
  split_ifs
  · rfl
  · rfl

theorem record_fits_iff {cfg : Config π} (h : cfg.preEncrypt = none) (f : κ → Bytes → κ × ω)
    (s : Recorded κ π) (buf : Bytes) :
    (record cfg f s buf).1.Fits ↔ s.Fits ∧ buf.length ≤ CHUNK_SIZE_MASK := by
  unfold record Recorded.Fits
  rw [h]
  simp [List.mem_append, or_imp, forall_and]

end Record

/-! ## What callbacks do to the data of a tunnel -/

section Data

variable {δ : Type*} {h : Handlers δ} {P : δ → Prop} {fits : Side → Bytes → Prop}

/-- The handlers keep `P`, if what is read is as `fits` says. -/
structure Keeps (h : Handlers δ) (P : δ → Prop) (fits : Side → Bytes → Prop) : Prop where
  readDone : ∀ t side buf, fits side buf → P t.data → P (h.tunnelReadDone t side buf).data
  writeDone : ∀ t side, P t.data → P (h.tunnelWriteDone t side).data
  connectedDone : ∀ t side, P t.data → P (h.tunnelOutgoingConnectedDone t side).data
  getaddrinfoDone : ∀ t side, P t.data → P (h.tunnelOnGetaddrinfoDone t side).data
  timeoutDone : ∀ t side, P t.data → P (h.tunnelTimeoutExpireDone t side).data
  endOfFile : ∀ t side, P t.data → P (h.tunnelArriveEndOfFile t side).data

/-- The event is a read only of what fits. -/
def ReadFits (fits : Side → Bytes → Prop) (e : Event) : Prop :=
  ∀ side buf, e = .read side buf → fits side buf

@[simp] theorem socketCtxRead_data (t : TunnelCtx δ) (side : Side) (b : Bool) :
    (socketCtxRead t side b).data = t.data := (same_read t side b).data_eq

@[simp] theorem socketCtxConnect_data (t : TunnelCtx δ) (side : Side) :
    (socketCtxConnect t side).data = t.data := onOpenSocket_data t side _

@[simp] theorem socketCtxGetaddrinfo_data (t : TunnelCtx δ) (side : Side) :
    (socketCtxGetaddrinfo t side).data = t.data := onOpenSocket_data t side _

attribute [simp] tunnelShutdown_data

theorem Keeps.step (H : Keeps h P fits) {t : TunnelCtx δ} (hP : P t.data) {e : Event}
    (he : ReadFits fits e) : P (step h t e).data := by
  -- one callback of libuv after the other; each calls at most one handler, on the data as it was
  cases e with
  | read side data =>
      have hread := H.readDone (readReady h (setResult t side data.length) side) side data
        (he side data rfl) (by rwa [readReady_data, setResult, setSocket_data])
      simp only [Tunnel.step, uvSocketReadDoneCb]
      split_ifs
      · simpa [setResult] using hP
      · simpa [setResult] using hP
      · exact hread
      · simpa using hread
      · exact hread
  | readFailed side eof =>
      simp only [Tunnel.step, uvSocketReadFailedCb]
      split_ifs
      · simpa [setResult] using hP
      · exact H.endOfFile _ side (by simpa [setResult, readStopped, setStates] using hP)
      · simpa [setResult, readStopped, setStates] using hP
  | written side ok =>
      cases ok with
      | false =>
          simp only [Tunnel.step, uvSocketWriteDoneCb, Bool.false_eq_true, if_false, if_true]
          split_ifs
          · simpa [setResult] using hP
          · simpa [setResult, setStates] using hP
      | true =>
          simp only [Tunnel.step, uvSocketWriteDoneCb, Bool.true_eq_false, if_false, if_true]
          split_ifs
          · simpa [setResult] using hP
          · exact H.writeDone _ side (by simpa [setResult, writeReady_data] using hP)
  | connected side ok =>
      cases ok with
      | false =>
          simp only [Tunnel.step, uvSocketConnectDoneCb, Bool.false_eq_true, if_false, if_true]
          split_ifs
          · simpa using hP
          · simpa using hP
      | true =>
          simp only [Tunnel.step, uvSocketConnectDoneCb, Bool.true_eq_false, if_false, if_true]
          split_ifs
          · simpa using hP
          · exact H.connectedDone _ side (by simpa using hP)
  | resolved side ok =>
      cases ok with
      | false =>
          simp only [Tunnel.step, uvSocketOnGetaddrinfoCb, Bool.false_eq_true, if_false, if_true]
          split_ifs
          · simpa using hP
          · simpa using hP
      | true =>
          simp only [Tunnel.step, uvSocketOnGetaddrinfoCb, Bool.true_eq_false, if_false, if_true]
          split_ifs
          · simpa using hP
          · exact H.getaddrinfoDone _ side (by simpa using hP)
  | timeout side =>
      simp only [Tunnel.step, uvSocketTimerExpireCb]
      split_ifs
      · simpa using hP
      · simpa using H.timeoutDone _ side (by simpa using hP)
  | handleClosed side => rwa [Tunnel.step, (same_closeDone _ side).data_eq, setSocket_data]
  | timerClosed side => rwa [Tunnel.step, (same_closeDone _ side).data_eq, setSocket_data]
  | shutdown => rwa [Tunnel.step, tunnelShutdown_data]
  | close side => rwa [Tunnel.step, (same_close t side).data_eq]

theorem Keeps.run (H : Keeps h P fits) {t : TunnelCtx δ} (hP : P t.data) {es : List Event}
    (hes : ∀ e ∈ es, ReadFits fits e) : P (es.foldl (Tunnel.step h) t).data := by
  induction es generalizing t with
  | nil => exact hP
  | cons e es ih =>
      have hnext := H.step hP (hes e List.mem_cons_self)
      exact ih hnext fun e' he' => hes e' (List.mem_cons_of_mem _ he')

end Data

/-! ## The client over TCP -/

section ClientTcp

variable {κ π : Type*} {cfg : Config π} {x : π}

/-- The cipher of the client with its plaintexts. -/
def recordCipher (cfg : Config π) (x : π) (C : Client.Cipher κ) : Client.Cipher (Recorded κ π) where
  create address := ⟨C.create address, x, []⟩
  needFeedback s := C.needFeedback s.cipher
  encrypt := record cfg C.encrypt
  decrypt s buf := ({ s with cipher := (C.decrypt s.cipher buf).1 }, (C.decrypt s.cipher buf).2)

def recordEnv (cfg : Config π) (x : π) (env : Client.Env κ) : Client.Env (Recorded κ π) where
  cipher := recordCipher cfg x env.cipher
  hostIsAddress := env.hostIsAddress
  canAccess := env.canAccess
  connectAccepted := env.connectAccepted

/-- What the negotiation with the application can leave in `first_client_pkg`: nothing, what follows
the request in the read of the greeting, or a read of its own. -/
inductive FirstPkg : Bytes → Prop where
  | nothing : FirstPkg []
  | shortcut (cx : S5.Ctx) {data : Bytes} (h : data.length ≤ SSR_BUFF_SIZE) :
      FirstPkg (S5.parse (S5.selectAuth (S5.parse cx data).1 .none) (S5.parse cx data).2.1).2.1
  | read {data : Bytes} (h : data.length ≤ SSR_BUFF_SIZE) : FirstPkg data

theorem FirstPkg.length_le {first : Bytes} (h : FirstPkg first) : first.length ≤ SSR_BUFF_SIZE := by
  cases h with
  | nothing => exact Nat.zero_le _
  | shortcut cx h =>
      have hfirst := S5.length_parseLoop_rest cx 0
      have hsecond := S5.length_parseLoop_rest
      exact Nat.le_trans (hsecond _ _ _) (Nat.le_trans (hfirst _) h)
  | read h => exact h

/-- No plaintext was too long, and none that waits is. -/
structure Small (d : ClientCtx (Recorded κ π)) : Prop where
  fits : d.cipher.Fits
  target : d.targetAddressPkg.length ≤ CHUNK_SIZE_MASK
  first : d.firstClientPkg.length ≤ CHUNK_SIZE_MASK

variable {env : Client.Env κ} {t : TunnelCtx (ClientCtx (Recorded κ π))}

@[simp] theorem setStage_data (t : TunnelCtx (ClientCtx κ)) (stage : Stage) :
    (setStage t stage).data = { t.data with stage := stage } := rfl

@[simp] theorem setCipher_data (t : TunnelCtx (ClientCtx κ)) (cipher : κ) :
    (setCipher t cipher).data = { t.data with cipher := cipher } := rfl

@[simp] theorem write_data (t : TunnelCtx (ClientCtx κ)) (side : Side) (data : Bytes) :
    (write t side data).data = t.data := tunnelSocketCtxWrite_data _ t side data

theorem Small.setStage {d : ClientCtx (Recorded κ π)} (h : Small d) (stage : Stage) :
    Small { d with stage := stage } := ⟨h.fits, h.target, h.first⟩

/-- A plaintext that is small enough. -/
theorem Small.encrypt {d : ClientCtx (Recorded κ π)} (hcfg : cfg.preEncrypt = none) (h : Small d)
    {buf : Bytes} (hbuf : buf.length ≤ CHUNK_SIZE_MASK) :
    Small { d with cipher := ((recordEnv cfg x env).cipher.encrypt d.cipher buf).1 } :=
  ⟨(record_fits_iff hcfg env.cipher.encrypt d.cipher buf).2 ⟨h.fits, hbuf⟩, h.target, h.first⟩

theorem Small.decrypt {d : ClientCtx (Recorded κ π)} (h : Small d) (buf : Bytes) :
    Small { d with cipher := ((recordEnv cfg x env).cipher.decrypt d.cipher buf).1 } :=
  ⟨h.fits, h.target, h.first⟩

theorem Small.refuse (h : Small t.data) (reply : Bytes) : Small (Client.refuse t reply).data := by
  simpa [Client.refuse] using h.setStage .kill

theorem Small.connectSsrServer (h : Small t.data) :
    Small (doConnectSsrServer (recordEnv cfg x env) t).data := by
  have hcheck : Small (checkStopped t).data := by simpa [checkStopped] using h
  unfold doConnectSsrServer
  dsimp only
  split_ifs
  · exact hcheck.refuse _
  · simpa using hcheck
  · simpa using hcheck.setStage _

theorem Small.checkStopped (h : Small t.data) : Small (checkStopped t).data := by
  simpa [Client.checkStopped] using h

theorem Small.sendAuthPackage (hcfg : cfg.preEncrypt = none) (h : Small t.data) :
    Small (doSsrSendAuthPackageToServer (recordEnv cfg x env) t).data := by
  have hcheck := h.checkStopped
  unfold doSsrSendAuthPackageToServer
  extract_lets u r v
  have hv : Small v.data := hcheck.encrypt hcfg hcheck.target
  split_ifs
  · cases r.2 with
    | none => simpa using hv
    | some out => simpa using hv.setStage _
  · exact hcheck.refuse _

theorem Small.launchStreaming (hcfg : cfg.preEncrypt = none) (h : Small t.data) :
    Small (doLaunchStreaming (recordEnv cfg x env) t).data := by
  have hcheck := h.checkStopped
  unfold doLaunchStreaming
  extract_lets u tmp d v r w
  have hv : Small v.data := ⟨hcheck.fits, hcheck.target, Nat.zero_le _⟩
  have hw : Small w.data := hv.encrypt hcfg hcheck.first
  split_ifs
  · simpa using hcheck
  · cases r.2 with
    | none => simpa using hw
    | some out => simpa using hw.setStage _

theorem Small.actionAfterAuth (hcfg : cfg.preEncrypt = none) (h : Small t.data) :
    Small (doActionAfterAuthServerSuccess (recordEnv cfg x env) t).data := by
  have hstage : Small (Client.setStage t .authCompletionDone).data := h.setStage _
  exact hstage.checkStopped.launchStreaming hcfg

theorem Small.receiptForFeedback (h : Small t.data) (buf : Bytes) :
    Small (doSsrReceiptForFeedback (recordEnv cfg x env) t buf).1.data := by
  have hcheck := h.checkStopped
  unfold doSsrReceiptForFeedback
  extract_lets u r v w y
  have hv : Small v.data := hcheck.decrypt buf
  have hy : Small y.data := by simpa [y, w] using hv
  split_ifs
  · simpa using hcheck
  · cases r.2.feedback with
    | none => exact hy
    | some feedback => simpa using hy.setStage _

theorem Small.clientStreaming (hcfg : cfg.preEncrypt = none) (h : Small t.data) (side : Side)
    {buf : Bytes} (hbuf : buf.length ≤ CHUNK_SIZE_MASK) :
    Small (tunnelSsrClientStreaming (recordEnv cfg x env) t side buf).data := by
  unfold tunnelSsrClientStreaming
  extract_lets s u r
  have hu : Small u.data := by simpa [u] using h
  have hstopped : Small (setStates u side .stop s.wrstate).data := by simpa using hu
  have hr : Small r.1.data := by
    cases side with
    | incoming => exact hstopped.encrypt hcfg hbuf
    | outgoing => simpa [r, tunnelExtractData] using hstopped.decrypt buf
  split_ifs
  · simpa using hu
  · cases r.2 with
    | none => simpa using hr
    | some out => simpa using hr
  · simpa using hu

theorem Small.dispatcher (hcfg : cfg.preEncrypt = none) (h : Small t.data) (side : Side) {buf : Bytes}
    (hbuf : buf.length ≤ CHUNK_SIZE_MASK) :
    Small (tunnelSsrDispatcher (recordEnv cfg x env) t side buf).data := by
  cases hstage : t.data.stage <;> simp only [tunnelSsrDispatcher, hstage]
  case resolveSsrServerHostDone =>
    unfold doResolveSsrServerHostAftercare
    dsimp only
    split_ifs
    · exact h.checkStopped.refuse _
    · exact h.checkStopped.connectSsrServer
  case connectSsrServerDone => exact h.sendAuthPackage hcfg
  case ssrAuthSent =>
    have hstates : ∀ b rd wr, Small (Client.checkStopped (setStates (t.check b) .outgoing rd wr)).data :=
      fun b rd wr => by simpa [Client.checkStopped] using h
    unfold doSsrWaitingServerFeedback
    dsimp only
    split_ifs
    · simpa using hstates _ _ _
    · simpa using (hstates _ _ _).setStage _
    · exact (hstates _ _ _).actionAfterAuth hcfg
  case ssrServerFeedbackArrived =>
    have hstates : ∀ b rd wr, Small (setStates (t.check b) .outgoing rd wr).data :=
      fun b rd wr => by simpa using h
    split_ifs
    · exact ((hstates _ _ _).receiptForFeedback buf).actionAfterAuth hcfg
    · exact (hstates _ _ _).receiptForFeedback buf
  case ssrReceiptToServerSent =>
    have hstates : ∀ b rd wr, Small (setStates (t.check b) .outgoing rd wr).data :=
      fun b rd wr => by simpa using h
    exact (hstates _ _ _).actionAfterAuth hcfg
  case authCompletionDone => exact h.checkStopped.launchStreaming hcfg
  case streaming => exact h.clientStreaming hcfg side hbuf
  case kill => simpa using h

theorem keeps_small (hcfg : cfg.preEncrypt = none) :
    Keeps (handlers (recordEnv cfg x env)) Small fun _ buf => buf.length ≤ CHUNK_SIZE_MASK where
  readDone _ side _ hbuf h := h.dispatcher hcfg side hbuf
  writeDone _ side h := h.dispatcher hcfg side (Nat.zero_le _)
  connectedDone _ side h := h.dispatcher hcfg side (Nat.zero_le _)
  getaddrinfoDone _ side h := h.dispatcher hcfg side (Nat.zero_le _)
  timeoutDone _ _ h := h
  endOfFile t _ h := by simpa [handlers] using h

theorem small_connect (t : TunnelCtx (ClientCtx (Recorded κ π)))
    (hfirst : FirstPkg t.data.firstClientPkg) {target : Socks5Address} (htarget : target.WellFormed) :
    Small (doCommonConnetRemoteServer (recordEnv cfg x env) t target.binary).data := by
  have hlen := hfirst.length_le
  have hsmall : Small { t.data with
      targetAddressPkg := target.binary
      cipher := (recordEnv cfg x env).cipher.create target.binary } := by
    refine ⟨nofun, ?_, Nat.le_trans hlen (by decide)⟩
    have hsize := Socks5Address.size_le htarget
    rw [Socks5Address.binary_length htarget]
    exact Nat.le_trans hsize (by decide)
  unfold doCommonConnetRemoteServer
  extract_lets d u
  have hu : Small u.data := hsmall
  split_ifs
  · simpa using hu.setStage _
  · exact hu.connectSsrServer

/-- A read of the client: `tunnel_get_alloc_size` asks for a buffer of this size. -/
def ClientRead (_ : Side) (buf : Bytes) : Prop := buf.length ≤ SSR_BUFF_SIZE

variable (x env) in
/-- A tunnel of the client that relays TCP, from the connection to the server on. -/
theorem client_tcp_fits (hcfg : cfg.preEncrypt = none) (t : TunnelCtx (ClientCtx (Recorded κ π)))
    (hfirst : FirstPkg t.data.firstClientPkg) {target : Socks5Address} (htarget : target.WellFormed)
    {es : List Event} (hread : ∀ e ∈ es, ReadFits ClientRead e) :
    (es.foldl (step (handlers (recordEnv cfg x env)))
      (doCommonConnetRemoteServer (recordEnv cfg x env) t target.binary)).data.cipher.Fits := by
  refine ((keeps_small hcfg).run (small_connect t hfirst htarget) fun e he side buf hbuf => ?_).fits
  exact Nat.le_trans (hread e he side buf hbuf) (by decide)

end ClientTcp

/-! ## The client over TLS -/

section ClientTls

variable {κ π ρ : Type*} {cfg : Config π} {env : TlsEnv κ ρ}

/-- The cipher comes back from every plaintext, so that those that are too long are recorded, too. -/
def recordTls (cfg : Config π) (env : TlsEnv κ ρ) : TlsEnv (Recorded κ π) ρ where
  aead := false
  tunnelCipherClientEncrypt := record cfg env.tunnelCipherClientEncrypt
  tunnelCipherClientDecrypt := env.tunnelCipherClientDecrypt
  httpHeadersParse := env.httpHeadersParse
  overTlsServerDomain := env.overTlsServerDomain
  overTlsPath := env.overTlsPath
  remotePort := env.remotePort

theorem encryptAndSend_tunnel (env : TlsEnv κ ρ) (t : TlsTunnel κ ρ) (buf : Bytes) :
    (encryptAndSend env t buf).1.eCtx = (env.tunnelCipherClientEncrypt t.eCtx buf).1 ∧
      (encryptAndSend env t buf).1.firstClientPkg = t.firstClientPkg ∧
      (encryptAndSend env t buf).1.udpDataCtx = t.udpDataCtx := by
  unfold encryptAndSend
  split_ifs
  · exact ⟨rfl, rfl, rfl⟩
  · exact ⟨rfl, rfl, rfl⟩

theorem encryptAndSend_fits_iff (hcfg : cfg.preEncrypt = none) (t : TlsTunnel (Recorded κ π) ρ)
    (buf : Bytes) :
    (encryptAndSend (recordTls cfg env) t buf).1.eCtx.Fits ↔
      t.eCtx.Fits ∧ buf.length ≤ CHUNK_SIZE_MASK := by
  rw [(encryptAndSend_tunnel _ t buf).1]
  exact record_fits_iff hcfg _ _ _

theorem receiveLoop_firstClientPkg (env : TlsEnv κ ρ) (fuel : ℕ) (t : TlsTunnel κ ρ) :
    (receiveLoop env fuel t).firstClientPkg = t.firstClientPkg := by
  induction fuel generalizing t with
  | zero => rfl
  | succ fuel ih =>
      rw [receiveLoop]
      split
      · rfl
      · dsimp only
        split
        · rfl
        · exact ih _

/-- A callback for data leaves the encryption alone in the streaming stage. -/
theorem onStreamingData_tunnel (env : TlsEnv κ ρ) (t : TlsTunnel κ ρ) (data : Bytes) :
    (onStreamingData env t data).1.eCtx = t.eCtx ∧
      (onStreamingData env t data).1.firstClientPkg = t.firstClientPkg ∧
      ((onStreamingData env t data).1.udpDataCtx = none ↔ t.udpDataCtx = none) := by
  have hside := (onStreamingData_sendSide env t data).1
  simp only [TlsTunnel.sendSide, Prod.mk.injEq] at hside
  refine ⟨hside.2.1, ?_, ?_⟩
  · have hfirst := receiveLoop_firstClientPkg env ((t.serverDeliveryCache ++ data).length + 1)
      { t with serverDeliveryCache := t.serverDeliveryCache ++ data }
    rw [onStreamingData]
    dsimp only
    generalize receiveLoop env ((t.serverDeliveryCache ++ data).length + 1)
      { t with serverDeliveryCache := t.serverDeliveryCache ++ data } = t' at hfirst
    split
    · exact hfirst
    · split
      · exact hfirst
      · split
        · exact hfirst
        · exact hfirst
  · rw [← Option.map_eq_none_iff, hside.2.2.2.2.2, Option.map_eq_none_iff]

/-! ### TCP -/

/-- What happens to a tunnel over TLS that relays TCP. -/
inductive TlsEvent where
  | established (key : Bytes) (status : ℤ)
  | dataReceived (status : ℤ) (data : Bytes)
  | read (buf : Bytes)
  | shutdown

/-- One callback; `tunnel_tls_client_incoming_streaming` sends what was read. -/
def tlsStep (env : TlsEnv κ ρ) (t : TlsTunnel κ ρ) : TlsEvent → TlsTunnel κ ρ
  | .established key status =>
      match tlsCliOnConnectionEstablished env key t status with
      | some r => r.1
      | none => t
  | .dataReceived status data => (tlsCliOnDataReceived env t status data).1
  | .read buf => if t.stage = .tlsStreaming then (encryptAndSend env t buf).1 else t
  | .shutdown => t.shutdown

/-- No plaintext of the tunnel was too long, and its first package is not. -/
structure TlsSmall (t : TlsTunnel (Recorded κ π) ρ) : Prop where
  fits : t.eCtx.Fits
  first : t.firstClientPkg.length ≤ CHUNK_SIZE_MASK
  tcp : t.udpDataCtx = none

variable (env) in
theorem TlsSmall.encryptAndSend (hcfg : cfg.preEncrypt = none) {t : TlsTunnel (Recorded κ π) ρ}
    (h : TlsSmall t) {buf : Bytes} (hbuf : buf.length ≤ CHUNK_SIZE_MASK) :
    TlsSmall (encryptAndSend (recordTls cfg env) t buf).1 := by
  obtain ⟨-, hfirst, hudp⟩ := encryptAndSend_tunnel (recordTls cfg env) t buf
  refine ⟨(encryptAndSend_fits_iff hcfg t buf).2 ⟨h.fits, hbuf⟩, ?_, ?_⟩
  · rw [hfirst]
    exact h.first
  · rw [hudp]
    exact h.tcp

theorem TlsSmall.step (hcfg : cfg.preEncrypt = none) {t : TlsTunnel (Recorded κ π) ρ} (h : TlsSmall t)
    {e : TlsEvent} (he : ∀ buf, e = .read buf → ClientRead .incoming buf) :
    TlsSmall (tlsStep (recordTls cfg env) t e) := by
  cases e with
  | established key status =>
      simp only [tlsStep]
      cases hr : tlsCliOnConnectionEstablished (recordTls cfg env) key t status with
      | none => exact h
      | some r =>
          unfold tlsCliOnConnectionEstablished at hr
          rw [h.tcp] at hr
          split_ifs at hr
          · cases hr
            exact ⟨h.fits, h.first, h.tcp⟩
          · cases hr
            exact h
          · dsimp only at hr
            split at hr
            · cases hr
              exact ⟨h.fits, h.first, rfl⟩
            · cases hr
  | dataReceived status data =>
      simp only [tlsStep, tlsCliOnDataReceived]
      split_ifs
      · exact h
      · exact ⟨h.fits, h.first, h.tcp⟩
      · split
        · unfold onUpgradeResponse
          dsimp only
          rw [h.tcp]
          split_ifs
          · exact ⟨h.fits, h.first, h.tcp⟩
          · -- the first package is the only thing encrypted here
            have hsend := TlsSmall.encryptAndSend env hcfg
              (t := { t with firstClientPkg := [] }) ⟨h.fits, Nat.zero_le _, h.tcp⟩ h.first
            unfold tunnelTlsDoLaunchStreaming
            dsimp only
            split_ifs
            · exact ⟨h.fits, h.first, h.tcp⟩
            · exact hsend
            · exact ⟨hsend.fits, hsend.first, hsend.tcp⟩
        · obtain ⟨hctx, hfirst, hudp⟩ := onStreamingData_tunnel (recordTls cfg env) t data
          refine ⟨?_, ?_, hudp.2 h.tcp⟩
          · rw [hctx]
            exact h.fits
          · rw [hfirst]
            exact h.first
        · exact h
  | read buf =>
      simp only [tlsStep]
      split_ifs
      · exact h.encryptAndSend env hcfg (Nat.le_trans (he buf rfl) (by decide))
      · exact h
  | shutdown => exact ⟨h.fits, h.first, h.tcp⟩

variable (env) in
/-- A tunnel of the client that relays TCP over TLS, from the connection to the server on. -/
theorem client_tls_fits (hcfg : cfg.preEncrypt = none) {t : TlsTunnel (Recorded κ π) ρ}
    (hfirst : FirstPkg t.firstClientPkg) (htcp : t.udpDataCtx = none) (hnew : t.eCtx.plaintexts = [])
    {es : List TlsEvent} (hread : ∀ e ∈ es, ∀ buf, e = .read buf → ClientRead .incoming buf) :
    (es.foldl (tlsStep (recordTls cfg env)) t).eCtx.Fits := by
  have hstart : TlsSmall t := by
    refine ⟨?_, Nat.le_trans hfirst.length_le (by decide), htcp⟩
    unfold Recorded.Fits
    rw [hnew]
    exact nofun
  suffices h : TlsSmall (es.foldl (tlsStep (recordTls cfg env)) t) from h.fits
  clear hfirst htcp hnew
  induction es generalizing t with
  | nil => exact hstart
  | cons e es ih =>
      refine ih (fun e' he' => hread e' (List.mem_cons_of_mem _ he')) ?_
      exact hstart.step hcfg (hread e List.mem_cons_self)

end ClientTls
/-! ### UDP -/

section ClientUdp

variable {α κ π ρ : Type*} {cfg : Config π} {x : π} {env : UdpEnv κ ρ}

def recordUdp (cfg : Config π) (x : π) (env : UdpEnv κ ρ) : UdpEnv (Recorded κ π) ρ where
  toTlsEnv := recordTls cfg env.toTlsEnv
  tunnelCipherCreate n := (⟨(env.tunnelCipherCreate n).1, x, []⟩, (env.tunnelCipherCreate n).2)
  tunnelMasks := env.tunnelMasks

/-- No plaintext of any tunnel was too long. -/
def UdpFits (c : UdpClient α (Recorded κ π) ρ) : Prop := ∀ u ∈ c.tunnels, u.tunnel.eCtx.Fits

/-- Every tunnel is one for UDP. -/
def AllUdp (c : UdpClient α (Recorded κ π) ρ) : Prop := ∀ u ∈ c.tunnels, u.tunnel.udpDataCtx ≠ none

/-- The server has agreed to the upgrade, so `send_deque` is sent. -/
structure UpgradeAccepted (env : TlsEnv κ ρ) (t : TlsTunnel (Recorded κ π) ρ) (status : ℤ) (data : Bytes) :
    Prop where
  alive : t.isTerminated = false
  ok : 0 ≤ status
  upgrading : t.stage = .tlsWebsocketUpgrade
  switching : (env.httpHeadersParse data).status = some (Bytes.ascii "Switching Protocols")
  accept : (env.httpHeadersParse data).secWebsocketAccept =
    websocketGenerateSecWebsocketAccept t.secWebsocketKey
  key : websocketGenerateSecWebsocketAccept t.secWebsocketKey ≠ none
  whole : (env.httpHeadersParse data).parsedLen = data.length

theorem forall_mem_modify {β : Type*} {l : List β} {Q : β → Prop} {i : ℕ} {f : β → β}
    (h : ∀ v ∈ l, Q v) : (∀ v ∈ l.modify i f, Q v) ↔ ∀ u, l[i]? = some u → Q (f u) := by
  constructor
  · intro hall u hu
    refine hall (f u) (List.mem_of_getElem? (i := i) ?_)
    rw [List.getElem?_modify, hu]
    simp
  · intro hf v hv
    obtain ⟨j, hj⟩ := List.getElem?_of_mem hv
    rw [List.getElem?_modify] at hj
    obtain ⟨u, hu, rfl⟩ := Option.map_eq_some_iff.1 hj
    by_cases hij : i = j
    · subst hij
      rw [if_pos rfl]
      exact hf u hu
    · rw [if_neg hij]
      exact h u (List.mem_of_getElem? hu)

theorem run_sealFrame_fits_iff (hcfg : cfg.preEncrypt = none) (masks : ℕ → ℕ → UInt8)
    (s : Recorded κ π × ℕ) (bufs : List Bytes) :
    (run (sealFrame (recordTls cfg env.toTlsEnv) masks) s bufs).1.1.Fits ↔
      s.1.Fits ∧ ∀ p ∈ bufs, p.length ≤ CHUNK_SIZE_MASK := by
  induction bufs generalizing s with
  | nil => exact (and_iff_left nofun).symm
  | cons buf bufs ih =>
      have hstep : (sealFrame (recordTls cfg env.toTlsEnv) masks s buf).1.1.Fits ↔
          s.1.Fits ∧ buf.length ≤ CHUNK_SIZE_MASK := record_fits_iff hcfg _ _ _
      rw [run_cons]
      refine (ih _).trans ?_
      rw [hstep, List.forall_mem_cons, and_assoc]

theorem established_eCtx (env : TlsEnv κ ρ) (key : Bytes) (t : TlsTunnel κ ρ) (status : ℤ)
    {r : TlsTunnel κ ρ × List Sent} (h : tlsCliOnConnectionEstablished env key t status = some r) :
    r.1.eCtx = t.eCtx := by
  unfold tlsCliOnConnectionEstablished at h
  split at h
  · cases h
    rfl
  · split at h
    · cases h
      rfl
    · split at h
      case h_1 =>
        split at h
        · cases h
          rfl
        · cases h
      case h_2 =>
        dsimp only at h
        split at h
        · cases h
          rfl
        · cases h

/-- What a tunnel for UDP encrypts when data arrive. -/
theorem dataReceived_fits_iff (hcfg : cfg.preEncrypt = none) {t : TlsTunnel (Recorded κ π) ρ}
    {d : UdpDataContext} (hd : t.udpDataCtx = some d) (hfits : t.eCtx.Fits) (status : ℤ) (data : Bytes) :
    (tlsCliOnDataReceived (recordTls cfg env.toTlsEnv) t status data).1.eCtx.Fits ↔
      (UpgradeAccepted env.toTlsEnv t status data →
        ∀ p ∈ d.sendDeque.toList, p.length ≤ CHUNK_SIZE_MASK) := by
  unfold tlsCliOnDataReceived
  split_ifs with hterm hstatus
  · exact iff_of_true hfits fun h => absurd h.alive (by rw [hterm]; nofun)
  · exact iff_of_true hfits fun h => absurd h.ok (by omega)
  · cases hstage : t.stage with
    | tlsConnecting =>
        exact iff_of_true hfits fun h => absurd h.upgrading (by rw [hstage]; nofun)
    | tlsStreaming =>
        obtain ⟨hctx, -⟩ := onStreamingData_tunnel (recordTls cfg env.toTlsEnv) t data
        refine iff_of_true ?_ fun h => absurd h.upgrading (by rw [hstage]; nofun)
        dsimp only
        rw [hctx]
        exact hfits
    | tlsWebsocketUpgrade =>
        dsimp only
        unfold onUpgradeResponse
        split_ifs with hrefused
        · refine iff_of_true hfits fun h => ?_
          rcases hrefused with hstat | hnone | hkey | hlen | hval
          · exact absurd h.switching hstat
          · exact absurd (h.accept.symm.trans hnone) h.key
          · exact absurd hkey h.key
          · exact absurd h.whole hlen
          · exact absurd h.accept hval
        · simp only [Rejected, not_or, ne_eq, not_not] at hrefused
          obtain ⟨hstat, -, hkey, hlen, hval⟩ := hrefused
          have haccept : UpgradeAccepted env.toTlsEnv t status data :=
            ⟨by simpa using hterm, by omega, hstage, hstat, hval, hkey, hlen⟩
          obtain ⟨hstate, -⟩ := drainSendDeque_spec (recordTls cfg env.toTlsEnv) t.masks
            (t.eCtx, t.framesSent) d.sendDeque (Nat.lt_add_one _)
          rw [imp_iff_right haccept, hd]
          dsimp only
          rw [hstate]
          exact (run_sealFrame_fits_iff hcfg t.masks _ _).trans (and_iff_right hfits)

theorem take_fits_iff (hcfg : cfg.preEncrypt = none) {u : UdpTunnel α (Recorded κ π) ρ}
    (h : u.tunnel.eCtx.Fits) (payload : Bytes) :
    (u.take (recordUdp cfg x env) payload).tunnel.eCtx.Fits ↔
      (u.tunnel.stage = .tlsStreaming → payload.length ≤ CHUNK_SIZE_MASK) := by
  unfold UdpTunnel.take
  split_ifs with hstage
  · rw [imp_iff_right hstage]
    exact (encryptAndSend_fits_iff hcfg u.tunnel payload).trans (and_iff_right h)
  · exact iff_of_true h fun hc => absurd hc hstage

theorem follows_udp {t t' : TlsTunnel κ ρ} (h : t.Follows t') (hudp : t.udpDataCtx ≠ none) :
    t'.udpDataCtx ≠ none := by
  intro hnone
  have htarget := h.target
  unfold TlsTunnel.target at htarget
  rw [hnone, Option.map_none, eq_comm, Option.map_eq_none_iff] at htarget
  exact hudp htarget

theorem AllUdp.modify {c : UdpClient α (Recorded κ π) ρ} (h : AllUdp c) (i : ℕ)
    {f : UdpTunnel α (Recorded κ π) ρ → UdpTunnel α (Recorded κ π) ρ}
    (hf : ∀ u : UdpTunnel α (Recorded κ π) ρ, u.tunnel.Follows (f u).tunnel) :
    AllUdp { c with tunnels := c.tunnels.modify i f } := by
  refine (forall_mem_modify h).2 fun u hu => ?_
  exact follows_udp (hf u) (h u (List.mem_of_getElem? hu))

variable [DecidableEq α]

/-- The payloads that the event has encrypted are small enough: that of a datagram for a tunnel that
streams, and when an upgrade is accepted those that wait in the queue. -/
def Sized (env : UdpEnv κ ρ) (c : UdpClient α (Recorded κ π) ρ) : UdpEvent α → Prop
  | .recvData src target payload => ∀ i u,
      c.tunnels.findIdx? (fun u => u.inSet && u.serves src target) = some i → c.tunnels[i]? = some u →
      u.tunnel.stage = .tlsStreaming → payload.length ≤ CHUNK_SIZE_MASK
  | .dataReceived i status data => ∀ u d, c.tunnels[i]? = some u → u.tunnel.udpDataCtx = some d →
      UpgradeAccepted env.toTlsEnv u.tunnel status data →
      ∀ p ∈ d.sendDeque.toList, p.length ≤ CHUNK_SIZE_MASK
  | _ => True

/-- No plaintext loses the process here. -/
theorem udpStep_record (c : UdpClient α (Recorded κ π) ρ) (e : UdpEvent α) :
    udpStep (recordUdp cfg x env) c e = udpCallback (recordUdp cfg x env) c e := by
  have htakes : ∀ buf, (recordUdp cfg x env).Takes buf := fun _ => nofun
  refine if_pos ?_
  cases e with
  | recvData src target payload => exact fun _ _ _ _ _ => htakes _
  | dataReceived i status data => exact fun _ _ _ _ => htakes _
  | established i key status => trivial
  | shutdown i => trivial
  | destroyed i => trivial

theorem udpStep_allUdp {c : UdpClient α (Recorded κ π) ρ} (h : AllUdp c) (e : UdpEvent α) :
    AllUdp (udpStep (recordUdp cfg x env) c e) := by
  rw [udpStep_record]
  cases e with
  | recvData src target payload =>
      unfold udpCallback udpOnRecvData
      dsimp only
      split_ifs
      · exact h
      · split
        · exact h
        · split
          · exact h.modify _ fun u => (take_follows (recordUdp cfg x env) u _).2.2
          · intro u hu
            rcases List.mem_append.1 hu with hold | hnew
            · exact h u hold
            · rw [List.mem_singleton] at hnew
              subst hnew
              exact Option.some_ne_none _
  | established i key status =>
      unfold udpCallback
      dsimp only
      cases hget : c.tunnels[i]? with
      | none => exact h
      | some u =>
          dsimp only
          cases hr : tlsCliOnConnectionEstablished (recordUdp cfg x env).toTlsEnv key u.tunnel status with
          | none => exact h
          | some r =>
              refine (forall_mem_modify h).2 fun v hv => ?_
              obtain rfl : u = v := Option.some.inj (hget.symm.trans hv)
              exact follows_udp (established_follows _ key u.tunnel status hr)
                (h u (List.mem_of_getElem? hget))
  | dataReceived i status data => exact h.modify i fun u => dataReceived_follows (recordUdp cfg x env).toTlsEnv u.tunnel status data
  | shutdown i => exact h.modify i fun u => shutdown_follows u.tunnel
  | destroyed i => exact h.modify i fun u => ⟨rfl, id⟩

/-- One callback on the client. -/
theorem udpStep_fits_iff (hcfg : cfg.preEncrypt = none) {c : UdpClient α (Recorded κ π) ρ}
    (hudp : AllUdp c) {e : UdpEvent α} (hocc : UdpOccurs c e) (h : UdpFits c) :
    UdpFits (udpStep (recordUdp cfg x env) c e) ↔ Sized env c e := by
  cases e with
  | recvData src target payload =>
      by_cases hlen : (udpDatagram target payload).length < 10
      · rw [udpStep_short _ _ _ hlen]
        refine iff_of_true h fun i u _ _ _ => ?_
        rw [udpDatagram_length hocc.1] at hlen
        exact Nat.le_trans (by omega : payload.length ≤ 10) (by decide)
      · rw [udpStep_record, udpCallback, udpOnRecvData, parse_udpDatagram hocc.1 (Nat.not_lt.1 hlen)]
        dsimp only
        rw [if_neg (not_not.2 rfl)]
        unfold Sized
        cases hfind : c.tunnels.findIdx? (fun u => u.inSet && u.serves src target) with
        -- a new tunnel encrypts nothing yet
        | none =>
            dsimp only
            refine iff_of_true ?_ fun i u hi => absurd (hfind.symm.trans hi) (by simp)
            intro u hu
            rcases List.mem_append.1 hu with hold | hnew
            · exact h u hold
            · rw [List.mem_singleton] at hnew
              subst hnew
              intro d hd
              cases hd
        -- a tunnel that streams encrypts the payload at once
        | some i =>
            dsimp only
            refine (forall_mem_modify h).trans ?_
            constructor
            · intro hall j u hj hu
              obtain rfl := Option.some.inj (hfind.symm.trans hj)
              exact (take_fits_iff hcfg (h u (List.mem_of_getElem? hu)) payload).1 (hall u hu)
            · intro hall u hu
              exact (take_fits_iff hcfg (h u (List.mem_of_getElem? hu)) payload).2 (hall i u hfind hu)
  | established i key status =>
      refine iff_of_true ?_ trivial
      rw [udpStep_record, udpCallback]
      cases hget : c.tunnels[i]? with
      | none => exact h
      | some u =>
          dsimp only
          cases hr : tlsCliOnConnectionEstablished (recordUdp cfg x env).toTlsEnv key u.tunnel status with
          | none => exact h
          | some r =>
              refine (forall_mem_modify h).2 fun v hv => ?_
              have hctx := established_eCtx _ key u.tunnel status hr
              have hfits := h u (List.mem_of_getElem? hget)
              rw [← hctx] at hfits
              exact hfits
  -- an accepted upgrade encrypts all that has queued up
  | dataReceived i status data =>
      rw [udpStep_record, udpCallback]
      refine (forall_mem_modify h).trans ?_
      constructor
      · intro hall u d hu hd
        exact (dataReceived_fits_iff hcfg hd (h u (List.mem_of_getElem? hu)) status data).1 (hall u hu)
      · intro hall u hu
        obtain ⟨d, hd⟩ := Option.ne_none_iff_exists'.1 (hudp u (List.mem_of_getElem? hu))
        exact (dataReceived_fits_iff hcfg hd (h u (List.mem_of_getElem? hu)) status data).2
          (hall u d hu hd)
  | shutdown i =>
      exact iff_of_true ((forall_mem_modify h).2 fun u hu => h u (List.mem_of_getElem? hu)) trivial
  | destroyed i =>
      exact iff_of_true ((forall_mem_modify h).2 fun u hu => h u (List.mem_of_getElem? hu)) trivial

/-- Over every run of the client. -/
theorem client_udp_fits_iff (hcfg : cfg.preEncrypt = none) {es : List (UdpEvent α)}
    (hocc : Legal UdpOccurs (udpStep (recordUdp cfg x env)) freshUdpClient es) :
    (∀ es', es' <+: es → UdpFits (es'.foldl (udpStep (recordUdp cfg x env)) freshUdpClient)) ↔
      Legal (Sized env) (udpStep (recordUdp cfg x env)) freshUdpClient es :=
  forall_prefix_iff (fun _ e h _ => udpStep_allUdp h e)
    (fun _ _ hudp hok h => udpStep_fits_iff hcfg hudp hok h) (fun _ hu => absurd hu List.not_mem_nil)
    (fun _ hu => absurd hu List.not_mem_nil) hocc

end ClientUdp
/-! ## The server -/

section ServerSide

open Server (ServerCtx ReadSizes)

variable {κ π : Type*} {cfg : Config π} {x : π}

/-- The cipher of the server with its plaintexts; without a protocol nothing is confirmed, so no call of
`tunnel_cipher_server_decrypt` encrypts. -/
def recordServer (cfg : Config π) (x : π) (env : Server.Env κ) : Server.Env (Recorded κ π) where
  cipher := {
    create := ⟨env.cipher.create, x, []⟩
    decrypt := fun s buf =>
      ({ s with cipher := (env.cipher.decrypt s.cipher buf).1 }, (env.cipher.decrypt s.cipher buf).2)
    encrypt := record cfg env.cipher.encrypt }
  addressCached := env.addressCached
  connectAccepted := env.connectAccepted
  overTlsEnable := env.overTlsEnable
  upgradeRequest := env.upgradeRequest
  wsNormalResponse := env.wsNormalResponse
  extractDataFromAssembledWebsocketFrame s buf :=
    ({ s with cipher := (env.extractDataFromAssembledWebsocketFrame s.cipher buf).1 },
      (env.extractDataFromAssembledWebsocketFrame s.cipher buf).2)
  buildWebsocketFrameFromRaw := record cfg env.buildWebsocketFrameFromRaw

/-- What happens to a tunnel of the server; over TLS the target can be a UDP host. -/
inductive ServerEvent where
  | tunnel (e : Event)
  | udpArrived (data : Bytes)

/-- `udp_remote_on_data_arrived`. -/
def udpRemoteOnDataArrived (env : Server.Env κ) (t : TunnelCtx (ServerCtx κ)) (data : Bytes) :
    TunnelCtx (ServerCtx κ) :=
  let r := env.buildWebsocketFrameFromRaw t.data.cipher data
  Server.write (Server.setCipher t r.1) .incoming r.2

def serverStep (env : Server.Env κ) (t : TunnelCtx (ServerCtx κ)) : ServerEvent → TunnelCtx (ServerCtx κ)
  | .tunnel e => step (Server.handlers env) t e
  | .udpArrived data => udpRemoteOnDataArrived env t data

/-- A read of the server: from the target no more than `tunnel_get_alloc_size` has asked for. -/
def ServerRead (overTlsEnable : Bool) : Side → Bytes → Prop
  | .incoming, _ => True
  | .outgoing, buf => ∃ s peeked suggestedSize, ReadSizes.Reading overTlsEnable s ∧
      buf.length ≤ (s.outgoingAllocSize overTlsEnable peeked suggestedSize).2

theorem ServerRead.length_le {overTlsEnable : Bool} {buf : Bytes}
    (h : ServerRead overTlsEnable .outgoing buf) : buf.length ≤ CHUNK_SIZE_MASK := by
  obtain ⟨s, peeked, suggestedSize, hs, hle⟩ := h
  have hbound := (hs.bounded.outgoingAllocSize overTlsEnable peeked suggestedSize).2
  exact Nat.le_trans hle (Nat.le_trans hbound (by decide))

/-! ### Handlers that do not encrypt -/

variable {env : Server.Env κ}

@[simp] theorem server_setStage_cipher (t : TunnelCtx (ServerCtx κ)) (stage : Server.Stage) :
    (Server.setStage t stage).data.cipher = t.data.cipher := rfl

@[simp] theorem server_setPkg_cipher (t : TunnelCtx (ServerCtx κ)) (pkg : Bytes) :
    (Server.setPkg t pkg).data.cipher = t.data.cipher := rfl

@[simp] theorem server_setCipher_cipher (t : TunnelCtx (ServerCtx κ)) (cipher : κ) :
    (Server.setCipher t cipher).data.cipher = cipher := rfl

@[simp] theorem server_write_data (t : TunnelCtx (ServerCtx κ)) (side : Side) (data : Bytes) :
    (Server.write t side data).data = t.data := tunnelSocketCtxWrite_data _ t side data

@[simp] theorem server_checkStopped_data (t : TunnelCtx (ServerCtx κ)) :
    (Server.checkStopped t).data = t.data := check_data t _

@[simp] theorem doConnectHostStart_cipher (t : TunnelCtx (ServerCtx κ)) :
    (Server.doConnectHostStart env t).data.cipher = t.data.cipher := by
  unfold Server.doConnectHostStart
  dsimp only
  split_ifs
  · simp
  · simp

@[simp] theorem doParse_cipher (t : TunnelCtx (ServerCtx κ)) :
    (Server.doParse env t).data.cipher = t.data.cipher := by
  unfold Server.doParse
  dsimp only
  split
  · simp
  · split_ifs
    · simp
    · simp

@[simp] theorem doPrepareParse_cipher (t : TunnelCtx (ServerCtx κ)) :
    (Server.doPrepareParse env t).data.cipher = t.data.cipher := by
  unfold Server.doPrepareParse
  dsimp only
  split_ifs
  · simp
  · simp
  · simp

@[simp] theorem doResolveHostDone_cipher (t : TunnelCtx (ServerCtx κ)) :
    (Server.doResolveHostDone env t).data.cipher = t.data.cipher := by
  unfold Server.doResolveHostDone
  dsimp only
  split_ifs
  · simp
  · simp

@[simp] theorem doNormalResponse_cipher (t : TunnelCtx (ServerCtx κ)) (buf : Bytes) :
    (Server.doNormalResponse env t buf).data.cipher = t.data.cipher := by
  simp [Server.doNormalResponse]

@[simp] theorem doTlsLaunchStreaming_cipher (t : TunnelCtx (ServerCtx κ)) :
    (Server.doTlsLaunchStreaming t).data.cipher = t.data.cipher := by
  unfold Server.doTlsLaunchStreaming
  dsimp only
  split_ifs
  · simp
  · simp

@[simp] theorem server_doLaunchStreaming_cipher (t : TunnelCtx (ServerCtx κ)) :
    (Server.doLaunchStreaming t).data.cipher = t.data.cipher := by
  unfold Server.doLaunchStreaming
  dsimp only
  split_ifs
  · simp
  · simp

@[simp] theorem doConnectHostDone_cipher (t : TunnelCtx (ServerCtx κ)) :
    (Server.doConnectHostDone env t).data.cipher = t.data.cipher := by
  unfold Server.doConnectHostDone
  dsimp only
  split_ifs
  · simp [Server.doTlsClientFeedback]
  · simp
  · simp
  · simp

/-! ### The dispatcher -/

variable {t : TunnelCtx (ServerCtx (Recorded κ π))}

theorem initPackage_fits (buf : Bytes) (h : t.data.cipher.Fits) :
    (Server.doInitPackage (recordServer cfg x env) t buf).data.cipher.Fits := by
  have hcipher : ((recordServer cfg x env).cipher.decrypt (recordServer cfg x env).cipher.create buf).1.Fits :=
    nofun
  unfold Server.doInitPackage
  dsimp only
  split_ifs
  · simpa using h
  · split
    · simpa using hcipher
    · split
      · simpa using hcipher
      · split
        · simpa using hcipher
        · simpa using hcipher

theorem handleClientFeedback_fits (buf : Bytes) (h : t.data.cipher.Fits) :
    (Server.doHandleClientFeedback (recordServer cfg x env) t buf).data.cipher.Fits := by
  have hcipher : ((recordServer cfg x env).cipher.decrypt t.data.cipher buf).1.Fits := h
  unfold Server.doHandleClientFeedback
  dsimp only
  split_ifs
  · simpa using h
  · simpa using hcipher
  · split
    · simpa using hcipher
    · simpa using hcipher

theorem tlsInitPackage_fits (buf : Bytes) (h : t.data.cipher.Fits) :
    (Server.doTlsInitPackage (recordServer cfg x env) t buf).data.cipher.Fits := by
  have hcipher : (recordServer cfg x env).cipher.create.Fits := nofun
  unfold Server.doTlsInitPackage
  dsimp only
  split_ifs
  · simpa using h
  · split
    · simpa using hcipher
    · split_ifs
      · simpa using hcipher
      · simpa using hcipher

/-- What was read from the target is encrypted, what the client sent is decrypted. -/
theorem extractData_fits (hcfg : cfg.preEncrypt = none) (side : Side) {buf : Bytes}
    (hbuf : side = .outgoing → buf.length ≤ CHUNK_SIZE_MASK) (h : t.data.cipher.Fits) :
    (Server.tunnelExtractData (recordServer cfg x env) t side buf).1.data.cipher.Fits := by
  unfold Server.tunnelExtractData
  cases side with
  | outgoing =>
      dsimp only
      split_ifs
      · exact (record_fits_iff hcfg _ _ _).2 ⟨h, hbuf rfl⟩
      · exact (record_fits_iff hcfg _ _ _).2 ⟨h, hbuf rfl⟩
  | incoming =>
      have hcipher : ((recordServer cfg x env).cipher.decrypt t.data.cipher buf).1.Fits := h
      dsimp only
      split_ifs
      · exact h
      · simpa using hcipher

theorem serverStreaming_fits (hcfg : cfg.preEncrypt = none) (side : Side) {buf : Bytes}
    (hbuf : side = .outgoing → buf.length ≤ CHUNK_SIZE_MASK) (h : t.data.cipher.Fits) :
    (Server.tunnelServerStreaming (recordServer cfg x env) t side buf).data.cipher.Fits := by
  unfold Server.tunnelServerStreaming
  extract_lets u v s r
  have hv : v.data.cipher.Fits := by simpa [v, u] using h
  have hr : r.1.data.cipher.Fits := by
    refine extractData_fits hcfg side hbuf ?_
    simpa using hv
  split_ifs
  · simpa using hv
  · cases r.2 with
    | none => simpa using hr
    | some out => simpa using hr
  · simpa using hv

theorem dispatcher_fits (hcfg : cfg.preEncrypt = none) (side : Side) {buf : Bytes}
    (hbuf : side = .outgoing → buf.length ≤ CHUNK_SIZE_MASK) (h : t.data.cipher.Fits) :
    (Server.tunnelDispatcher (recordServer cfg x env) t side buf).data.cipher.Fits := by
  unfold Server.tunnelDispatcher
  cases t.data.stage with
  | initial =>
      dsimp only
      split_ifs
      · exact tlsInitPackage_fits buf (by simpa using h)
      · exact initPackage_fits buf (by simpa using h)
  | clientFeedbackComing => exact handleClientFeedback_fits buf (by simpa using h)
  | streaming => exact serverStreaming_fits hcfg side hbuf h
  | obfsReceiptDone => simpa using h
  | protocolConfirmDone => simpa using h
  | resolveHost => simpa using h
  | connectHost => simpa using h
  | launchStreaming => simpa using h
  | tlsClientFeedback => simpa using h
  | normalResponse => simpa using h

theorem keeps_fits (hcfg : cfg.preEncrypt = none) :
    Keeps (Server.handlers (recordServer cfg x env)) (fun d => d.cipher.Fits)
      (ServerRead env.overTlsEnable) where
  readDone t side buf hbuf h := by
    refine dispatcher_fits hcfg side ?_ h
    rintro rfl
    exact hbuf.length_le
  writeDone t side h := by
    simp only [Server.handlers, Server.tunnelWriteDone]
    split_ifs
    · simpa using h
    · exact dispatcher_fits hcfg side (fun _ => Nat.zero_le _) h
  connectedDone _ side h := dispatcher_fits hcfg side (fun _ => Nat.zero_le _) h
  getaddrinfoDone _ side h := dispatcher_fits hcfg side (fun _ => Nat.zero_le _) h
  timeoutDone _ _ h := h
  endOfFile t side h := by
    simp only [Server.handlers, Server.tunnelArriveEndOfFile]
    cases side with
    | incoming => simpa using h
    | outgoing =>
        dsimp only
        split_ifs
        · simpa using h
        · simpa using h

/-! ### Runs -/

/-- An event of the server that can happen: only what a buffer holds is read. -/
def ServerOccurs (overTlsEnable : Bool) (_ : TunnelCtx (ServerCtx κ)) : ServerEvent → Prop
  | .tunnel e => ReadFits (ServerRead overTlsEnable) e
  | .udpArrived _ => True

/-- A datagram of the target is small enough. -/
def SmallDatagram : ServerEvent → Prop
  | .tunnel _ => True
  | .udpArrived data => data.length ≤ CHUNK_SIZE_MASK

theorem serverStep_fits_iff (hcfg : cfg.preEncrypt = none) {e : ServerEvent}
    (hocc : ServerOccurs env.overTlsEnable t e) (h : t.data.cipher.Fits) :
    (serverStep (recordServer cfg x env) t e).data.cipher.Fits ↔ SmallDatagram e := by
  cases e with
  | tunnel e => exact iff_of_true ((keeps_fits hcfg).step h hocc) trivial
  | udpArrived data =>
      have hrecord := record_fits_iff hcfg env.buildWebsocketFrameFromRaw t.data.cipher data
      simp only [serverStep, udpRemoteOnDataArrived, server_write_data, server_setCipher_cipher]
      exact hrecord.trans (and_iff_right h)

variable (x env) in
/-- Over every run of a tunnel of the server. -/
theorem server_fits_iff (hcfg : cfg.preEncrypt = none) (h : t.data.cipher.plaintexts = [])
    {es : List ServerEvent}
    (hocc : Legal (ServerOccurs env.overTlsEnable) (serverStep (recordServer cfg x env)) t es) :
    (∀ es', es' <+: es → (es'.foldl (serverStep (recordServer cfg x env)) t).data.cipher.Fits) ↔
      ∀ e ∈ es, SmallDatagram e := by
  have hstart : t.data.cipher.Fits := by
    unfold Recorded.Fits
    rw [h]
    exact nofun
  have hiff := forall_prefix_iff (I := fun _ => True)
    (P := fun t : TunnelCtx (ServerCtx (Recorded κ π)) => t.data.cipher.Fits) (fun _ _ _ _ => trivial)
    (fun _ _ _ hok hs => serverStep_fits_iff hcfg hok hs) trivial hstart hocc
  exact hiff.trans legal_forall_iff

end ServerSide

/-! ## All calls -/

/-- Runs of the four kinds of tunnels: of the client over TCP, over TLS and for UDP, and of the server. -/
structure Runs (α κ π ρ : Type*) where
  env : Client.Env κ
  tunnel : TunnelCtx (ClientCtx (Recorded κ π))
  target : Socks5Address
  events : List Event
  tlsEnv : TlsEnv κ ρ
  tlsTunnel : TlsTunnel (Recorded κ π) ρ
  tlsEvents : List TlsEvent
  udpEnv : UdpEnv κ ρ
  udpEvents : List (UdpEvent α)
  serverEnv : Server.Env κ
  serverTunnel : TunnelCtx (Server.ServerCtx (Recorded κ π))
  serverEvents : List ServerEvent

namespace Runs

variable {α κ π ρ : Type*} [DecidableEq α] (cfg : Config π) (x : π) (r : Runs α κ π ρ)

/-- The tunnels are new, and what happens to them can happen: no read is larger than its buffer. -/
structure Occur : Prop where
  first : FirstPkg r.tunnel.data.firstClientPkg
  target : r.target.WellFormed
  reads : ∀ e ∈ r.events, ReadFits ClientRead e
  tlsFirst : FirstPkg r.tlsTunnel.firstClientPkg
  tlsTcp : r.tlsTunnel.udpDataCtx = none
  tlsNew : r.tlsTunnel.eCtx.plaintexts = []
  tlsReads : ∀ e ∈ r.tlsEvents, ∀ buf, e = .read buf → ClientRead .incoming buf
  udp : Legal UdpOccurs (udpStep (recordUdp cfg x r.udpEnv)) freshUdpClient r.udpEvents
  serverNew : r.serverTunnel.data.cipher.plaintexts = []
  server : Legal (ServerOccurs r.serverEnv.overTlsEnable) (serverStep (recordServer cfg x r.serverEnv))
    r.serverTunnel r.serverEvents

/-- In no state of a run `aead_encrypt` has got a plaintext that is longer than a chunk. -/
structure Fit : Prop where
  tcp : ∀ es, es <+: r.events → (es.foldl (step (handlers (recordEnv cfg x r.env)))
    (doCommonConnetRemoteServer (recordEnv cfg x r.env) r.tunnel r.target.binary)).data.cipher.Fits
  tls : ∀ es, es <+: r.tlsEvents → (es.foldl (tlsStep (recordTls cfg r.tlsEnv)) r.tlsTunnel).eCtx.Fits
  udp : ∀ es, es <+: r.udpEvents →
    UdpFits (es.foldl (udpStep (recordUdp cfg x r.udpEnv)) freshUdpClient)
  server : ∀ es, es <+: r.serverEvents →
    (es.foldl (serverStep (recordServer cfg x r.serverEnv)) r.serverTunnel).data.cipher.Fits

/-- The datagrams that go through TLS are small enough when they are encrypted. -/
structure SmallDatagrams : Prop where
  client : Legal (Sized r.udpEnv) (udpStep (recordUdp cfg x r.udpEnv)) freshUdpClient r.udpEvents
  server : ∀ e ∈ r.serverEvents, SmallDatagram e

end Runs

section All

variable {α κ π ρ : Type*} [DecidableEq α]

end All

section Sample

def sampleConfig : Config Unit := ⟨true, true, none⟩

def sampleUdp : UdpEnv (Recorded Unit Unit) Unit :=
  recordUdp (configSsrotRevision sampleConfig) () sampleUdpEnv

/-- Two datagrams of one pair, the second of them while the tunnel connects. -/
def sampleUdpRun (payload : Bytes) : List (UdpEvent ℕ) :=
  [.recvData 7 sampleTarget [1, 2], .recvData 7 sampleTarget payload, .established 0 sampleKey 0,
    .dataReceived 0 0 (websocketConnectResponse sampleKey)]

/-- The tunnel with a payload in its queue. -/
def sampleWaiting (payload : Bytes) : UdpTunnel ℕ (Recorded Unit Unit) Unit :=
  let u := createUdpTunnel sampleUdp 0 7 sampleTarget [1, 2]
  { u with tunnel := u.tunnel.enqueue payload }

theorem sampleUdp_queued {payload : Bytes} (hne : payload ≠ []) :
    udpStep sampleUdp (udpStep sampleUdp freshUdpClient (.recvData 7 sampleTarget [1, 2]))
      (.recvData 7 sampleTarget payload) = ⟨[sampleWaiting payload], true⟩ := by
  have hfirst : udpStep sampleUdp freshUdpClient (.recvData 7 sampleTarget [1, 2]) =
      ⟨[createUdpTunnel sampleUdp 0 7 sampleTarget [1, 2]], true⟩ := rfl
  have hpos : 0 < payload.length := List.length_pos_of_ne_nil hne
  have hsize : sampleTarget.size = 7 := rfl
  have hlen := udpDatagram_length sampleTarget_wellFormed payload
  rw [hfirst, sampleUdp, udpStep_record, udpCallback, udpOnRecvData, parse_udpDatagram sampleTarget_wellFormed (by omega)]
  rfl

/-- The connection stands, and the payload still waits. -/
theorem sampleUdp_connected (payload : Bytes) :
    ∃ r d, udpStep sampleUdp ⟨[sampleWaiting payload], true⟩ (.established 0 sampleKey 0) =
        ⟨[(sampleWaiting payload).after r], true⟩ ∧
      r.1.stage = .tlsWebsocketUpgrade ∧ r.1.isTerminated = false ∧
      r.1.secWebsocketKey = sampleKey ∧ r.1.udpDataCtx = some d ∧ d.sendDeque.toList = [payload] := by
  have hestablished : ∃ r d,
      tlsCliOnConnectionEstablished sampleUdp.toTlsEnv sampleKey (sampleWaiting payload).tunnel 0 = some r ∧
      r.1.stage = .tlsWebsocketUpgrade ∧ r.1.isTerminated = false ∧
      r.1.secWebsocketKey = sampleKey ∧ r.1.udpDataCtx = some d ∧ d.sendDeque.toList = [payload] :=
    ⟨_, _, rfl, rfl, rfl, rfl, rfl, rfl⟩
  obtain ⟨r, d, hr, hrest⟩ := hestablished
  have hget : ([sampleWaiting payload] : List (UdpTunnel ℕ (Recorded Unit Unit) Unit))[0]? =
      some (sampleWaiting payload) := rfl
  refine ⟨r, d, ?_, hrest⟩
  rw [sampleUdp, udpStep_record, udpCallback, hget]
  dsimp only
  rw [← sampleUdp, hr]
  rfl

theorem sampleUdpRun_occurs {payload : Bytes} (hne : payload ≠ []) :
    Legal UdpOccurs (udpStep sampleUdp) freshUdpClient (sampleUdpRun payload) := by
  obtain ⟨r, d, hconnected, hstage, -⟩ := sampleUdp_connected payload
  refine ⟨⟨sampleTarget_wellFormed, by simp⟩, ⟨sampleTarget_wellFormed, hne⟩, ?_, ?_, trivial⟩
  · rw [sampleUdp_queued hne]
    intro u hu
    cases hu
    rfl
  · rw [sampleUdp_queued hne, hconnected]
    intro u hu
    cases hu
    rw [UdpTunnel.after, hstage]
    simp

/-- The upgrade is accepted while a payload waits that is too long. -/
theorem sampleUdpRun_not_sized {payload : Bytes} (hlong : CHUNK_SIZE_MASK < payload.length) :
    ¬ Legal (Sized sampleUdpEnv) (udpStep sampleUdp) freshUdpClient (sampleUdpRun payload) := by
  have hne : payload ≠ [] := List.ne_nil_of_length_pos (Nat.zero_lt_of_lt hlong)
  obtain ⟨r, d, hconnected, hstage, halive, hkey, hd, hqueue⟩ := sampleUdp_connected payload
  have hparse : sampleUdpEnv.httpHeadersParse = parseUpgrade (websocketConnectResponse sampleKey)
    (websocketGenerateSecWebsocketAccept sampleKey) := rfl
  have hresponse := parseUpgrade_append (websocketConnectResponse sampleKey)
    (websocketGenerateSecWebsocketAccept sampleKey) []
  rw [List.append_nil, ← hparse] at hresponse
  rintro ⟨-, -, -, hsized, -⟩
  rw [sampleUdp_queued hne, hconnected] at hsized
  have haccept : UpgradeAccepted sampleUdpEnv.toTlsEnv r.1 0 (websocketConnectResponse sampleKey) := by
    refine ⟨halive, Int.le_refl 0, hstage, ?_, ?_, ?_, ?_⟩
    · rw [hresponse]
    · rw [hresponse, hkey]
    · rw [hkey]
      nofun
    · rw [hresponse]
  have hle := hsized _ d rfl hd haccept payload (by rw [hqueue]; exact List.mem_cons_self)
  exact absurd hle (Nat.not_le.2 hlong)

def sampleServer : Server.Env Unit where
  cipher := ⟨(), fun _ buf => ((), ⟨some buf, none, none⟩), fun _ buf => ((), some buf)⟩
  addressCached _ := true
  connectAccepted := true
  overTlsEnable := true
  upgradeRequest _ := none
  wsNormalResponse _ := []
  extractDataFromAssembledWebsocketFrame _ buf := ((), buf)
  buildWebsocketFrameFromRaw _ buf := ((), buf)

def sampleRuns (payload : Bytes) : Runs ℕ Unit Unit Unit where
  env := ⟨⟨fun _ => (), fun _ => false, fun _ buf => ((), some buf), fun _ buf => ((), ⟨some buf, none⟩)⟩,
    true, true, true⟩
  tunnel := tunnelInitialize ⟨.kill, ⟨(), (), []⟩, [], [7, 8]⟩ true true
  target := sampleTarget
  events := [.connected .outgoing true, .read .incoming [9]]
  tlsEnv := sampleTlsEnv
  tlsTunnel := { sampleUpgrading with eCtx := ⟨(), (), []⟩ }
  tlsEvents := [.read [9]]
  udpEnv := sampleUdpEnv
  udpEvents := sampleUdpRun payload
  serverEnv := sampleServer
  serverTunnel := tunnelInitialize (Server.initData ⟨(), (), []⟩) true true
  serverEvents := [.udpArrived payload]

theorem sampleRuns_occur {payload : Bytes} (hne : payload ≠ []) :
    (sampleRuns payload).Occur (configSsrotRevision sampleConfig) () where
  first := .read (by decide : 2 ≤ SSR_BUFF_SIZE)
  target := sampleTarget_wellFormed
  reads := by
    rintro e he side buf rfl
    rcases List.mem_cons.1 he with hconnected | hread
    · cases hconnected
    · rw [List.mem_singleton] at hread
      cases hread
      exact (by decide : 1 ≤ SSR_BUFF_SIZE)
  tlsFirst := .read (by decide : sampleUpgrading.firstClientPkg.length ≤ SSR_BUFF_SIZE)
  tlsTcp := rfl
  tlsNew := rfl
  tlsReads := by
    rintro e he buf rfl
    rcases List.mem_singleton.1 he with ⟨⟩
    exact (by decide : 1 ≤ SSR_BUFF_SIZE)
  udp := sampleUdpRun_occurs hne
  serverNew := rfl
  server := ⟨trivial, trivial⟩

end Sample

end EncryptCalls
end SsrNative
