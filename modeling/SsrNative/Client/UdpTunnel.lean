import SsrNative.Client.TlsReceive

/-!
# UdpTunnel — a UDP tunnel over TLS

A UDP tunnel sends its first datagram in the upgrade request and every other one in a websocket frame
of its own.  What arrives before the upgrade waits in `send_deque`.  `Carries` says which payloads are
on the wire and which wait, and every callback that leaves the tunnel standing keeps it.
-/

namespace SsrNative
namespace Client

open Base64
open Bytes
open Lib.Segments

/-! ## Datagrams -/

/-- `s5_parse_upd_package`: the fragment number and, unless the package is refused, the target and the
payload. -/
def s5ParseUpdPackage (pkg : Bytes) : ℕ × Option (Socks5Address × Bytes) :=
  if pkg.length < 10 then (0, none)
  else if window pkg 0 2 ≠ [0, 0] then (0, none)
  else
    let fragNumber := (byteAt pkg 2).toNat
    match socks5AddressParse (pkg.drop 3) with
    | none => (fragNumber, none)
    | some dstAddr => (fragNumber, some (dstAddr, pkg.drop (3 + dstAddr.size)))

/-- An unfragmented datagram of a SOCKS5 client. -/
def udpDatagram (target : Socks5Address) (payload : Bytes) : Bytes :=
  [0, 0, 0] ++ (target.binary ++ payload)

theorem udpDatagram_length {target : Socks5Address} (h : target.WellFormed) (payload : Bytes) :
    (udpDatagram target payload).length = 3 + target.size + payload.length := by
  simp [udpDatagram, Socks5Address.binary_length h]
  omega

theorem parse_udpDatagram {target : Socks5Address} (h : target.WellFormed) {payload : Bytes}
    (hlen : 10 ≤ (udpDatagram target payload).length) :
    s5ParseUpdPackage (udpDatagram target payload) = (0, some (target, payload)) := by
  have hzero : window (udpDatagram target payload) 0 2 = [0, 0] := rfl
  have hfrag : (byteAt (udpDatagram target payload) 2).toNat = 0 := rfl
  have haddr : (udpDatagram target payload).drop 3 = target.binary ++ payload := rfl
  have hpayload : (udpDatagram target payload).drop (3 + target.size) = payload := by
    rw [← List.drop_drop, haddr, ← Socks5Address.binary_length h, List.drop_left]
  rw [s5ParseUpdPackage, if_neg (by omega), hzero, if_neg (by simp), haddr,
    Socks5Address.parse_binary h]
  dsimp only
  rw [hfrag, hpayload]

/-! ## The tunnel -/

/-- A tunnel for UDP in the tunnel set, with its source.  `sent` is what it has sent so far and
`created` the encryption context that it was created with; `inSet` goes when it is destroyed. -/
structure UdpTunnel (α σ ρ : Type*) where
  srcAddr : α
  tunnel : TlsTunnel σ ρ
  inSet : Bool
  created : σ
  sent : List Sent

/-- A cipher, and the masks that will be drawn, for every new tunnel. -/
structure UdpEnv (σ ρ : Type*) extends TlsEnv σ ρ where
  tunnelCipherCreate : ℕ → σ × ρ
  tunnelMasks : ℕ → ℕ → ℕ → UInt8

section Tunnel

variable {α σ ρ : Type*} (env : UdpEnv σ ρ)

/-- What a callback of the tunnel leaves and sends. -/
def UdpTunnel.after (u : UdpTunnel α σ ρ) (r : TlsTunnel σ ρ × List Sent) : UdpTunnel α σ ρ :=
  { u with tunnel := r.1, sent := u.sent ++ r.2 }

/-- A payload at the back of `send_deque`. -/
def TlsTunnel.enqueue (t : TlsTunnel σ ρ) (payload : Bytes) : TlsTunnel σ ρ :=
  { t with udpDataCtx := t.udpDataCtx.map fun d => { d with sendDeque := d.sendDeque.pushBack payload } }

/-- The tunnel that `udp_on_recv_data` makes, with `n` tunnels made before it. -/
def createUdpTunnel (n : ℕ) (src : α) (target : Socks5Address) (payload : Bytes) :
    UdpTunnel α σ ρ where
  srcAddr := src
  tunnel := {
    stage := .tlsConnecting
    isTerminated := false
    incomingResult := 0
    eCtx := (env.tunnelCipherCreate n).1
    dCtx := (env.tunnelCipherCreate n).2
    masks := env.tunnelMasks n
    framesSent := 0
    secWebsocketKey := []
    targetAddressPkg := []
    firstClientPkg := []
    serverDeliveryCache := []
    localWriteCache := []
    tlsIsEof := false
    udpDataCtx := some ⟨target, (Deque.new 10).pushBack payload, Deque.new 10⟩ }
  inSet := true
  created := (env.tunnelCipherCreate n).1
  sent := []

/-- A payload for a tunnel that exists: it is sent in the streaming stage, whether the tunnel is
terminated or not, and queued before. -/
def UdpTunnel.take (u : UdpTunnel α σ ρ) (payload : Bytes) : UdpTunnel α σ ρ :=
  if u.tunnel.stage = .tlsStreaming then u.after (encryptAndSend env.toTlsEnv u.tunnel payload)
  else { u with tunnel := u.tunnel.enqueue payload }

/-! ## What a callback of a tunnel changes -/

/-- The target of a tunnel, which no callback changes. -/
def TlsTunnel.target (t : TlsTunnel σ ρ) : Option Socks5Address := t.udpDataCtx.map UdpDataContext.targetAddr

theorem target_of_sendSide {t t' : TlsTunnel σ ρ} (h : t'.sendSide = t.sendSide) : t'.target = t.target := by
  have hlast := congrArg (fun q => q.2.2.2.2.2.map Prod.fst) h
  simp only [TlsTunnel.sendSide, Option.map_map] at hlast
  exact hlast

/-- The same target, and terminated once is terminated for good. -/
structure TlsTunnel.Follows (t t' : TlsTunnel σ ρ) : Prop where
  target : t'.target = t.target
  terminated : t.isTerminated = true → t'.isTerminated = true

theorem encryptAndSend_follows (env : TlsEnv σ ρ) (t : TlsTunnel σ ρ) (payload : Bytes) :
    t.Follows (encryptAndSend env t payload).1 := by
  unfold encryptAndSend
  split
  · exact ⟨rfl, id⟩
  · exact ⟨rfl, fun _ => rfl⟩

theorem enqueue_follows (t : TlsTunnel σ ρ) (payload : Bytes) : t.Follows (t.enqueue payload) := by
  refine ⟨?_, id⟩
  unfold TlsTunnel.enqueue TlsTunnel.target
  cases t.udpDataCtx <;> rfl

theorem shutdown_follows (t : TlsTunnel σ ρ) : t.Follows t.shutdown := ⟨rfl, fun _ => rfl⟩

theorem established_follows (env : TlsEnv σ ρ) (key : Bytes) (t : TlsTunnel σ ρ) (status : ℤ)
    {r : TlsTunnel σ ρ × List Sent} (h : tlsCliOnConnectionEstablished env key t status = some r) :
    t.Follows r.1 := by
  unfold tlsCliOnConnectionEstablished at h
  split at h
  · cases h
    exact shutdown_follows t
  · split at h
    · cases h
      exact ⟨rfl, id⟩
    · split at h
      case h_1 =>
        split at h
        · cases h
          exact ⟨rfl, id⟩
        · cases h
      case h_2 d hd =>
        dsimp only at h
        split at h
        · cases h
          refine ⟨?_, id⟩
          unfold TlsTunnel.target
          rw [hd]
          rfl
        · cases h

theorem dataReceived_follows (env : TlsEnv σ ρ) (t : TlsTunnel σ ρ) (status : ℤ) (data : Bytes) :
    t.Follows (tlsCliOnDataReceived env t status data).1 := by
  unfold tlsCliOnDataReceived
  by_cases hterm : t.isTerminated = true
  · rw [if_pos hterm]
    exact ⟨rfl, id⟩
  · rw [if_neg hterm]
    split
    · exact shutdown_follows t
    · split
      · unfold onUpgradeResponse
        dsimp only
        split
        · exact shutdown_follows t
        · split
          case h_1 d hd =>
            refine ⟨?_, fun h => absurd h hterm⟩
            unfold TlsTunnel.target
            rw [hd]
            rfl
          case h_2 =>
            unfold tunnelTlsDoLaunchStreaming
            split
            · exact shutdown_follows t
            · have hsend := encryptAndSend_follows env { t with firstClientPkg := [] } t.firstClientPkg
              dsimp only
              split
              · exact ⟨hsend.target, hsend.terminated⟩
              · exact ⟨hsend.target, fun h => absurd h hterm⟩
      · exact ⟨target_of_sendSide (onStreamingData_sendSide env t data).1, fun h => absurd h hterm⟩
      · exact ⟨rfl, id⟩

/-! ## Connecting -/

theorem two_le_binary_length (a : Socks5Address) : 2 ≤ a.binary.length := by
  unfold Socks5Address.binary
  split <;> simp

variable {env}

/-- The encoder comes back with something exactly for two bytes and more. -/
theorem stdBase64EncodeAlloc_eq (src : Bytes) :
    (2 ≤ src.length ∧ stdBase64EncodeAlloc src = .out (Lib.Hash.base64 src)) ∨
      (src.length < 2 ∧ ∀ coded, stdBase64EncodeAlloc src ≠ .out coded) := by
  unfold stdBase64EncodeAlloc
  by_cases hzero : src.length = 0
  · rw [if_pos hzero]
    exact .inr ⟨by omega, fun _ h => by cases h⟩
  · rw [if_neg hzero]
    by_cases hone : src.length = 1
    · rw [if_pos hone]
      exact .inr ⟨by omega, fun _ h => by cases h⟩
    · rw [if_neg hone]
      exact .inl ⟨by omega, rfl⟩

/-- Only a payload that cannot be encoded loses the process. -/
theorem established_ne_none_iff (key : Bytes) {t : TlsTunnel σ ρ} {status : ℤ} {d : UdpDataContext}
    (hd : t.udpDataCtx = some d) :
    tlsCliOnConnectionEstablished env.toTlsEnv key t status ≠ none ↔
      (0 ≤ status → t.isTerminated = false →
        2 ≤ (d.sendDeque.front.getD t.targetAddressPkg).length) := by
  unfold tlsCliOnConnectionEstablished
  by_cases hstatus : status < 0
  · rw [if_pos hstatus]
    exact ⟨fun _ h => absurd h (by omega), fun _ => Option.some_ne_none _⟩
  · rw [if_neg hstatus]
    by_cases hterm : t.isTerminated = true
    · rw [if_pos hterm]
      exact ⟨fun _ _ h => absurd (hterm.symm.trans h) (by decide), fun _ => Option.some_ne_none _⟩
    · obtain ⟨field, hfield⟩ : ∃ field, udpFieldOf d.targetAddr = some field := by
        have hlen := two_le_binary_length d.targetAddr
        unfold udpFieldOf urlSafeBase64EncodeAlloc stdBase64EncodeAlloc
        rw [if_neg (by omega), if_neg (by omega)]
        exact ⟨_, rfl⟩
      rw [if_neg hterm, hd]
      dsimp only
      rw [hfield]
      rcases stdBase64EncodeAlloc_eq (d.sendDeque.front.getD t.targetAddressPkg) with
        ⟨hlen, hcoded⟩ | ⟨hlen, hcoded⟩
      · rw [hcoded]
        exact ⟨fun _ _ _ => hlen, fun _ => Option.some_ne_none _⟩
      · have hlive : t.isTerminated = false := by simpa using hterm
        refine ⟨fun h => ?_, fun h => absurd (h (by omega) hlive) (by omega)⟩
        generalize stdBase64EncodeAlloc (d.sendDeque.front.getD t.targetAddressPkg) = coded at hcoded h
        cases coded with
        | out coded => exact absurd rfl (hcoded coded)
        | error => exact absurd rfl h
        | crash => exact absurd rfl h

variable (env)

/-! ## What a tunnel carries -/

/-- What a tunnel has sent over TLS when it has sent these payloads. -/
def wire (env : UdpEnv σ ρ) (u : UdpTunnel α σ ρ) (target : Socks5Address) : List Bytes → List Bytes
  | [] => []
  | first :: others =>
      upgradeRequest env.toTlsEnv u.tunnel.secWebsocketKey (Lib.Hash.base64 first)
          ((udpFieldOf target).getD []) ::
        (run (sealFrame env.toTlsEnv u.tunnel.masks) (u.created, 0) others).2

/-- The payloads `out` are sent and the others are queued. -/
structure Carries (env : UdpEnv σ ρ) (u : UdpTunnel α σ ρ) (target : Socks5Address)
    (payloads out queue : List Bytes) : Prop where
  eq : payloads = out ++ queue
  ne_nil : payloads ≠ []
  queued : u.tunnel.udpDataCtx.map (fun d => (d.targetAddr, d.sendDeque.toList)) = some (target, queue)
  sent : u.sent.filterMap Sent.toTls = wire env u target out
  state : (u.tunnel.eCtx, u.tunnel.framesSent) =
    (run (sealFrame env.toTlsEnv u.tunnel.masks) (u.created, 0) out.tail).1
  connecting : u.tunnel.stage = .tlsConnecting → out = []
  upgrading : u.tunnel.stage ≠ .tlsConnecting → out ≠ []
  streaming : u.tunnel.stage = .tlsStreaming → queue = []

/-- Some of the payloads are on the wire, in their order, and the others wait in theirs. -/
def Carried (env : UdpEnv σ ρ) (u : UdpTunnel α σ ρ) (target : Socks5Address) (payloads : List Bytes) :
    Prop :=
  ∃ out queue, Carries env u target payloads out queue

variable {env}

theorem filterMap_toTls (bufs : List Bytes) : (bufs.map Sent.tls).filterMap Sent.toTls = bufs := by
  induction bufs with
  | nil => rfl
  | cons buf bufs ih => exact congrArg (buf :: ·) ih

theorem wire_append (u : UdpTunnel α σ ρ) (target : Socks5Address) {out : List Bytes} (h : out ≠ [])
    (more : List Bytes) :
    wire env u target (out ++ more) = wire env u target out ++
      (run (sealFrame env.toTlsEnv u.tunnel.masks)
        (run (sealFrame env.toTlsEnv u.tunnel.masks) (u.created, 0) out.tail).1 more).2 := by
  cases out with
  | nil => exact absurd rfl h
  | cons first others =>
      rw [List.cons_append, wire, wire, run_append, List.tail_cons, List.cons_append]

theorem run_tail_append (u : UdpTunnel α σ ρ) {out : List Bytes} (h : out ≠ []) (more : List Bytes) :
    (run (sealFrame env.toTlsEnv u.tunnel.masks) (u.created, 0) (out ++ more).tail).1 =
      (run (sealFrame env.toTlsEnv u.tunnel.masks)
        (run (sealFrame env.toTlsEnv u.tunnel.masks) (u.created, 0) out.tail).1 more).1 := by
  cases out with
  | nil => exact absurd rfl h
  | cons first others => rw [List.cons_append, List.tail_cons, List.tail_cons, run_append]

theorem carried_create (n : ℕ) (src : α) (target : Socks5Address) (payload : Bytes) :
    Carried env (createUdpTunnel env n src target payload) target [payload] := by
  refine ⟨[], [payload], rfl, List.cons_ne_nil _ _, ?_, rfl, rfl, fun _ => rfl, fun h => absurd rfl h,
    fun h => ?_⟩
  · simp [createUdpTunnel]
  · cases h

/-- Sent at once, or put at the end of the queue. -/
theorem Carried.take {u : UdpTunnel α σ ρ} {target : Socks5Address} {payloads : List Bytes}
    (h : Carried env u target payloads) (payload : Bytes)
    (hlive : (u.take env payload).tunnel.isTerminated = false) :
    Carried env (u.take env payload) target (payloads ++ [payload]) := by
  obtain ⟨out, queue, h⟩ := h
  unfold UdpTunnel.take at hlive ⊢
  by_cases hstage : u.tunnel.stage = .tlsStreaming
  · -- the third route: straight into a frame
    have hqueue := h.streaming hstage
    have hout := h.upgrading (by rw [hstage]; exact fun hc => by cases hc)
    rw [if_pos hstage] at hlive ⊢
    unfold encryptAndSend at hlive ⊢
    by_cases hok : (env.tunnelCipherClientEncrypt u.tunnel.eCtx payload).2.2 = true
    · rw [if_pos hok]
      subst hqueue
      have heq : payloads = out := by rw [h.eq, List.append_nil]
      refine ⟨out ++ [payload], [], ?_, by simp, h.queued, ?_, ?_, ?_, by simp, fun _ => rfl⟩
      · rw [List.append_nil, heq]
      · rw [UdpTunnel.after, List.filterMap_append, h.sent]
        exact ((congrArg (wire env u target out ++ ·) (by rw [← h.state]; rfl)).trans
          (wire_append u target hout [payload]).symm)
      · refine Eq.trans ?_ (run_tail_append u hout [payload]).symm
        rw [← h.state]
        rfl
      · intro hc
        exact absurd (hstage.symm.trans hc) (by decide)
    · rw [if_neg hok] at hlive
      cases hlive
  · rw [if_neg hstage]
    refine ⟨out, queue ++ [payload], ?_, by simp, ?_, h.sent, h.state, h.connecting, h.upgrading,
      fun hc => absurd hc hstage⟩
    · rw [h.eq, List.append_assoc]
    · have hqueued := h.queued
      unfold TlsTunnel.enqueue
      cases hd : u.tunnel.udpDataCtx with
      | none =>
          rw [hd] at hqueued
          cases hqueued
      | some d =>
          rw [hd] at hqueued
          have hpair := Option.some.inj hqueued
          simp only [Prod.mk.injEq] at hpair
          simp [hpair.1, hpair.2]

/-- The first payload goes into the upgrade request. -/
theorem Carried.established {u : UdpTunnel α σ ρ} {target : Socks5Address} {payloads : List Bytes}
    (h : Carried env u target payloads) (hstage : u.tunnel.stage = .tlsConnecting) {key : Bytes}
    {status : ℤ} {r : TlsTunnel σ ρ × List Sent}
    (hr : tlsCliOnConnectionEstablished env.toTlsEnv key u.tunnel status = some r)
    (hlive : r.1.isTerminated = false) : Carried env (u.after r) target payloads := by
  obtain ⟨out, queue, h⟩ := h
  have hout := h.connecting hstage
  subst hout
  unfold tlsCliOnConnectionEstablished at hr
  split at hr
  · cases hr
    cases hlive
  · split at hr
    case isTrue hterm =>
      cases hr
      rw [hterm] at hlive
      cases hlive
    case isFalse =>
      have hqueued := h.queued
      split at hr
      case h_1 hd =>
        rw [hd] at hqueued
        cases hqueued
      case h_2 d hd =>
        rw [hd] at hqueued
        have hpair := Option.some.inj hqueued
        simp only [Prod.mk.injEq] at hpair
        obtain ⟨rfl, hqueue⟩ := hpair
        -- the queue holds the payload that created the tunnel, so it has a front
        cases hfront : d.sendDeque.front with
        | none =>
            have hnil := d.sendDeque.front_eq_none_iff.1 hfront
            exact absurd (h.eq.trans (by rw [← hqueue, hnil]; rfl)) h.ne_nil
        | some first =>
            have hcons := d.sendDeque.toList_cons hfront
            rw [hfront] at hr
            simp only [Option.getD_some, reduceCtorEq, if_false] at hr
            split at hr
            case h_1 b64addr udpField hb64 hfield =>
              cases hr
              have hcoded := eq_base64_of_alloc hb64
              refine ⟨[first], d.sendDeque.popFront.toList, ?_, h.ne_nil, rfl, ?_, h.state, ?_, by simp, ?_⟩
              · rw [h.eq, ← hqueue, hcons]
                rfl
              · rw [UdpTunnel.after, List.filterMap_append, h.sent]
                simp only [wire, hfield, Option.getD_some, hcoded]
                rfl
              · intro hc
                cases hc
              · intro hc
                cases hc
            case h_2 => cases hr

/-- What the server sends while the tunnel streams changes nothing of what it has sent. -/
theorem Carried.streamingData {u : UdpTunnel α σ ρ} {target : Socks5Address} {payloads : List Bytes}
    (h : Carried env u target payloads) (hs : u.tunnel.stage = .tlsStreaming) (data : Bytes) :
    Carried env (u.after (onStreamingData env.toTlsEnv u.tunnel data)) target payloads := by
  have hstage : u.tunnel.stage ≠ .tlsConnecting := by
    rw [hs]
    nofun
  obtain ⟨out, queue, h⟩ := h
  have hout := h.upgrading hstage
  obtain ⟨hside, htls⟩ := onStreamingData_sendSide env.toTlsEnv u.tunnel data
  -- only the fields of the sending side matter
  generalize onStreamingData env.toTlsEnv u.tunnel data = r at hside htls
  obtain ⟨t, sent⟩ := r
  simp only [TlsTunnel.sendSide, Prod.mk.injEq] at hside
  obtain ⟨hst, hctx, hmasks, hframes, hkey, hudp⟩ := hside
  have hudp' := congrArg (Option.map fun p : Socks5Address × Deque Bytes => (p.1, p.2.toList)) hudp
  rw [Option.map_map, Option.map_map] at hudp'
  refine ⟨out, queue, h.eq, h.ne_nil, hudp'.trans h.queued, ?_, ?_, ?_, fun _ => hout, ?_⟩
  · rw [UdpTunnel.after, List.filterMap_append, h.sent, htls, List.append_nil]
    cases out with
    | nil => rfl
    | cons first others => simp only [wire, hkey, hmasks]
  · simp only [UdpTunnel.after, hctx, hframes, hmasks]
    exact h.state
  · intro hc
    exact absurd (hst.symm.trans hc) hstage
  · intro hc
    exact h.streaming hs

/-- An upgrade that is accepted sends the queue in frames, behind the payload of the request. -/
theorem Carried.upgradeResponse {u : UdpTunnel α σ ρ} {target : Socks5Address} {payloads : List Bytes}
    (h : Carried env u target payloads) (hstage : u.tunnel.stage ≠ .tlsConnecting) (data : Bytes)
    (hlive : (onUpgradeResponse env.toTlsEnv u.tunnel data).1.isTerminated = false) :
    Carried env (u.after (onUpgradeResponse env.toTlsEnv u.tunnel data)) target payloads := by
  obtain ⟨out, queue, h⟩ := h
  have hout := h.upgrading hstage
  have hqueued := h.queued
  unfold onUpgradeResponse at hlive ⊢
  dsimp only at hlive ⊢
  split at hlive
  · cases hlive
  case isFalse haccept =>
    rw [if_neg haccept]
    cases hd : u.tunnel.udpDataCtx with
    | none =>
        rw [hd] at hqueued
        cases hqueued
    | some d =>
        rw [hd] at hqueued
        have hpair := Option.some.inj hqueued
        simp only [Prod.mk.injEq] at hpair
        obtain ⟨rfl, hqueue⟩ := hpair
        have hspec := drainSendDeque_spec env.toTlsEnv u.tunnel.masks
          (u.tunnel.eCtx, u.tunnel.framesSent) d.sendDeque (Nat.lt_add_one _)
        dsimp only
        generalize drainSendDeque env.toTlsEnv u.tunnel.masks (d.sendDeque.count + 1)
          (u.tunnel.eCtx, u.tunnel.framesSent) d.sendDeque = r at hspec ⊢
        obtain ⟨hstate, hempty, hframes⟩ := hspec
        rw [hqueue, h.state] at hstate hframes
        refine ⟨out ++ queue, [], ?_, h.ne_nil, ?_, ?_, ?_, ?_, ?_, fun _ => rfl⟩
        · rw [List.append_nil, h.eq]
        · exact congrArg (fun q => some (d.targetAddr, q)) hempty
        · rw [UdpTunnel.after, List.filterMap_append, h.sent, filterMap_toTls, hframes]
          exact (wire_append u d.targetAddr hout queue).symm
        · refine Eq.trans ?_ (run_tail_append u hout queue).symm
          exact hstate
        · intro hc
          cases hc
        · intro _ hc
          exact hout (List.append_eq_nil_iff.1 hc).1

/-- The others follow in frames when the upgrade is accepted. -/
theorem Carried.dataReceived {u : UdpTunnel α σ ρ} {target : Socks5Address} {payloads : List Bytes}
    (h : Carried env u target payloads) (hstage : u.tunnel.stage ≠ .tlsConnecting) (status : ℤ)
    (data : Bytes)
    (hlive : (tlsCliOnDataReceived env.toTlsEnv u.tunnel status data).1.isTerminated = false) :
    Carried env (u.after (tlsCliOnDataReceived env.toTlsEnv u.tunnel status data)) target payloads := by
  unfold tlsCliOnDataReceived at hlive ⊢
  split at hlive
  case isTrue hterm =>
    rw [hterm] at hlive
    cases hlive
  case isFalse hterm =>
    rw [if_neg hterm]
    split at hlive
    · cases hlive
    case isFalse hstatus =>
      rw [if_neg hstatus]
      cases hs : u.tunnel.stage with
      | tlsConnecting => exact absurd hs hstage
      | tlsStreaming => exact h.streamingData hs data
      | tlsWebsocketUpgrade =>
          rw [hs] at hlive
          exact h.upgradeResponse hstage data hlive

/-- A tunnel has sent or queued as many payloads as it carries. -/
theorem Carried.length {u : UdpTunnel α σ ρ} {target : Socks5Address} {payloads : List Bytes}
    (h : Carried env u target payloads) :
    ∃ d, u.tunnel.udpDataCtx = some d ∧
      payloads.length = (u.sent.filterMap Sent.toTls).length + d.sendDeque.toList.length := by
  obtain ⟨out, queue, h⟩ := h
  have hwire : (wire env u target out).length = out.length := by
    cases out with
    | nil => rfl
    | cons first others => rw [wire, List.length_cons, run_snd_length, List.length_cons]
  have hqueued := h.queued
  cases hd : u.tunnel.udpDataCtx with
  | none =>
      rw [hd] at hqueued
      cases hqueued
  | some d =>
      rw [hd] at hqueued
      have hpair := Option.some.inj hqueued
      simp only [Prod.mk.injEq] at hpair
      exact ⟨d, rfl, by rw [h.eq, h.sent, hwire, hpair.2, List.length_append]⟩

theorem take_follows (env : UdpEnv σ ρ) (u : UdpTunnel α σ ρ) (payload : Bytes) :
    (u.take env payload).srcAddr = u.srcAddr ∧ (u.take env payload).inSet = u.inSet ∧
      u.tunnel.Follows (u.take env payload).tunnel := by
  unfold UdpTunnel.take
  split
  · exact ⟨rfl, rfl, encryptAndSend_follows _ _ _⟩
  · exact ⟨rfl, rfl, enqueue_follows _ _⟩

end Tunnel

end Client
end SsrNative
