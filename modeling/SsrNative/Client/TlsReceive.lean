import SsrNative.Client.TlsTunnel
import SsrNative.Lib.Delimited

/-!
# TlsReceive — the server's side of a tunnel over TLS

In the streaming stage the tunnel collects what arrives in `server_delivery_cache` and takes the
complete frames out of it, so that the cuts between reads do not matter.  In the upgrade stage it looks
at one read alone: a response that comes in two reads, or in one with the first frame, shuts the tunnel
down (`joined_shuts_down`).  When the first read is the response, every frame arrives
(`frames_arrive`).
-/

namespace SsrNative
namespace Client

open Base64
open Bytes
open Websocket
open Lib.Delimited
open Lib.Segments

section Receive

variable {σ ρ : Type*} (env : TlsEnv σ ρ)

/-! ## The queues -/

theorem drainSendDeque_spec (masks : ℕ → ℕ → UInt8) {fuel : ℕ} (s : σ × ℕ) (d : Deque Bytes)
    (hfuel : d.count < fuel) :
    (drainSendDeque env masks fuel s d).1 = (run (sealFrame env masks) s d.toList).1 ∧
      (drainSendDeque env masks fuel s d).2.1.toList = [] ∧
      (drainSendDeque env masks fuel s d).2.2 = (run (sealFrame env masks) s d.toList).2 := by
  induction fuel generalizing s d with
  | zero => omega
  | succ fuel ih =>
      rw [drainSendDeque]
      cases hfront : d.front with
      | none =>
          have hempty := d.front_eq_none_iff.1 hfront
          refine ⟨?_, hempty, ?_⟩ <;> rw [hempty] <;> rfl
      | some pkg =>
          have hcons := d.toList_cons hfront
          have hcount : d.popFront.count < fuel := by
            have hlen := congrArg List.length hcons
            rw [List.length_cons, Deque.length_toList, Deque.length_toList] at hlen
            omega
          obtain ⟨hstate, hempty, hout⟩ := ih (sealFrame env masks s pkg).1 d.popFront hcount
          rw [hcons, run_cons]
          exact ⟨hstate, hempty, congrArg _ hout⟩

theorem drainRecvDeque_spec {fuel : ℕ} (d : Deque Bytes) (hfuel : d.count < fuel) :
    (drainRecvDeque fuel d).1.toList = [] ∧ (drainRecvDeque fuel d).2 = d.toList := by
  induction fuel generalizing d with
  | zero => omega
  | succ fuel ih =>
      rw [drainRecvDeque]
      cases hfront : d.front with
      | none =>
          have hempty := d.front_eq_none_iff.1 hfront
          exact ⟨hempty, hempty.symm⟩
      | some pkg =>
          have hcons := d.toList_cons hfront
          have hcount : d.popFront.count < fuel := by
            have hlen := congrArg List.length hcons
            rw [List.length_cons, Deque.length_toList, Deque.length_toList] at hlen
            omega
          obtain ⟨hempty, hout⟩ := ih d.popFront hcount
          rw [hcons]
          exact ⟨hempty, congrArg _ hout⟩

theorem toList_foldl_pushBack (d : Deque Bytes) (l : List Bytes) :
    (l.foldl Deque.pushBack d).toList = d.toList ++ l := by
  induction l generalizing d with
  | nil => rw [List.foldl_nil, List.append_nil]
  | cons x l ih => rw [List.foldl_cons, ih, Deque.toList_pushBack, List.append_assoc, List.singleton_append]

/-! ## What a read leaves as it was -/

/-- What sending works on. -/
def TlsTunnel.sendSide (t : TlsTunnel σ ρ) :
    TlsStage × σ × (ℕ → ℕ → UInt8) × ℕ × Bytes × Option (Socks5Address × Deque Bytes) :=
  (t.stage, t.eCtx, t.masks, t.framesSent, t.secWebsocketKey,
    t.udpDataCtx.map fun d => (d.targetAddr, d.sendDeque))

theorem receiveLoop_sendSide (env : TlsEnv σ ρ) (fuel : ℕ) (t : TlsTunnel σ ρ) :
    (receiveLoop env fuel t).sendSide = t.sendSide ∧
      (receiveLoop env fuel t).isTerminated = t.isTerminated := by
  induction fuel generalizing t with
  | zero => exact ⟨rfl, rfl⟩
  | succ fuel ih =>
      rw [receiveLoop]
      split
      · exact ⟨rfl, rfl⟩
      · dsimp only
        split
        · exact ⟨rfl, rfl⟩
        · obtain ⟨hside, hterm⟩ := ih _
          refine ⟨hside.trans ?_, hterm⟩
          unfold TlsTunnel.sendSide
          cases t.udpDataCtx <;> rfl

/-- A TLS buffer. -/
def Sent.toTls : Sent → Option Bytes
  | .tls buf => some buf
  | _ => none

theorem onStreamingData_sendSide (env : TlsEnv σ ρ) (t : TlsTunnel σ ρ) (data : Bytes) :
    (onStreamingData env t data).1.sendSide = t.sendSide ∧
      (onStreamingData env t data).2.filterMap Sent.toTls = [] := by
  obtain ⟨hside, -⟩ := receiveLoop_sendSide env
    ((t.serverDeliveryCache ++ data).length + 1)
    { t with serverDeliveryCache := t.serverDeliveryCache ++ data }
  rw [onStreamingData]
  dsimp only
  generalize receiveLoop env ((t.serverDeliveryCache ++ data).length + 1)
    { t with serverDeliveryCache := t.serverDeliveryCache ++ data } = t' at hside
  have hside' : t'.sendSide = t.sendSide := hside
  split
  · exact ⟨hside', rfl⟩
  · split
    case h_1 d hd =>
      constructor
      · rw [← hside']
        unfold TlsTunnel.sendSide
        rw [hd]
        rfl
      · rw [List.filterMap_map]
        exact List.filterMap_eq_nil_iff.2 fun _ _ => rfl
    case h_2 hd =>
      split
      · exact ⟨hside', rfl⟩
      · exact ⟨hside', rfl⟩

/-! ## Frames -/

/-- What the tunnel takes for the end of the stream. -/
def IsClose (frame : Bytes) : Prop :=
  (frameInfo frame).fin = true ∧ (frameInfo frame).masking = false ∧
    (frameInfo frame).opcode = WS_OPCODE_CLOSE

/-- A frame that stands at the front of `data` is told apart in `data`. -/
theorem isClose_take {data : Bytes} {n : ℕ} (h : 2 ≤ n) (hn : n ≤ data.length) :
    IsClose (data.take n) ↔ IsClose data := by
  have hbyte : ∀ i < 2, byteAt (data.take n) i = byteAt data i := by
    intro i hi
    conv_rhs => rw [← List.take_append_drop n data]
    exact (byteAt_append_left (by rw [List.length_take]; omega)).symm
  simp only [IsClose, frameInfo, hbyte 0 (by omega), hbyte 1 (by omega)]

/-- What the tunnel makes of a frame. -/
def takePayload (d : ρ) (frame : Bytes) : ρ × Bytes :=
  let r := env.tunnelCipherClientDecrypt d (framePayload frame)
  (r.1, r.2.1)

/-- All complete frames are taken, and the rest stays in the cache. -/
theorem receiveLoop_eq {fuel : ℕ} (t : TlsTunnel σ ρ) (hfuel : t.serverDeliveryCache.length < fuel)
    {fs : List Bytes} {rest : Bytes} (hsplit : wsFrames.Splits t.serverDeliveryCache fs rest)
    (hdata : ∀ f ∈ fs, ¬ IsClose f) :
    receiveLoop env fuel t = { t with
      serverDeliveryCache := rest
      dCtx := (run (takePayload env) t.dCtx fs).1
      localWriteCache := t.localWriteCache ++ (run (takePayload env) t.dCtx fs).2.flatten
      udpDataCtx := t.udpDataCtx.map fun u =>
        { u with recvDeque := (run (takePayload env) t.dCtx fs).2.foldl Deque.pushBack u.recvDeque } } := by
  -- on the fuel: every pass takes a frame off the cache
  induction fuel generalizing t fs with
  | zero => omega
  | succ fuel ih =>
      rw [receiveLoop]
      cases hsize : wsFrames.size t.serverDeliveryCache with
      | none =>
          obtain ⟨rfl, rfl⟩ := hsplit.unique (Delimiter.Splits.nil hsize)
          have hnone := retrieve_of_size_none hsize ⟨WS_OPCODE_BINARY, false, false, 0, 0, 0⟩
          generalize websocketRetrievePayload t.serverDeliveryCache _ = p at hnone
          obtain ⟨payload, info⟩ := p
          cases hnone
          simp
      | some n =>
          obtain ⟨hread, hlen⟩ :=
            retrieve_of_size_some hsize ⟨WS_OPCODE_BINARY, false, false, 0, 0, 0⟩
          have hle := wsFrames.size_le hsize
          have hpos := wsFrames.size_pos hsize
          -- a splitting is unique, so its first frame is the one that the pass takes
          obtain ⟨gs, r, hrest⟩ := Delimiter.exists_splits (D := wsFrames) (t.serverDeliveryCache.drop n)
          obtain ⟨rfl, rfl⟩ := hsplit.unique (Delimiter.Splits.cons hsize hrest)
          have hinfo : (frameInfo t.serverDeliveryCache).frameSize = n := hlen
          have hopen : ¬ IsClose t.serverDeliveryCache := by
            -- a close frame shows in its first two bytes
            have htwo : 2 ≤ n := by
              have h2 := two_le_headLen t.serverDeliveryCache
              have hh := headLen_le_frameLen t.serverDeliveryCache
              omega
            rw [← isClose_take htwo hle]
            exact hdata _ List.mem_cons_self
          rw [hread]
          dsimp only
          have hdata' : ¬ ((frameInfo t.serverDeliveryCache).fin = true ∧
            (frameInfo t.serverDeliveryCache).masking = false ∧
            (frameInfo t.serverDeliveryCache).opcode = WS_OPCODE_CLOSE) := hopen
          rw [hinfo, shortenedTo_drop hle, if_neg hdata', ih]
          · simp only [run_cons, List.flatten_cons, List.foldl_cons, List.append_assoc,
              Option.map_map]
            rfl
          · dsimp only
            rw [List.length_drop]
            omega
          · exact hrest
          · exact fun f hf => hdata f (List.mem_cons_of_mem _ hf)

/-! ## Streaming -/

/-- Between two reads in the streaming stage. -/
structure Streaming (udp : Bool) (t : TlsTunnel σ ρ) : Prop where
  stage : t.stage = .tlsStreaming
  live : t.isTerminated = false
  notEof : t.tlsIsEof = false
  written : t.localWriteCache = []
  kind : t.udpDataCtx.isSome = udp
  delivered : ∀ u ∈ t.udpDataCtx, u.recvDeque.toList = []

/-- The decrypted payloads of a read and what is sent for them. -/
def Forwards (udp : Bool) (rs : List Bytes) (sent : List Sent) : Prop :=
  sent = if udp then rs.map .udp else if rs.flatten = [] then [] else [.incoming rs.flatten]

/-- A read that brings some bytes. -/
def receive (t : TlsTunnel σ ρ) (data : Bytes) : TlsTunnel σ ρ × List Sent :=
  tlsCliOnDataReceived env t data.length data

theorem receive_live {t : TlsTunnel σ ρ} (h : t.isTerminated = false) (data : Bytes) :
    receive env t data =
      match t.stage with
      | .tlsWebsocketUpgrade => onUpgradeResponse env t data
      | .tlsStreaming => onStreamingData env t data
      | .tlsConnecting => (t, []) := by
  have hlen : ¬ (data.length : ℤ) < 0 := by omega
  rw [receive, tlsCliOnDataReceived, h]
  refine (if_neg Bool.false_ne_true).trans ((if_neg hlen).trans ?_)
  rfl

/-- A read, without a result when the process is lost. -/
def receiveChecked (t : TlsTunnel σ ρ) (data : Bytes) : Option (TlsTunnel σ ρ × List Sent) :=
  tlsCliOnDataReceivedChecked env t data.length data

theorem upgradePlaintexts_subset (t : TlsTunnel σ ρ) (status : ℤ) (data : Bytes) :
    ∀ p ∈ upgradePlaintexts env t status data, p ∈ t.waiting := by
  intro p hp
  unfold upgradePlaintexts at hp
  split_ifs at hp
  · cases hp
  · exact hp

/-- Only in the upgrade stage does a read make the tunnel encrypt. -/
theorem upgradePlaintexts_eq_nil {t : TlsTunnel σ ρ} (h : t.stage ≠ .tlsWebsocketUpgrade) (status : ℤ)
    (data : Bytes) : upgradePlaintexts env t status data = [] :=
  if_pos (.inr (.inr (.inl h)))

theorem receive_stage {t : TlsTunnel σ ρ} (h : t.stage = .tlsStreaming) (data : Bytes) :
    (receive env t data).1.stage = .tlsStreaming := by
  by_cases hterm : t.isTerminated = true
  · rw [receive, tlsCliOnDataReceived, if_pos hterm]
    exact h
  · rw [receive_live env (Bool.eq_false_iff.2 hterm), h]
    exact (congrArg Prod.fst (onStreamingData_sendSide env t data).1).trans h

theorem receive_receives (udp : Bool) :
    Delimiter.Receives wsFrames (Streaming udp) (fun f => ¬ IsClose f) (receive env)
      TlsTunnel.serverDeliveryCache TlsTunnel.dCtx (takePayload env) (Forwards udp) where
  next t data fs rest h hsplit hdata := by
    have hstep : receive env t data = onStreamingData env t data := by
      rw [receive_live env h.live, h.stage]
    have hloop := receiveLoop_eq env { t with serverDeliveryCache := t.serverDeliveryCache ++ data }
      (Nat.lt_succ_self _) hsplit hdata
    rw [hstep, onStreamingData]
    dsimp only at hloop ⊢
    rw [hloop, h.written, List.nil_append]
    generalize run (takePayload env) t.dCtx fs = q
    have hopen : ¬ (q.2.flatten = [] ∧ t.tlsIsEof = true) := by
      rw [h.notEof]
      simp
    rw [if_neg hopen]
    -- UDP payloads go out one by one, TCP bytes together and only if there are any
    cases hudp : t.udpDataCtx with
    | some u =>
        have hkind : udp = true := by
          rw [← h.kind, hudp]
          rfl
        obtain ⟨hempty, hout⟩ := drainRecvDeque_spec (q.2.foldl Deque.pushBack u.recvDeque)
          (Nat.lt_succ_self _)
        rw [toList_foldl_pushBack, h.delivered u hudp, List.nil_append] at hout
        subst hkind
        refine ⟨⟨h.stage, h.live, h.notEof, rfl, rfl, ?_⟩, rfl, rfl, ?_⟩
        · intro u' hu'
          cases hu'
          exact hempty
        · exact congrArg (List.map Sent.udp) hout
    | none =>
        have hkind : udp = false := by
          rw [← h.kind, hudp]
          rfl
        subst hkind
        dsimp only [Option.map_none]
        by_cases hflat : q.2.flatten = []
        · rw [if_pos hflat]
          refine ⟨⟨h.stage, h.live, h.notEof, hflat, rfl, by simp⟩, rfl, rfl, ?_⟩
          rw [Forwards, if_neg Bool.false_ne_true, if_pos hflat]
        · rw [if_neg hflat]
          refine ⟨⟨h.stage, h.live, h.notEof, rfl, rfl, by simp⟩, rfl, rfl, ?_⟩
          rw [Forwards, if_neg Bool.false_ne_true, if_neg hflat]

/-! ## The response -/

/-- Waiting for the response to the upgrade request. -/
structure Upgrading (udp : Bool) (t : TlsTunnel σ ρ) : Prop where
  stage : t.stage = .tlsWebsocketUpgrade
  live : t.isTerminated = false
  incoming : 0 ≤ t.incomingResult
  notEof : t.tlsIsEof = false
  written : t.localWriteCache = []
  unread : t.serverDeliveryCache = []
  kind : t.udpDataCtx.isSome = udp
  delivered : ∀ u ∈ t.udpDataCtx, u.recvDeque.toList = []

/-- A response that the header parser takes whole, to a request with this key. -/
structure ValidResponse (secWebsocketKey resp : Bytes) : Prop where
  status : (env.httpHeadersParse resp).status = some (ascii "Switching Protocols")
  accept : (env.httpHeadersParse resp).secWebsocketAccept =
    websocketGenerateSecWebsocketAccept secWebsocketKey
  key : secWebsocketKey ≠ []
  parsedLen : (env.httpHeadersParse resp).parsedLen = resp.length

/-- Nothing that waits for the upgrade is too long for the cipher. -/
def WaitingFits (t : TlsTunnel σ ρ) : Prop := ∀ p ∈ t.waiting, env.Takes p

/-- The cipher encrypts the first package, which a tunnel without UDP sends now. -/
def SendsFirst (t : TlsTunnel σ ρ) : Prop :=
  t.udpDataCtx = none → (env.tunnelCipherClientEncrypt t.eCtx t.firstClientPkg).2.2 = true

/-- Nothing of this goes to the client's own side. -/
def TlsOnly (sent : List Sent) : Prop := ∀ s ∈ sent, ∃ buf, s = .tls buf

variable {env}

theorem not_rejected_iff {t : TlsTunnel σ ρ} {data : Bytes} :
    ¬ Rejected env t data ↔ ValidResponse env t.secWebsocketKey data := by
  have hcalc : websocketGenerateSecWebsocketAccept t.secWebsocketKey = none ↔ t.secWebsocketKey = [] := by
    unfold websocketGenerateSecWebsocketAccept
    split_ifs with hkey
    · exact iff_of_true rfl hkey
    · exact iff_of_false nofun hkey
  unfold Rejected
  simp only [not_or, not_not, hcalc]
  constructor
  · rintro ⟨hstatus, -, hkey, hlen, haccept⟩
    exact ⟨hstatus, haccept, hkey, hlen⟩
  · rintro ⟨hstatus, haccept, hkey, hlen⟩
    refine ⟨hstatus, ?_, hkey, hlen, haccept⟩
    rw [haccept]
    exact fun hnone => hkey (hcalc.1 hnone)

theorem receive_response {udp : Bool} {t : TlsTunnel σ ρ} {resp : Bytes} (h : Upgrading udp t)
    (hresp : ValidResponse env t.secWebsocketKey resp) (hfirst : SendsFirst env t) :
    Streaming udp (receive env t resp).1 ∧ (receive env t resp).1.serverDeliveryCache = [] ∧
      (receive env t resp).1.dCtx = t.dCtx ∧ TlsOnly (receive env t resp).2 := by
  have hstep : receive env t resp = onUpgradeResponse env t resp := by
    rw [receive_live env h.live, h.stage]
  rw [hstep, onUpgradeResponse, if_neg (not_rejected_iff.2 hresp)]
  cases hudp : t.udpDataCtx with
  | some u =>
      dsimp only
      refine ⟨⟨rfl, h.live, h.notEof, h.written, ?_, ?_⟩, h.unread, rfl, ?_⟩
      · rw [← h.kind, hudp]
        rfl
      · intro u' hu'
        cases hu'
        exact h.delivered u hudp
      · intro s hs
        obtain ⟨buf, -, rfl⟩ := List.mem_map.1 hs
        exact ⟨buf, rfl⟩
  | none =>
      -- without UDP the first package is sent at once
      have henc := hfirst hudp
      have hres : ¬ t.incomingResult < 0 := by
        have hin := h.incoming
        omega
      dsimp only
      rw [tunnelTlsDoLaunchStreaming, if_neg hres, encryptAndSend]
      dsimp only
      rw [if_pos henc]
      dsimp only
      rw [h.live, if_neg Bool.false_ne_true]
      refine ⟨⟨rfl, rfl, h.notEof, h.written, h.kind, h.delivered⟩, h.unread, rfl, ?_⟩
      intro s hs
      exact ⟨_, List.mem_singleton.1 hs⟩

/-- The process survives the first read if nothing that waits is too long, and every read after it. -/
theorem runChecked_receive {t : TlsTunnel σ ρ} {resp : Bytes} (hfits : WaitingFits env t)
    (hstage : (receive env t resp).1.stage = .tlsStreaming) (chunks : List Bytes) :
    runChecked (receiveChecked env) t (resp :: chunks) = some (run (receive env) t (resp :: chunks)) := by
  refine runChecked_of_along
    (P := fun t (data : Bytes) => ∀ p ∈ upgradePlaintexts env t data.length data, env.Takes p)
    (fun t data h => if_pos h) ⟨fun p hp => ?_, ?_⟩
  · exact hfits p (upgradePlaintexts_subset env t resp.length resp p hp)
  · refine along_of_invariant (P := fun t : TlsTunnel σ ρ => t.stage = .tlsStreaming)
      (fun t data h => receive_stage env h data) (fun t data h p hp => ?_) hstage chunks
    rw [upgradePlaintexts_eq_nil env (by rw [h]; nofun)] at hp
    cases hp

/-- A first read that the parser does not take whole ends the tunnel. -/
theorem receive_invalid {udp : Bool} {t : TlsTunnel σ ρ} {data : Bytes} (h : Upgrading udp t)
    (hbad : ¬ ValidResponse env t.secWebsocketKey data) :
    receive env t data = (t.shutdown, []) := by
  have hstep : receive env t data = onUpgradeResponse env t data := by
    rw [receive_live env h.live, h.stage]
  have hrejected : Rejected env t data := by
    by_contra hcon
    exact hbad (not_rejected_iff.1 hcon)
  rw [hstep, onUpgradeResponse, if_pos hrejected]

theorem not_validResponse_of_joined {key resp more : Bytes} (hmore : more ≠ [])
    (hstop : (env.httpHeadersParse (resp ++ more)).parsedLen = resp.length) :
    ¬ ValidResponse env key (resp ++ more) := by
  rintro ⟨-, -, -, hlen⟩
  rw [hstop, List.length_append] at hlen
  exact hmore (List.eq_nil_of_length_eq_zero (by omega))

/-- The response and the first frame in one read: the parser stops behind the response. -/
theorem joined_shuts_down {udp : Bool} {t : TlsTunnel σ ρ} {resp more : Bytes} (h : Upgrading udp t)
    (hmore : more ≠ []) (hstop : (env.httpHeadersParse (resp ++ more)).parsedLen = resp.length) :
    (receive env t (resp ++ more)).1.isTerminated = true := by
  rw [receive_invalid h (not_validResponse_of_joined hmore hstop)]
  rfl

/-! ## The frames of a server -/

/-- A frame that `websocket_build_frame` makes of a payload: binary or a continuation, and unmasked. -/
structure ServerFrame where
  info : WsFrameInfo
  payload : Bytes
  opcode : info.opcode = WS_OPCODE_BINARY ∨ info.opcode = WS_OPCODE_CONTINUATION
  unmasked : info.masking = false

/-- The bytes of a frame; without a mask nothing random is needed. -/
def ServerFrame.bytes (f : ServerFrame) : Bytes :=
  (websocketBuildFrame f.info (fun _ => 0) f.payload).1

/-- The reader refuses longer frames as too big. -/
def ServerFrame.Small (f : ServerFrame) : Prop := f.payload.length < 4294967296

theorem ServerFrame.spec {f : ServerFrame} (h : f.Small) :
    wsFrames.IsFrame f.bytes ∧ ¬ IsClose f.bytes ∧ framePayload f.bytes = f.payload := by
  have hknown : knownOpcode f.info.opcode = true := by
    rcases f.opcode with hop | hop <;> rw [hop] <;> decide
  obtain ⟨hform, hpayload, hop, -, -⟩ := buildFrame_spec f.info hknown (fun _ => 0) h
  refine ⟨(isFrame_iff _).2 hform, ?_, hpayload⟩
  rintro ⟨-, -, hclose⟩
  have hclose' : f.info.opcode = WS_OPCODE_CLOSE := hop.symm.trans hclose
  rcases f.opcode with hop' | hop' <;> rw [hop'] at hclose' <;> exact absurd hclose' (by decide)

/-- The payloads as the cipher leaves them, one after the other. -/
def decryptAll (env : TlsEnv σ ρ) : ρ → List Bytes → List Bytes
  | _, [] => []
  | d, payload :: payloads =>
      let r := env.tunnelCipherClientDecrypt d payload
      r.2.1 :: decryptAll env r.1 payloads

theorem run_takePayload (d : ρ) {fs : List ServerFrame} (h : ∀ f ∈ fs, f.Small) :
    (run (takePayload env) d (fs.map ServerFrame.bytes)).2 =
      decryptAll env d (fs.map ServerFrame.payload) := by
  induction fs generalizing d with
  | nil => rfl
  | cons f fs ih =>
      have hpayload := (ServerFrame.spec (h f List.mem_cons_self)).2.2
      rw [List.map_cons, List.map_cons, run_cons, decryptAll, takePayload, hpayload]
      exact congrArg _ (ih _ fun g hg => h g (List.mem_cons_of_mem _ hg))

/-! ## What reaches the client's own side -/

/-- The bytes for the incoming socket. -/
def Sent.toIncoming : Sent → Bytes
  | .incoming buf => buf
  | _ => []

/-- A datagram for the UDP client. -/
def Sent.toUdp : Sent → Option Bytes
  | .udp buf => some buf
  | _ => none

/-- The decrypted payloads have reached the client's own side: the incoming socket as one stream of
bytes, the UDP client as one datagram for each frame. -/
def Reached (udp : Bool) (plains : List Bytes) (sent : List Sent) : Prop :=
  sent.flatMap Sent.toIncoming = (if udp then [] else plains.flatten) ∧
    sent.filterMap Sent.toUdp = if udp then plains else []

theorem Reached.append {udp : Bool} {plains plains' : List Bytes} {sent sent' : List Sent}
    (h : Reached udp plains sent) (h' : Reached udp plains' sent') :
    Reached udp (plains ++ plains') (sent ++ sent') := by
  obtain ⟨hin, hudp⟩ := h
  obtain ⟨hin', hudp'⟩ := h'
  constructor
  · rw [List.flatMap_append, hin, hin']
    cases udp <;> simp
  · rw [List.filterMap_append, hudp, hudp']
    cases udp <;> simp

theorem TlsOnly.reached {udp : Bool} {sent : List Sent} (h : TlsOnly sent) : Reached udp [] sent := by
  induction sent with
  | nil => cases udp <;> exact ⟨rfl, rfl⟩
  | cons s sent ih =>
      obtain ⟨buf, rfl⟩ := h s List.mem_cons_self
      exact ih fun s' hs' => h s' (List.mem_cons_of_mem _ hs')

theorem Forwards.reached {udp : Bool} {rs : List Bytes} {sent : List Sent} (h : Forwards udp rs sent) :
    Reached udp rs sent := by
  rw [Forwards] at h
  subst h
  cases udp with
  | true =>
      rw [if_pos rfl]
      constructor
      · induction rs with
        | nil => rfl
        | cons r rs ih => exact ih
      · induction rs with
        | nil => rfl
        | cons r rs ih => exact congrArg (r :: ·) ih
  | false =>
      rw [if_neg Bool.false_ne_true]
      split
      case isTrue hflat => exact ⟨hflat.symm, rfl⟩
      case isFalse => exact ⟨List.append_nil _, rfl⟩

theorem reached_of_forall₂ {udp : Bool} {rss : List (List Bytes)} {outs : List (List Sent)}
    (h : List.Forall₂ (Forwards udp) rss outs) : Reached udp rss.flatten outs.flatten := by
  induction h with
  | nil => cases udp <;> exact ⟨rfl, rfl⟩
  | cons hout _ ih =>
      rw [List.flatten_cons, List.flatten_cons]
      exact hout.reached.append ih

/-! ## Every way of cutting -/

/-- Behind some reads of a stream of frames, of which `more` is still to come: process and tunnel stand,
the payloads of the complete frames have reached the client's side, and the cache holds the rest. -/
def Arrived (env : TlsEnv σ ρ) (udp : Bool) (t : TlsTunnel σ ρ) (frames : List ServerFrame)
    (chunks : List Bytes) (more : Bytes) : Prop :=
  ∃ r, runChecked (receiveChecked env) t chunks = some r ∧ r.1.isTerminated = false ∧
    ∃ done todo, frames = done ++ todo ∧
    r.1.serverDeliveryCache ++ more = (todo.map ServerFrame.bytes).flatten ∧
    Reached udp (decryptAll env t.dCtx (done.map ServerFrame.payload)) r.2.flatten ∧
    (more = [] → todo = [] ∧ r.1.serverDeliveryCache = [])

/-- When the first read is the response, the frames arrive however the rest is cut. -/
theorem frames_arrive {udp : Bool} {t : TlsTunnel σ ρ} {resp : Bytes} (h : Upgrading udp t)
    (hresp : ValidResponse env t.secWebsocketKey resp) (hfits : WaitingFits env t)
    (hfirst : SendsFirst env t) {frames : List ServerFrame} (hsmall : ∀ f ∈ frames, f.Small) {chunks : List Bytes} {more : Bytes}
    (hcut : (resp :: chunks).flatten ++ more = resp ++ (frames.map ServerFrame.bytes).flatten) :
    Arrived env udp t frames (resp :: chunks) more := by
  obtain ⟨hstream, hcache, hctx, htls⟩ := receive_response h hresp hfirst
  have hbytes : chunks.flatten ++ more = (frames.map ServerFrame.bytes).flatten := by
    rw [List.flatten_cons, List.append_assoc] at hcut
    exact List.append_cancel_left hcut
  have hall : wsFrames.Splits (frames.map ServerFrame.bytes).flatten (frames.map ServerFrame.bytes) [] := by
    refine Delimiter.Splits.of_frames fun f hf => ?_
    obtain ⟨g, hg, rfl⟩ := List.mem_map.1 hf
    exact (ServerFrame.spec (hsmall g hg)).1
  -- the frames of the reads so far are some of the server's frames
  obtain ⟨fs, rest, hsplit⟩ := Delimiter.exists_splits (D := wsFrames) chunks.flatten
  obtain ⟨gs, rest', hsplit'⟩ := Delimiter.exists_splits (D := wsFrames) (rest ++ more)
  obtain ⟨hcat, hnil⟩ := hall.unique (hbytes ▸ hsplit.append hsplit')
  obtain ⟨done, todo, rfl, rfl, rfl⟩ := List.map_eq_append_iff.1 hcat
  have hdone : ∀ f ∈ done, f.Small := fun f hf => hsmall f (List.mem_append_left _ hf)
  have hsplit₁ : wsFrames.Splits ((receive env t resp).1.serverDeliveryCache ++ chunks.flatten)
      (done.map ServerFrame.bytes) rest := by
    rw [hcache]
    exact hsplit
  obtain ⟨rss, hlast, hcarry, hrun, houts⟩ := (receive_receives env udp).run_splits hstream
    (by rw [hcache]; exact Delimiter.size_nil) hsplit₁ fun f hf => by
      obtain ⟨g, hg, rfl⟩ := List.mem_map.1 hf
      exact (ServerFrame.spec (hdone g hg)).2.1
  have hplains : rss.flatten = decryptAll env t.dCtx (done.map ServerFrame.payload) := by
    rw [← run_takePayload t.dCtx hdone, ← hctx, hrun]
  refine ⟨_, runChecked_receive hfits hstream.stage chunks, hlast.live, done, todo, rfl, ?_, ?_, ?_⟩
  · rw [run_cons, hcarry, hsplit'.eq, ← hnil, List.append_nil]
  · rw [run_cons, List.flatten_cons, ← hplains, ← List.nil_append rss.flatten]
    exact htls.reached.append (reached_of_forall₂ houts)
  · intro hmore
    subst hmore
    rw [List.append_nil] at hsplit'
    obtain ⟨htodo, hrest⟩ := hsplit'.unique (Delimiter.Splits.nil hsplit.incomplete)
    refine ⟨List.map_eq_nil_iff.1 htodo, ?_⟩
    rw [run_cons, hcarry, ← hrest, ← hnil]

theorem not_arrived_of_joined {udp : Bool} {t : TlsTunnel σ ρ} {resp more : Bytes}
    (h : Upgrading udp t) (hmore : more ≠ [])
    (hstop : (env.httpHeadersParse (resp ++ more)).parsedLen = resp.length)
    (frames : List ServerFrame) (rest : Bytes) :
    ¬ Arrived env udp t frames [resp ++ more] rest := by
  rintro ⟨r, hrun, hlive, -⟩
  have hdown := joined_shuts_down h hmore hstop
  have hcall : ∀ p ∈ upgradePlaintexts env t (resp ++ more).length (resp ++ more), env.Takes p := by
    have hrejected : Rejected env t (resp ++ more) := by
      by_contra hcon
      exact not_validResponse_of_joined hmore hstop (not_rejected_iff.1 hcon)
    rw [upgradePlaintexts, if_pos (.inr (.inr (.inr (.inl hrejected))))]
    nofun
  have hchecked : receiveChecked env t (resp ++ more) = some (receive env t (resp ++ more)) := if_pos hcall
  rw [runChecked_cons, hchecked] at hrun
  cases hrun
  rw [hlive] at hdown
  cases hdown

end Receive

/-! ## A tunnel that asked for an upgrade -/

section Sample

def sampleKey : Bytes := ascii "dGhlIHNhbXBsZSBub25jZQ=="

/-- A header parser that knows one response and stops behind it, as it does at every upgrade. -/
def parseUpgrade (resp : Bytes) (accept : Option Bytes) (data : Bytes) : HttpHeaders :=
  if resp <+: data then ⟨some (ascii "Switching Protocols"), accept, resp.length⟩
  else ⟨none, none, data.length⟩

theorem parseUpgrade_append (resp : Bytes) (accept : Option Bytes) (more : Bytes) :
    parseUpgrade resp accept (resp ++ more) =
      ⟨some (ascii "Switching Protocols"), accept, resp.length⟩ :=
  if_pos (List.prefix_append resp more)

/-- A tunnel that does not encrypt. -/
def plainTlsEnv (resp : Bytes) (accept : Option Bytes) : TlsEnv Unit Unit where
  aead := false
  tunnelCipherClientEncrypt s buf := (s, buf, true)
  tunnelCipherClientDecrypt d buf := (d, buf, true)
  httpHeadersParse := parseUpgrade resp accept
  overTlsServerDomain := ascii "example.com"
  overTlsPath := ascii "/abcd1234/"
  remotePort := 443

def sampleTlsEnv : TlsEnv Unit Unit :=
  plainTlsEnv (websocketConnectResponse sampleKey) (websocketGenerateSecWebsocketAccept sampleKey)

def sampleUpgrading : TlsTunnel Unit Unit where
  stage := .tlsWebsocketUpgrade
  isTerminated := false
  incomingResult := 0
  eCtx := ()
  dCtx := ()
  masks _ _ := 0
  framesSent := 0
  secWebsocketKey := sampleKey
  targetAddressPkg := [1, 10, 0, 0, 1, 0, 80]
  firstClientPkg := ascii "GET / HTTP/1.0\r\n\r\n"
  serverDeliveryCache := []
  localWriteCache := []
  tlsIsEof := false
  udpDataCtx := none

def sampleServerFrame : ServerFrame where
  info := wsFrameBinaryAlone false ⟨WS_OPCODE_BINARY, true, false, 0, 0, 0⟩
  payload := ascii "HTTP/1.0 204 No Content\r\n\r\n"
  opcode := .inl rfl
  unmasked := rfl

theorem sampleUpgrading_spec : Upgrading false sampleUpgrading :=
  ⟨rfl, rfl, Int.le_refl 0, rfl, rfl, rfl, rfl, fun _ hu => nomatch hu⟩

theorem plainTlsEnv_validResponse {key resp : Bytes} (hkey : key ≠ []) :
    ValidResponse (plainTlsEnv resp (websocketGenerateSecWebsocketAccept key)) key resp := by
  have hparse := parseUpgrade_append resp (websocketGenerateSecWebsocketAccept key) []
  rw [List.append_nil] at hparse
  exact ⟨congrArg HttpHeaders.status hparse, congrArg HttpHeaders.secWebsocketAccept hparse, hkey,
    congrArg HttpHeaders.parsedLen hparse⟩

theorem plainTlsEnv_stops (resp : Bytes) (accept : Option Bytes) (more : Bytes) :
    ((plainTlsEnv resp accept).httpHeadersParse (resp ++ more)).parsedLen = resp.length :=
  congrArg HttpHeaders.parsedLen (parseUpgrade_append resp accept more)

theorem sampleKey_ne_nil : sampleKey ≠ [] := by decide

theorem sampleServerFrame_small : ∀ f ∈ [sampleServerFrame], f.Small := by
  intro f hf
  rw [List.mem_singleton.1 hf]
  have hlen : sampleServerFrame.payload.length = 27 := rfl
  rw [ServerFrame.Small, hlen]
  omega

theorem frames_arrive_sample :
    Arrived sampleTlsEnv false sampleUpgrading [sampleServerFrame]
      [websocketConnectResponse sampleKey, sampleServerFrame.bytes.take 9,
        sampleServerFrame.bytes.drop 9] [] := by
  refine frames_arrive sampleUpgrading_spec (plainTlsEnv_validResponse sampleKey_ne_nil)
    (fun _ _ => nofun) (fun _ => rfl) sampleServerFrame_small ?_
  simp

/-- The response and the first frame arrive together. -/
theorem joined_not_arrived :
    Upgrading false sampleUpgrading ∧
      ValidResponse sampleTlsEnv sampleUpgrading.secWebsocketKey (websocketConnectResponse sampleKey) ∧
      SendsFirst sampleTlsEnv sampleUpgrading ∧
      ¬ Arrived sampleTlsEnv false sampleUpgrading [sampleServerFrame]
        [websocketConnectResponse sampleKey ++ sampleServerFrame.bytes] [] := by
  refine ⟨sampleUpgrading_spec, plainTlsEnv_validResponse sampleKey_ne_nil, fun _ => rfl, ?_⟩
  have hne := (ServerFrame.spec (sampleServerFrame_small _ List.mem_cons_self)).1.ne_nil
  exact not_arrived_of_joined sampleUpgrading_spec hne
    (plainTlsEnv_stops _ _ sampleServerFrame.bytes) _ _

end Sample

end Client
end SsrNative
