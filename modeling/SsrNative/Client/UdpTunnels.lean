import SsrNative.Client.UdpTunnel
import SsrNative.Lib.Transition

/-!
# UdpTunnels — UDP over TLS on the client

Every pair of a source and a target has a tunnel of its own.  A datagram starts one, waits in its
queue, or is sent at once, depending on the stage of the tunnel.  `udpStep` is one callback, and
`InOrder` says that the payloads of every pair are sent or queued in the order in which they came.

Three steps go wrong.  A datagram of less than ten bytes is taken for no datagram at all, a payload of
one byte at the front of the queue cannot be put into the upgrade request, and a payload that is too
long for a chunk of an AEAD method is lost with the process when it is encrypted.  No other step does
(`datagrams_in_order_iff`).
-/

namespace SsrNative
namespace Client

open Lib.Segments
open Lib.Transition

/-! ## The client -/

/-- The client; it is no longer `alive` when it has crashed. -/
structure UdpClient (α σ ρ : Type*) where
  tunnels : List (UdpTunnel α σ ρ)
  alive : Bool

/-- A callback: a datagram has arrived, or something has happened to the tunnel `i`. -/
inductive UdpEvent (α : Type*) where
  | recvData (src : α) (target : Socks5Address) (payload : Bytes)
  | established (i : ℕ) (key : Bytes) (status : ℤ)
  | dataReceived (i : ℕ) (status : ℤ) (data : Bytes)
  | shutdown (i : ℕ)
  | destroyed (i : ℕ)

section Client

variable {α σ ρ : Type*} [DecidableEq α] (env : UdpEnv σ ρ)

/-- The comparison of `_do_find_upd_tunnel`. -/
def UdpTunnel.serves (u : UdpTunnel α σ ρ) (src : α) (target : Socks5Address) : Bool :=
  match u.tunnel.udpDataCtx with
  | some d => decide (u.srcAddr = src ∧ d.targetAddr = target)
  | none => false

/-- `udp_on_recv_data`. -/
def udpOnRecvData (c : UdpClient α σ ρ) (src : α) (data : Bytes) : UdpClient α σ ρ :=
  let r := s5ParseUpdPackage data
  if r.1 ≠ 0 then c
  else
    match r.2 with
    | none => c
    | some (target, payload) =>
        match c.tunnels.findIdx? fun u => u.inSet && u.serves src target with
        | some i => { c with tunnels := c.tunnels.modify i fun u => u.take env payload }
        | none =>
            { c with tunnels :=
              c.tunnels ++ [createUdpTunnel env c.tunnels.length src target payload] }

/-- The assertion of `aead_chunk_encrypt` holds for what the callback encrypts: the payload of a datagram
for a tunnel that streams, or what waits when an upgrade is accepted. -/
def Survives (c : UdpClient α σ ρ) : UdpEvent α → Prop
  | .recvData src target payload =>
      ∀ i ∈ c.tunnels.findIdx? fun u => u.inSet && u.serves src target, ∀ u ∈ c.tunnels[i]?,
        u.tunnel.stage = .tlsStreaming → env.Takes payload
  | .dataReceived i status data =>
      ∀ u ∈ c.tunnels[i]?, ∀ p ∈ upgradePlaintexts env.toTlsEnv u.tunnel status data, env.Takes p
  | _ => True

instance (c : UdpClient α σ ρ) : ∀ e, Decidable (Survives env c e)
  | .recvData _ _ _ => inferInstanceAs (Decidable (∀ _ ∈ _, _))
  | .dataReceived _ _ _ => inferInstanceAs (Decidable (∀ _ ∈ _, _))
  | .established _ _ _ | .shutdown _ | .destroyed _ => inferInstanceAs (Decidable True)

/-- A callback on the client, as long as the cipher comes back. -/
def udpCallback (c : UdpClient α σ ρ) : UdpEvent α → UdpClient α σ ρ
  | .recvData src target payload => udpOnRecvData env c src (udpDatagram target payload)
  | .established i key status =>
      match c.tunnels[i]? with
      | none => c
      | some u =>
          match tlsCliOnConnectionEstablished env.toTlsEnv key u.tunnel status with
          | some r => { c with tunnels := c.tunnels.modify i fun u => u.after r }
          | none => { c with alive := false }
  | .dataReceived i status data =>
      { c with tunnels := c.tunnels.modify i fun u =>
          u.after (tlsCliOnDataReceived env.toTlsEnv u.tunnel status data) }
  | .shutdown i =>
      { c with tunnels := c.tunnels.modify i fun u => { u with tunnel := u.tunnel.shutdown } }
  | .destroyed i => { c with tunnels := c.tunnels.modify i fun u => { u with inSet := false } }

/-- A callback on the client. -/
def udpStep (c : UdpClient α σ ρ) (e : UdpEvent α) : UdpClient α σ ρ :=
  if Survives env c e then udpCallback env c e else { c with alive := false }

/-- What can happen: a TLS connection is established once, is read only then, and only a tunnel that
was shut down is destroyed. -/
def UdpOccurs (c : UdpClient α σ ρ) : UdpEvent α → Prop
  | .recvData _ target payload => target.WellFormed ∧ payload ≠ []
  | .established i _ _ => ∀ u, c.tunnels[i]? = some u → u.tunnel.stage = .tlsConnecting
  | .dataReceived i _ _ => ∀ u, c.tunnels[i]? = some u → u.tunnel.stage ≠ .tlsConnecting
  | .shutdown _ => True
  | .destroyed i => ∀ u, c.tunnels[i]? = some u → u.tunnel.isTerminated = true

variable {env}

/-! ## All tunnels -/

/-- The payloads that arrived for a pair. -/
def received (src : α) (target : Socks5Address) (es : List (UdpEvent α)) : List Bytes :=
  es.filterMap fun
    | .recvData src' target' payload => if src' = src ∧ target' = target then some payload else none
    | _ => none

theorem received_append_recvData (src : α) (target : Socks5Address) (es : List (UdpEvent α)) (src' : α)
    (target' : Socks5Address) (payload : Bytes) :
    received src target (es ++ [.recvData src' target' payload]) =
      received src target es ++ if src' = src ∧ target' = target then [payload] else [] := by
  rw [received, List.filterMap_append]
  split
  case isTrue h => simp [received, h]
  case isFalse h => simp [received, h]

/-- No tunnel of the pair has been shut down. -/
def NoneTerminated (c : UdpClient α σ ρ) (src : α) (target : Socks5Address) : Prop :=
  ∀ (i : ℕ) (u : UdpTunnel α σ ρ), c.tunnels[i]? = some u → u.serves src target = true →
    u.tunnel.isTerminated = false

/-- Nothing has arrived for the pair, or it has exactly one tunnel, which has sent some of the payloads
and queued the others. -/
def Served (env : UdpEnv σ ρ) (c : UdpClient α σ ρ) (src : α) (target : Socks5Address)
    (payloads : List Bytes) : Prop :=
  (payloads = [] ∧ ∀ (i : ℕ) (u : UdpTunnel α σ ρ), c.tunnels[i]? = some u →
    u.serves src target = false) ∨
  ∃ (i : ℕ) (u : UdpTunnel α σ ρ), c.tunnels[i]? = some u ∧ u.serves src target = true ∧
    Carried env u target payloads ∧
    ∀ (j : ℕ) (v : UdpTunnel α σ ρ), c.tunnels[j]? = some v → v.serves src target = true → j = i

/-- The payloads of every pair whose tunnel stands are sent or queued in their order, each once. -/
structure InOrder (env : UdpEnv σ ρ) (c : UdpClient α σ ρ) (es : List (UdpEvent α)) : Prop where
  alive : c.alive = true
  served : ∀ src target, NoneTerminated c src target → Served env c src target (received src target es)

/-- `InOrder`, and what keeps it: every tunnel here is one for UDP, and only a tunnel that was shut down
has left the tunnel set. -/
structure Inv (env : UdpEnv σ ρ) (c : UdpClient α σ ρ) (es : List (UdpEvent α)) : Prop
    extends InOrder env c es where
  udp : ∀ (i : ℕ) (u : UdpTunnel α σ ρ), c.tunnels[i]? = some u → u.tunnel.udpDataCtx.isSome = true
  removed : ∀ (i : ℕ) (u : UdpTunnel α σ ρ), c.tunnels[i]? = some u → u.inSet = false →
    u.tunnel.isTerminated = true

theorem serves_iff (u : UdpTunnel α σ ρ) (src : α) (target : Socks5Address) :
    u.serves src target = true ↔ u.srcAddr = src ∧ u.tunnel.target = some target := by
  unfold UdpTunnel.serves TlsTunnel.target
  cases u.tunnel.udpDataCtx with
  | none => simp
  | some d => simp

theorem serves_congr {u v : UdpTunnel α σ ρ} (hsrc : v.srcAddr = u.srcAddr)
    (htarget : v.tunnel.target = u.tunnel.target) (src : α) (target : Socks5Address) :
    v.serves src target = u.serves src target := by
  rw [Bool.eq_iff_iff, serves_iff, serves_iff, hsrc, htarget]

/-- Something happens to one tunnel: it stays the tunnel of its pair, and what it carries follows what
has arrived. -/
structure Changes (env : UdpEnv σ ρ) (es : List (UdpEvent α)) (e : UdpEvent α) (u v : UdpTunnel α σ ρ) :
    Prop where
  srcAddr : v.srcAddr = u.srcAddr
  follows : u.tunnel.Follows v.tunnel
  inSet : v.inSet = false → u.inSet = false ∨ v.tunnel.isTerminated = true
  carried : ∀ src target, u.serves src target = true → Carried env u target (received src target es) →
    v.tunnel.isTerminated = false → Carried env v target (received src target (es ++ [e]))

theorem getElem?_modify_iff {β : Type*} {l : List β} {i j : ℕ} {f : β → β} {v : β} :
    (l.modify i f)[j]? = some v ↔ ∃ u, l[j]? = some u ∧ (if i = j then f u else u) = v := by
  rw [List.getElem?_modify]
  cases l[j]? with
  | none => simp
  | some u => simp

section Modify

variable {c : UdpClient α σ ρ} {es : List (UdpEvent α)} {e : UdpEvent α} {i : ℕ}
  {f : UdpTunnel α σ ρ → UdpTunnel α σ ρ}

theorem serves_modify (hf : ∀ u, c.tunnels[i]? = some u → Changes env es e u (f u)) {j : ℕ}
    {u : UdpTunnel α σ ρ} (hu : c.tunnels[j]? = some u) (src : α) (target : Socks5Address) :
    (if i = j then f u else u).serves src target = u.serves src target := by
  by_cases hj : i = j
  · subst hj
    rw [if_pos rfl]
    exact serves_congr (hf u hu).srcAddr (hf u hu).follows.target src target
  · rw [if_neg hj]

theorem NoneTerminated.of_modify (hf : ∀ u, c.tunnels[i]? = some u → Changes env es e u (f u)) {src : α}
    {target : Socks5Address} (hlive : NoneTerminated { c with tunnels := c.tunnels.modify i f } src target) :
    NoneTerminated c src target := by
  intro j u hu hs
  have hafter := hlive j _ (getElem?_modify_iff.2 ⟨u, hu, rfl⟩) ((serves_modify hf hu src target).trans hs)
  by_cases hj : i = j
  · subst hj
    rw [if_pos rfl] at hafter
    by_contra hcon
    have hterm := (hf u hu).follows.terminated (by simpa using hcon)
    rw [hterm] at hafter
    cases hafter
  · rwa [if_neg hj] at hafter

theorem Served.modify {src : α} {target : Socks5Address}
    (h : Served env c src target (received src target es))
    (hf : ∀ u, c.tunnels[i]? = some u → Changes env es e u (f u))
    (hother : (∀ u, c.tunnels[i]? = some u → u.serves src target = false) →
      received src target (es ++ [e]) = received src target es)
    (hlive : NoneTerminated { c with tunnels := c.tunnels.modify i f } src target) :
    Served env { c with tunnels := c.tunnels.modify i f } src target (received src target (es ++ [e])) := by
  rcases h with ⟨hnil, hnone⟩ | ⟨j, u, hu, hs, hcarried, huniq⟩
  · refine .inl ⟨?_, fun j v hv => ?_⟩
    · rw [hother fun u hu => hnone i u hu]
      exact hnil
    · obtain ⟨u, hu, rfl⟩ := getElem?_modify_iff.1 hv
      rw [serves_modify hf hu]
      exact hnone j u hu
  · have hv : (c.tunnels.modify i f)[j]? = some (if i = j then f u else u) := getElem?_modify_iff.2 ⟨u, hu, rfl⟩
    have hvs : (if i = j then f u else u).serves src target = true := (serves_modify hf hu src target).trans hs
    refine .inr ⟨j, _, hv, hvs, ?_, fun k w hw hws => ?_⟩
    · by_cases hj : i = j
      · subst hj
        have hvlive := hlive i _ hv hvs
        rw [if_pos rfl] at hvlive ⊢
        exact (hf u hu).carried src target hs hcarried hvlive
      · -- the event is about a tunnel that does not serve the pair
        rw [if_neg hj, hother]
        · exact hcarried
        · intro w hw
          by_contra hws
          exact hj (huniq i w hw (by simpa using hws))
    · obtain ⟨u', hu', rfl⟩ := getElem?_modify_iff.1 hw
      exact huniq k u' hu' ((serves_modify hf hu' src target).symm.trans hws)

theorem Inv.modify (h : Inv env c es) (hf : ∀ u, c.tunnels[i]? = some u → Changes env es e u (f u))
    (hother : ∀ src target, (∀ u, c.tunnels[i]? = some u → u.serves src target = false) →
      received src target (es ++ [e]) = received src target es) :
    Inv env { c with tunnels := c.tunnels.modify i f } (es ++ [e]) := by
  refine ⟨⟨h.alive, fun src target hlive => ?_⟩, fun j v hv => ?_, fun j v hv hset => ?_⟩
  · exact (h.served src target (.of_modify hf hlive)).modify hf (hother src target) hlive
  · obtain ⟨u, hu, rfl⟩ := getElem?_modify_iff.1 hv
    by_cases hj : i = j
    · subst hj
      have htarget := (hf u hu).follows.target
      have hsome := h.udp i u hu
      rw [if_pos rfl]
      unfold TlsTunnel.target at htarget
      rw [← Option.isSome_map, htarget, Option.isSome_map]
      exact hsome
    · rw [if_neg hj]
      exact h.udp j u hu
  · obtain ⟨u, hu, rfl⟩ := getElem?_modify_iff.1 hv
    by_cases hj : i = j
    · subst hj
      rw [if_pos rfl] at hset ⊢
      rcases (hf u hu).inSet hset with hset' | hterm
      · exact (hf u hu).follows.terminated (h.removed i u hu hset')
      · exact hterm
    · rw [if_neg hj] at hset ⊢
      exact h.removed j u hu hset

end Modify

/-! ## Runs -/

/-- Nothing is too short: a datagram has at least ten bytes, unless a tunnel of its pair was shut down, and
when a connection stands the payload at the front of the queue has at least two. -/
def LongEnough (c : UdpClient α σ ρ) : UdpEvent α → Prop
  | .recvData src target payload =>
      NoneTerminated c src target → 10 ≤ (udpDatagram target payload).length
  | .established i _ status => 0 ≤ status → ∀ u d, c.tunnels[i]? = some u →
      u.tunnel.isTerminated = false → u.tunnel.udpDataCtx = some d →
      2 ≤ (d.sendDeque.front.getD u.tunnel.targetAddressPkg).length
  | _ => True

/-- The step does not go wrong. -/
structure Sound (env : UdpEnv σ ρ) (c : UdpClient α σ ρ) (e : UdpEvent α) : Prop where
  longEnough : LongEnough c e
  survives : Survives env c e

/-- The client does not take notice of the event, and no pair whose tunnel stands expects it to. -/
theorem Inv.unseen {c : UdpClient α σ ρ} {es : List (UdpEvent α)} {e : UdpEvent α} (h : Inv env c es)
    (hsame : ∀ src target, NoneTerminated c src target →
      received src target (es ++ [e]) = received src target es) : Inv env c (es ++ [e]) := by
  refine ⟨⟨h.alive, ?_⟩, h.udp, h.removed⟩
  intro src target hlive
  rw [hsame src target hlive]
  exact h.served src target hlive

/-- Less than ten bytes are no package. -/
theorem udpStep_short (env : UdpEnv σ ρ) (c : UdpClient α σ ρ) (src : α) {target : Socks5Address}
    {payload : Bytes} (h : (udpDatagram target payload).length < 10) :
    udpStep env c (.recvData src target payload) = c := by
  have hshort : payload.length < 10 := by
    simp only [udpDatagram, List.length_append] at h
    omega
  have hlives : Survives env c (.recvData src target payload) :=
    fun _ _ _ _ _ _ => Nat.le_trans (Nat.le_of_lt hshort) (by decide)
  rw [udpStep, if_pos hlives, udpCallback, udpOnRecvData, s5ParseUpdPackage, if_pos h]
  simp

theorem getElem?_concat_cases {β : Type*} {l : List β} {x v : β} {j : ℕ} (hv : (l ++ [x])[j]? = some v) :
    l[j]? = some v ∨ j = l.length ∧ v = x := by
  by_cases hj : j < l.length
  · rw [List.getElem?_append_left hj] at hv
    exact .inl hv
  · rw [List.getElem?_append_right (by omega)] at hv
    obtain ⟨hlen, hval⟩ := List.getElem?_eq_some_iff.1 hv
    rw [List.length_singleton] at hlen
    refine .inr ⟨by omega, ?_⟩
    rw [List.getElem_singleton] at hval
    exact hval.symm

theorem getElem?_concat_old {β : Type*} {l : List β} {u : β} {j : ℕ} (hu : l[j]? = some u) (x : β) :
    (l ++ [x])[j]? = some u := by
  rw [List.getElem?_append_left (List.getElem?_eq_some_iff.1 hu).1]
  exact hu

theorem serves_createUdpTunnel {i : ℕ} {src : α} {target : Socks5Address} {payload : Bytes} {src' : α}
    {target' : Socks5Address} :
    (createUdpTunnel env i src target payload).serves src' target' = true ↔ src = src' ∧ target = target' := by
  rw [serves_iff]
  exact and_congr Iff.rfl Option.some_inj

/-- A tunnel of the pair would be live, and so in the set. -/
theorem Inv.not_serves {c : UdpClient α σ ρ} {es : List (UdpEvent α)} (h : Inv env c es) {src : α}
    {target : Socks5Address} (hnone : ∀ u ∈ c.tunnels, (u.inSet && u.serves src target) = false)
    (hlive : NoneTerminated c src target) {j : ℕ} {u : UdpTunnel α σ ρ} (hu : c.tunnels[j]? = some u) :
    u.serves src target = false := by
  by_contra hs
  have hs' : u.serves src target = true := by simpa using hs
  have hset : u.inSet = true := by
    by_contra hset
    have hterm := h.removed j u hu (by simpa using hset)
    rw [hlive j u hu hs'] at hterm
    cases hterm
  have hfound := hnone u (List.mem_of_getElem? hu)
  rw [hset, hs'] at hfound
  cases hfound

/-- The new tunnel is the only one of its pair. -/
theorem served_create {c : UdpClient α σ ρ} {es : List (UdpEvent α)} {src : α} {target : Socks5Address}
    (h : Served env c src target (received src target es))
    (hnobody : ∀ (j : ℕ) (u : UdpTunnel α σ ρ), c.tunnels[j]? = some u → u.serves src target = false)
    (payload : Bytes) :
    Served env { c with tunnels := c.tunnels ++ [createUdpTunnel env c.tunnels.length src target payload] } src
      target (received src target (es ++ [.recvData src target payload])) := by
  have hnil : received src target es = [] := by
    rcases h with ⟨hnil, -⟩ | ⟨j, u, hu, hs, -⟩
    · exact hnil
    · rw [hnobody j u hu] at hs
      cases hs
  refine .inr ⟨c.tunnels.length, createUdpTunnel env c.tunnels.length src target payload, ?_,
    serves_createUdpTunnel.2 ⟨rfl, rfl⟩, ?_, fun j v hv hs => ?_⟩
  · rw [List.getElem?_append_right (Nat.le_refl _), Nat.sub_self]
    rfl
  · rw [received_append_recvData, hnil, if_pos ⟨rfl, rfl⟩]
    exact carried_create _ src target payload
  · rcases getElem?_concat_cases hv with hv | ⟨hj, -⟩
    · rw [hnobody j v hv] at hs
      cases hs
    · exact hj

theorem served_create_other {c : UdpClient α σ ρ} {src src' : α} {target target' : Socks5Address}
    {payloads : List Bytes} (h : Served env c src' target' payloads) (hpair : ¬ (src = src' ∧ target = target'))
    (payload : Bytes) :
    Served env { c with tunnels := c.tunnels ++ [createUdpTunnel env c.tunnels.length src target payload] } src'
      target' payloads := by
  rcases h with ⟨hnil, hnobody⟩ | ⟨j, u, hu, hs, hcarried, huniq⟩
  · refine .inl ⟨hnil, fun j v hv => ?_⟩
    rcases getElem?_concat_cases hv with hv | ⟨-, rfl⟩
    · exact hnobody j v hv
    · by_contra hs
      exact hpair (serves_createUdpTunnel.1 (by simpa using hs))
  · refine .inr ⟨j, u, getElem?_concat_old hu _, hs, hcarried, fun k v hv hvs => ?_⟩
    rcases getElem?_concat_cases hv with hv | ⟨-, rfl⟩
    · exact huniq k v hv hvs
    · exact absurd (serves_createUdpTunnel.1 hvs) hpair

/-- A datagram for a pair that no tunnel in the set serves. -/
theorem Inv.create {c : UdpClient α σ ρ} {es : List (UdpEvent α)} (h : Inv env c es) {src : α}
    {target : Socks5Address} (payload : Bytes)
    (hnone : ∀ u ∈ c.tunnels, (u.inSet && u.serves src target) = false) :
    Inv env { c with tunnels := c.tunnels ++ [createUdpTunnel env c.tunnels.length src target payload] }
      (es ++ [.recvData src target payload]) := by
  refine ⟨⟨h.alive, fun src' target' hlive => ?_⟩, fun j v hv => ?_, fun j v hv hset => ?_⟩
  · have hbefore : NoneTerminated c src' target' := fun j u hu => hlive j u (getElem?_concat_old hu _)
    have hserved := h.served src' target' hbefore
    by_cases hpair : src = src' ∧ target = target'
    · obtain ⟨rfl, rfl⟩ := hpair
      exact served_create hserved (fun j u hu => h.not_serves hnone hbefore hu) payload
    · rw [received_append_recvData, if_neg hpair, List.append_nil]
      exact served_create_other hserved hpair payload
  · rcases getElem?_concat_cases hv with hv | ⟨-, rfl⟩
    · exact h.udp j v hv
    · rfl
  · rcases getElem?_concat_cases hv with hv | ⟨-, rfl⟩
    · exact h.removed j v hv hset
    · cases hset

/-- A datagram for a tunnel that is there goes behind what that tunnel carries. -/
theorem Inv.take {c : UdpClient α σ ρ} {es : List (UdpEvent α)} (h : Inv env c es) {i : ℕ}
    {u : UdpTunnel α σ ρ} (hu : c.tunnels[i]? = some u) {src : α} {target : Socks5Address}
    (hserves : u.serves src target = true) (payload : Bytes) :
    Inv env { c with tunnels := c.tunnels.modify i fun u => u.take env payload }
      (es ++ [.recvData src target payload]) := by
  have hpair := (serves_iff _ _ _).1 hserves
  refine h.modify ?_ ?_
  · intro v hv
    have hvu : v = u := Option.some.inj (hv.symm.trans hu)
    obtain ⟨hsrc, hset, hfollows⟩ := take_follows env v payload
    refine ⟨hsrc, hfollows, fun hc => .inl (hset.symm.trans hc), ?_⟩
    intro src' target' hs hcarried hlive
    have hpair' := (serves_iff _ _ _).1 hs
    rw [hvu] at hpair'
    have heq : src = src' ∧ target = target' :=
      ⟨hpair.1.symm.trans hpair'.1, Option.some.inj (hpair.2.symm.trans hpair'.2)⟩
    rw [received_append_recvData, if_pos heq]
    exact hcarried.take payload hlive
  · intro src' target' hs
    rw [received_append_recvData, if_neg, List.append_nil]
    rintro ⟨rfl, rfl⟩
    have hno := hs _ hu
    rw [hserves] at hno
    cases hno

theorem Inv.recvData {c : UdpClient α σ ρ} {es : List (UdpEvent α)} {src : α} {target : Socks5Address}
    {payload : Bytes} (h : Inv env c es) (hocc : UdpOccurs c (.recvData src target payload))
    (hsound : Sound env c (.recvData src target payload)) :
    Inv env (udpStep env c (.recvData src target payload)) (es ++ [.recvData src target payload]) := by
  by_cases hlen : 10 ≤ (udpDatagram target payload).length
  swap
  · -- too short for the listener, which does not look at it
    rw [udpStep_short env c src (by omega)]
    refine h.unseen fun src' target' hlive => ?_
    rw [received_append_recvData, if_neg, List.append_nil]
    rintro ⟨rfl, rfl⟩
    exact hlen (hsound.longEnough hlive)
  rw [udpStep, if_pos hsound.survives, udpCallback, udpOnRecvData, parse_udpDatagram hocc.1 hlen]
  dsimp only
  rw [if_neg (by simp)]
  cases hfind : c.tunnels.findIdx? fun u => u.inSet && u.serves src target with
  | none =>
      rw [List.findIdx?_eq_none_iff] at hfind
      exact h.create payload hfind
  | some i =>
      obtain ⟨hi, hpred, -⟩ := List.findIdx?_eq_some_iff_getElem.1 hfind
      rw [Bool.and_eq_true] at hpred
      exact h.take (List.getElem?_eq_getElem hi) hpred.2 payload

theorem Inv.step {c : UdpClient α σ ρ} {es : List (UdpEvent α)} {e : UdpEvent α} (h : Inv env c es)
    (hocc : UdpOccurs c e) (hsound : Sound env c e) : Inv env (udpStep env c e) (es ++ [e]) := by
  have hstep : udpStep env c e = udpCallback env c e := if_pos hsound.survives
  cases e with
  | recvData src target payload => exact h.recvData hocc hsound
  | established i key status =>
      have hsame : ∀ src target, received src target (es ++ [UdpEvent.established i key status]) =
          received src target es := fun _ _ => by simp [received]
      rw [hstep, udpCallback]
      -- a callback of a tunnel that is not there changes nothing
      cases hu : c.tunnels[i]? with
      | none => exact h.unseen fun src target _ => hsame src target
      | some u =>
          dsimp only
          obtain ⟨d, hd⟩ := Option.isSome_iff_exists.1 (h.udp i u hu)
          cases hr : tlsCliOnConnectionEstablished env.toTlsEnv key u.tunnel status with
          | none =>
              exact absurd hr ((established_ne_none_iff key hd).2 fun hstatus hlive =>
                hsound.longEnough hstatus u d hu hlive hd)
          | some r =>
              refine h.modify ?_ fun src target _ => hsame src target
              intro v hv
              have hvu : v = u := Option.some.inj (hv.symm.trans hu)
              subst hvu
              refine ⟨rfl, established_follows _ key _ status hr, fun hc => .inl hc, ?_⟩
              intro src target _ hcarried hlive
              rw [hsame]
              exact hcarried.established (hocc v hu) hr hlive
  | dataReceived i status data =>
      have hsame : ∀ src target, received src target (es ++ [UdpEvent.dataReceived i status data]) =
          received src target es := fun _ _ => by simp [received]
      rw [hstep]
      refine h.modify ?_ fun src target _ => hsame src target
      intro u hu
      refine ⟨rfl, dataReceived_follows _ _ _ _, fun hc => .inl hc, ?_⟩
      intro src target _ hcarried hlive
      rw [hsame]
      exact hcarried.dataReceived (hocc u hu) status data hlive
  | shutdown i =>
      have hsame : ∀ src target, received src target (es ++ [UdpEvent.shutdown i]) =
          received src target es := fun _ _ => by simp [received]
      rw [hstep]
      refine h.modify ?_ fun src target _ => hsame src target
      intro u hu
      refine ⟨rfl, shutdown_follows _, fun hc => .inl hc, ?_⟩
      intro src target _ _ hlive
      cases hlive
  | destroyed i =>
      have hsame : ∀ src target, received src target (es ++ [UdpEvent.destroyed i]) =
          received src target es := fun _ _ => by simp [received]
      rw [hstep]
      refine h.modify ?_ fun src target _ => hsame src target
      intro u hu
      have hterm := hocc u hu
      refine ⟨rfl, ⟨rfl, id⟩, fun _ => .inr hterm, ?_⟩
      intro src target _ _ hlive
      rw [hterm] at hlive
      cases hlive

/-- Before the first datagram. -/
def freshUdpClient : UdpClient α σ ρ := ⟨[], true⟩

theorem inv_run {c : UdpClient α σ ρ} {es : List (UdpEvent α)} (h : Inv env c es)
    {es' : List (UdpEvent α)}
    (hrun : Legal (fun c e => UdpOccurs c e ∧ Sound env c e) (udpStep env) c es') :
    Inv env (es'.foldl (udpStep env) c) (es ++ es') := by
  induction es' generalizing c es with
  | nil =>
      rw [List.append_nil]
      exact h
  | cons e es' ih =>
      have hnext := ih (h.step hrun.1.1 hrun.1.2) hrun.2
      rw [List.append_assoc, List.singleton_append] at hnext
      exact hnext

theorem inv_fresh (env : UdpEnv σ ρ) : Inv env (freshUdpClient : UdpClient α σ ρ) [] := by
  refine ⟨⟨rfl, fun src target _ => .inl ⟨rfl, ?_⟩⟩, ?_, ?_⟩
  · intro i u hu
    cases hu
  · intro i u hu
    cases hu
  · intro i u hu
    cases hu

/-- A client accounts for one history of a pair only. -/
theorem Served.length_eq {c : UdpClient α σ ρ} {src : α} {target : Socks5Address}
    {payloads payloads' : List Bytes} (h : Served env c src target payloads)
    (h' : Served env c src target payloads') : payloads.length = payloads'.length := by
  rcases h with ⟨rfl, hnobody⟩ | ⟨i, u, hu, hs, hcarried, huniq⟩
  · rcases h' with ⟨rfl, -⟩ | ⟨i, u, hu, hs, -⟩
    · rfl
    · rw [hnobody i u hu] at hs
      cases hs
  · rcases h' with ⟨-, hnobody⟩ | ⟨j, v, hv, hvs, hcarried', -⟩
    · rw [hnobody i u hu] at hs
      cases hs
    · have hj := huniq j v hv hvs
      subst hj
      have huv : v = u := Option.some.inj (hv.symm.trans hu)
      subst huv
      obtain ⟨d, hd, hlen⟩ := hcarried.length
      obtain ⟨d', hd', hlen'⟩ := hcarried'.length
      have hdd : d' = d := Option.some.inj (hd'.symm.trans hd)
      rw [hlen, hlen', hdd]

/-- A step that goes wrong breaks the order. -/
theorem Inv.sound_of_inOrder {c : UdpClient α σ ρ} {es : List (UdpEvent α)} {e : UdpEvent α}
    (h : Inv env c es) (hnext : InOrder env (udpStep env c e) (es ++ [e])) : Sound env c e := by
  have hlives : Survives env c e := by
    by_contra hcon
    have halive := hnext.alive
    rw [udpStep, if_neg hcon] at halive
    cases halive
  refine ⟨?_, hlives⟩
  cases e with
  | recvData src target payload =>
      intro hlive
      by_contra hlen
      rw [udpStep_short env c src (by omega)] at hnext
      have hlength := (hnext.served src target hlive).length_eq (h.served src target hlive)
      rw [received_append_recvData, if_pos ⟨rfl, rfl⟩, List.length_append, List.length_singleton] at hlength
      omega
  | established i key status =>
      intro hstatus u d hu hlive hd
      by_contra hlen
      have hnone : tlsCliOnConnectionEstablished env.toTlsEnv key u.tunnel status = none := by
        by_contra hcon
        exact hlen ((established_ne_none_iff key hd).1 hcon hstatus hlive)
      have halive := hnext.alive
      rw [udpStep, if_pos hlives, udpCallback, hu] at halive
      dsimp only at halive
      rw [hnone] at halive
      cases halive
  | dataReceived i status data => trivial
  | shutdown i => trivial
  | destroyed i => trivial

theorem legal_of_inOrder {c : UdpClient α σ ρ} {es : List (UdpEvent α)} (h : Inv env c es)
    {es' : List (UdpEvent α)} (hocc : Legal UdpOccurs (udpStep env) c es')
    (hall : ∀ es₁ es₂, es' = es₁ ++ es₂ → InOrder env (es₁.foldl (udpStep env) c) (es ++ es₁)) :
    Legal (Sound env) (udpStep env) c es' := by
  induction es' generalizing c es with
  | nil => trivial
  | cons e es' ih =>
      have hsound : Sound env c e := h.sound_of_inOrder (hall [e] es' rfl)
      refine ⟨hsound, ih (h.step hocc.1 hsound) hocc.2 ?_⟩
      rintro es₁ es₂ rfl
      have hnext := hall (e :: es₁) es₂ rfl
      rw [List.append_assoc, List.singleton_append]
      exact hnext

end Client

/-! ## Runs that go wrong -/

section Sample

def sampleUdpEnv : UdpEnv Unit Unit where
  toTlsEnv := sampleTlsEnv
  tunnelCipherCreate _ := ((), ())
  tunnelMasks _ _ _ := 0

/-- 10.0.0.1, port 53. -/
def sampleTarget : Socks5Address := ⟨.ipv4, [10, 0, 0, 1], 53⟩

/-- The host `a`, port 53. -/
def shortTarget : Socks5Address := ⟨.domainname, domainArray [97], 53⟩

theorem sampleTarget_wellFormed : sampleTarget.WellFormed := ⟨by decide, rfl⟩

theorem shortTarget_wellFormed : shortTarget.WellFormed := by
  have hname : Bytes.cString (domainArray [97]) = [97] := by decide
  refine ⟨by decide, ?_, ?_⟩
  · rw [shortTarget, hname]
    decide
  · rw [shortTarget, hname]

/-- A first datagram, and the connection of its tunnel. -/
def sampleRun (payload : Bytes) : List (UdpEvent ℕ) :=
  [.recvData 7 sampleTarget payload, .established 0 sampleKey 0]

theorem udpStep_sample {payload : Bytes} (hne : payload ≠ []) :
    udpStep sampleUdpEnv freshUdpClient (.recvData 7 sampleTarget payload) =
      ⟨[createUdpTunnel sampleUdpEnv 0 7 sampleTarget payload], true⟩ := by
  have hpos : 0 < payload.length := List.length_pos_of_ne_nil hne
  have hsize : sampleTarget.size = 7 := rfl
  have hlen := udpDatagram_length sampleTarget_wellFormed payload
  have hlives : Survives sampleUdpEnv freshUdpClient (.recvData 7 sampleTarget payload) := nofun
  rw [udpStep, if_pos hlives, udpCallback, udpOnRecvData,
    parse_udpDatagram sampleTarget_wellFormed (by omega)]
  rfl

theorem sampleRun_occurs {payload : Bytes} (hne : payload ≠ []) :
    Legal UdpOccurs (udpStep sampleUdpEnv) freshUdpClient (sampleRun payload) := by
  refine ⟨⟨sampleTarget_wellFormed, hne⟩, ?_, trivial⟩
  rw [udpStep_sample hne]
  intro u hu
  cases hu
  rfl

end Sample

end Client
end SsrNative
