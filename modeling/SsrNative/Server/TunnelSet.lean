import SsrNative.CstlSet
import SsrNative.TunnelLifetime
import SsrNative.Server.Dispatcher

/-!
# TunnelSet — the tunnels of a server

A tunnel is in the set of its server from `init_done_cb` on until it is destroyed.  Connections, the callbacks of all
the tunnels and the shutdown of the server may come in any order.

The traversal of `server_shutdown` can go on because no tunnel is destroyed while it is shut down: the sockets of an
open tunnel are open (`SocketsOpen`), and their handles have yet to be closed.
-/

namespace SsrNative
namespace Tunnel

open Lib Lib.Transition RbtTree CstlSet

variable {δ : Type}

/-! ## Open tunnels -/

def SocketsOpen (t : TunnelCtx δ) : Prop := t.isTerminated = false → ∀ side, (t.socket side).isTerminated = false

/-- Neither the tunnel nor a socket is closed or opened. -/
structure SameFlags (t t' : TunnelCtx δ) : Prop where
  tunnel_eq : t'.isTerminated = t.isTerminated
  socket_eq : ∀ side, (t'.socket side).isTerminated = (t.socket side).isTerminated

section Flags

variable {t t' t'' : TunnelCtx δ} {h : Handlers δ}

theorem SameFlags.open (hflags : SameFlags t t') (ht : SocketsOpen t) : SocketsOpen t' := fun hopen side =>
  (hflags.socket_eq side).trans (ht (hflags.tunnel_eq.symm.trans hopen) side)

theorem SameFlags.refl (t : TunnelCtx δ) : SameFlags t t := ⟨rfl, fun _ => rfl⟩

theorem SameFlags.trans (hflags : SameFlags t t') (hflags' : SameFlags t' t'') : SameFlags t t'' :=
  ⟨hflags'.tunnel_eq.trans hflags.tunnel_eq, fun side => (hflags'.socket_eq side).trans (hflags.socket_eq side)⟩

theorem sameFlags_setSocket {side : Side} {s : SocketCtx} (hs : s.isTerminated = (t.socket side).isTerminated) :
    SameFlags t (t.setSocket side s) := by
  refine ⟨setSocket_isTerminated t side s, fun side' => ?_⟩
  by_cases hside : side' = side
  · subst hside
    rw [socket_setSocket, hs]
  · rw [socket_setSocket_ne t hside]

theorem sameFlags_check (t : TunnelCtx δ) (b : Bool) : SameFlags t (t.check b) :=
  ⟨check_isTerminated t b, fun side => by rw [check_socket]⟩

theorem sameFlags_release (t : TunnelCtx δ) : SameFlags t (tunnelCtxRelease t) :=
  ⟨tunnelCtxRelease_isTerminated t, fun side => (tunnelCtxRelease_socket t side).1⟩

theorem sameFlags_onOpenSocket {side : Side} {f : SocketCtx → SocketCtx}
    (hf : ∀ s, (f s).isTerminated = s.isTerminated) : SameFlags t (onOpenSocket t side f) := by
  rw [onOpenSocket]
  split_ifs
  · exact sameFlags_check t false
  · exact sameFlags_setSocket (hf _)

theorem SocketsOpen.setSocket {side : Side} {s : SocketCtx} (ht : SocketsOpen t)
    (hs : s.isTerminated = (t.socket side).isTerminated) : SocketsOpen (t.setSocket side s) :=
  (sameFlags_setSocket hs).open ht

theorem SocketsOpen.onOpenSocket {side : Side} {f : SocketCtx → SocketCtx} (ht : SocketsOpen t)
    (hf : ∀ s, (f s).isTerminated = s.isTerminated) : SocketsOpen (onOpenSocket t side f) :=
  (sameFlags_onOpenSocket hf).open ht

theorem sameFlags_setStates (t : TunnelCtx δ) (side : Side) (rd wr : SocketState) :
    SameFlags t (setStates t side rd wr) := sameFlags_setSocket rfl

theorem sameFlags_setResult (t : TunnelCtx δ) (side : Side) (result : ℤ) : SameFlags t (setResult t side result) :=
  sameFlags_setSocket rfl

theorem sameFlags_readStopped (t : TunnelCtx δ) (side : Side) : SameFlags t (readStopped h t side) := by
  refine (sameFlags_check t _).trans (sameFlags_setSocket ?_)
  rw [check_socket]

theorem isTerminated_tunnelShutdown (t : TunnelCtx δ) : (tunnelShutdown t).isTerminated = true := by
  unfold tunnelShutdown
  split_ifs with hterm
  · exact hterm
  · rw [tunnelCtxRelease_isTerminated, socketCtxClose_isTerminated]
    exact socketCtxClose_isTerminated (tunnelCtxAddRef { t with isTerminated := true }) .incoming

theorem socketsOpen_shutdown (t : TunnelCtx δ) : SocketsOpen (tunnelShutdown t) := fun hopen =>
  absurd (hopen.symm.trans (isTerminated_tunnelShutdown t)) Bool.false_ne_true

theorem socketsOpen_apiSteps (hsteps : ApiSteps t t') (ht : SocketsOpen t) : SocketsOpen t' := by
  induction hsteps with
  | refl => exact ht
  | tail _ hstep ih =>
      cases hstep with
      | data d => exact ih
      | check b => exact (sameFlags_check _ b).open ih
      | states side rd wr => exact (sameFlags_setStates _ side rd wr).open ih
      | read side b =>
          refine SocketsOpen.onOpenSocket ((sameFlags_check _ _).open ih) ?_
          exact fun _ => rfl
      | write side d => exact ih.onOpenSocket (by exact fun _ => rfl)
      | connect side => exact ih.onOpenSocket (by exact fun _ => rfl)
      | getaddrinfo side => exact ih.onOpenSocket (by exact fun _ => rfl)
      | shutdown => exact socketsOpen_shutdown _

theorem socketsOpen_readDone (hh : h.UsesApi) (side : Side) (data : Bytes) (ht : SocketsOpen t) :
    SocketsOpen (uvSocketReadDoneCb h t side data) := by
  unfold uvSocketReadDoneCb
  extract_lets u v
  have hu : SocketsOpen u := (sameFlags_setResult t side _).open ht
  have hready : SocketsOpen (readReady h u side) :=
    ((sameFlags_readStopped u side).trans (sameFlags_setStates _ side _ _)).open hu
  have hv : SocketsOpen v := socketsOpen_apiSteps (hh.readDone _ side data) hready
  split_ifs
  · exact hu
  · exact hu
  · exact hv
  · exact hv.onOpenSocket (by exact fun _ => rfl)
  · exact hv

theorem socketsOpen_readFailed (hh : h.UsesApi) (side : Side) (eof : Bool) (ht : SocketsOpen t) :
    SocketsOpen (uvSocketReadFailedCb h t side eof) := by
  unfold uvSocketReadFailedCb
  extract_lets u v w
  have hu : SocketsOpen u := (sameFlags_setResult t side _).open ht
  have hw : SocketsOpen w := ((sameFlags_readStopped u side).trans (sameFlags_setStates _ side _ _)).open hu
  split_ifs
  · exact hu
  · exact socketsOpen_apiSteps (hh.endOfFile _ side) hw
  · exact socketsOpen_shutdown _

theorem socketsOpen_writeDone (hh : h.UsesApi) (side : Side) (ok : Bool) (ht : SocketsOpen t) :
    SocketsOpen (uvSocketWriteDoneCb h t side ok) := by
  unfold uvSocketWriteDoneCb
  extract_lets s u v
  have hu : SocketsOpen u := ht.setSocket (by rfl)
  have hv : SocketsOpen v := (sameFlags_setResult u side _).open hu
  split_ifs
  · exact hv
  · exact socketsOpen_shutdown _
  · exact socketsOpen_apiSteps (hh.writeDone _ side)
      (((sameFlags_check v _).trans (sameFlags_setStates _ side _ _)).open hv)

theorem socketsOpen_connectDone (hh : h.UsesApi) (side : Side) (ok : Bool) (ht : SocketsOpen t) :
    SocketsOpen (uvSocketConnectDoneCb h t side ok) := by
  unfold uvSocketConnectDoneCb
  extract_lets s u
  have hu : SocketsOpen u := ht.setSocket (by rfl)
  split_ifs
  · exact hu
  · exact socketsOpen_shutdown _
  · exact socketsOpen_apiSteps (hh.connectedDone _ side) hu

theorem socketsOpen_getaddrinfoDone (hh : h.UsesApi) (side : Side) (ok : Bool) (ht : SocketsOpen t) :
    SocketsOpen (uvSocketOnGetaddrinfoCb h t side ok) := by
  unfold uvSocketOnGetaddrinfoCb
  extract_lets s u
  have hu : SocketsOpen u := ht.setSocket (by rfl)
  split_ifs
  · exact hu
  · exact socketsOpen_shutdown _
  · exact socketsOpen_apiSteps (hh.getaddrinfoDone _ side) hu

theorem socketsOpen_timeout (side : Side) (ht : SocketsOpen t) : SocketsOpen (uvSocketTimerExpireCb h t side) := by
  unfold uvSocketTimerExpireCb
  extract_lets s u v s'
  have hu : SocketsOpen u := ht.setSocket (by rfl)
  have hv : SocketsOpen v := by
    by_cases hterm : u.isTerminated = true
    · have heq : v = u := if_pos hterm
      rwa [heq]
    · have heq : v = tunnelShutdown (h.tunnelTimeoutExpireDone u side) := if_neg hterm
      rw [heq]
      exact socketsOpen_shutdown _
  exact hv.setSocket (by rfl)

theorem sameFlags_closeDone (t : TunnelCtx δ) (side : Side) : SameFlags t (uvSocketCloseDoneCb t side) := by
  unfold uvSocketCloseDoneCb
  extract_lets s u u1 u2 s2 u3 s3
  have hu : SameFlags t u := sameFlags_setSocket (by rfl)
  have hu3 : SameFlags u u3 := by
    simp only [u3]
    split_ifs
    · exact ((sameFlags_check u _).trans (sameFlags_release u1)).trans (sameFlags_setSocket (by rfl))
    · exact sameFlags_check u _
    · exact SameFlags.refl u
  exact (hu.trans hu3).trans (sameFlags_setSocket (by rfl))

/-- Callbacks close a tunnel and its sockets together. -/
theorem socketsOpen_step (hh : h.UsesApi) {e : Event} (hcallback : e.callback?.isSome = true) (ht : SocketsOpen t) :
    SocketsOpen (step h t e) := by
  cases e with
  | read side data => exact socketsOpen_readDone hh side data ht
  | readFailed side eof => exact socketsOpen_readFailed hh side eof ht
  | written side ok => exact socketsOpen_writeDone hh side ok ht
  | connected side ok => exact socketsOpen_connectDone hh side ok ht
  | resolved side ok => exact socketsOpen_getaddrinfoDone hh side ok ht
  | timeout side => exact socketsOpen_timeout side ht
  | handleClosed side => exact (sameFlags_closeDone _ side).open (ht.setSocket (by rfl))
  | timerClosed side => exact (sameFlags_closeDone _ side).open (ht.setSocket (by rfl))
  | shutdown => cases hcallback
  | close side => cases hcallback

theorem socketsOpen_initialize (data : δ) (listener success : Bool) :
    SocketsOpen (tunnelInitialize data listener success) := by
  unfold tunnelInitialize
  extract_lets t0 t1
  have h1 : SocketsOpen t1 := fun _ side => by cases side <;> rfl
  split_ifs
  · exact socketsOpen_apiSteps (.tail (.refl t1) (.read t1 .incoming true)) h1
  · exact h1
  · exact socketsOpen_shutdown t1

theorem socketCtxClose_counts {side : Side} (hopen : (t.socket side).isTerminated = false) :
    (socketCtxClose t side).refCount = t.refCount ∧ (socketCtxClose t side).destroyed = t.destroyed := by
  rcases socketCtxClose_of_open hopen with ⟨b, heq⟩
  rw [heq, setSocket_refCount, check_refCount, setSocket_destroyed, check_destroyed]
  exact ⟨rfl, rfl⟩

/-- A tunnel that is shut down waits for its sockets. -/
theorem shutdown_destroyed {pin : Side → ℤ} (hgood : Good pin t) (ht : SocketsOpen t) :
    (tunnelShutdown t).destroyed = t.destroyed := by
  unfold tunnelShutdown
  split_ifs with hterm
  · rfl
  · have hopen := ht (Bool.eq_false_iff.2 hterm)
    unfold Good at hgood
    rw [if_neg hterm] at hgood
    have href := hgood.refCount_ge
    extract_lets t0 t1 t2
    have h0 : ∀ side, (t0.socket side).isTerminated = false := fun side => by
      cases side
      · exact hopen .incoming
      · exact hopen .outgoing
    have hin : ((tunnelCtxAddRef t0).socket .incoming).isTerminated = false := by
      rw [tunnelCtxAddRef_socket]
      exact h0 .incoming
    have h1 : t1.refCount = t.refCount + 1 ∧ t1.destroyed = t.destroyed := socketCtxClose_counts hin
    have hout : ((tunnelCtxAddRef t1).socket .outgoing).isTerminated = false := by
      rcases socketCtxClose_of_open hin with ⟨b, heq⟩
      rw [tunnelCtxAddRef_socket]
      simp only [t1, heq]
      rw [socket_setSocket_ne _ (by decide), check_socket, tunnelCtxAddRef_socket]
      exact h0 .outgoing
    have h2 : t2.refCount = t1.refCount + 1 ∧ t2.destroyed = t1.destroyed := socketCtxClose_counts hout
    rw [tunnelCtxRelease_of_more (by omega)]
    exact h2.2.trans h1.2

end Flags

/-! ## The server -/

/-- The set of tunnels, and the tunnels that were allocated; one that is destroyed stays with its count. -/
structure Env (δ : Type) where
  tunnelSet : CstlSet Ptr
  tunnels : Ptr → Option (TunnelCtx δ)

/-- The environment of a server that has just been started. -/
def Env.start (δ : Type) : Env δ := ⟨cstlSetNew, fun _ => none⟩

inductive EnvEvent (δ : Type) where
  /-- A connection has come in.  The allocator answers with `p` and, for the node of the set, with `z`; `success` is
  what `is_incoming_ip_legal` says. -/
  | accept (p z : Ptr) (data : δ) (success : Bool)
  | callback (p : Ptr) (e : Event)
  | shutdown

section Code

variable (h : Handlers δ) (fuel : ℕ)

namespace Env

/-- Access to a tunnel, which fails when it is destroyed. -/
def tunnel (E : Env δ) (p : Ptr) : Option (TunnelCtx δ) := do
  let t ← E.tunnels p
  guard (t.destroyed = 0)
  return t

/-- A tunnel has changed from `t` to `t'`; `tunnel_destroying` takes one that was destroyed out of the set. -/
def settle (E : Env δ) (p : Ptr) (t t' : TunnelCtx δ) : Option (Env δ) := do
  let set ← (if t.destroyed < t'.destroyed then
    E.tunnelSet.cstlSetContainerRemove tunnelCtxCompareForCSet fuel p else some E.tunnelSet)
  return ⟨set, Function.update E.tunnels p (some t')⟩

/-- `server_tunnel_initialize` with `_init_done_cb`. -/
def serverTunnelInitialize (E : Env δ) (p z : Ptr) (data : δ) (success : Bool) : Option (Env δ) := do
  let set ← E.tunnelSet.cstlSetContainerAdd tunnelCtxCompareForCSet fuel p (some z)
  return ⟨set, Function.update E.tunnels p (some (tunnelInitialize data true success))⟩

def callback (E : Env δ) (p : Ptr) (e : Event) : Option (Env δ) := do
  let t ← E.tunnel p
  E.settle fuel p t (Tunnel.step h t e)

/-- `_do_shutdown_tunnel` -/
def doShutdownTunnel (obj : Ptr) (E : Env δ) : Option (Env δ × Bool) := do
  let t ← E.tunnel obj
  let E ← E.settle fuel obj t (tunnelShutdown t)
  return (E, false)

/-- `server_shutdown` -/
def serverShutdown (E : Env δ) : Option (Env δ) :=
  cstlSetContainerTraverse fuel tunnelSet (doShutdownTunnel fuel) fuel E

def step (E : Env δ) : EnvEvent δ → Option (Env δ)
  | .accept p z data success => E.serverTunnelInitialize fuel p z data success
  | .callback p e => E.callback h fuel p e
  | .shutdown => E.serverShutdown fuel

/-- What may happen: the allocator hands out memory that is not in use, and no lookup is in flight on a socket that is
closed. -/
def Occurs (E : Env δ) : EnvEvent δ → Prop
  | .accept p z _ _ => (∀ t, E.tunnels p = some t → t.destroyed ≠ 0) ∧ E.tunnelSet.tree.nodes z = none
  | .callback p e => ∃ t, E.tunnels p = some t ∧ e.callback?.isSome = true ∧ Enabled t e ∧ CancelsNoLookup h t e
  | .shutdown => ∀ p t, E.tunnels p = some t → CancelsNoLookup h t .shutdown

end Env

end Code

/-- What holds of every tunnel. -/
structure TunnelOk (t : TunnelCtx δ) : Prop where
  good : Good (fun _ => 0) t
  open_ : SocketsOpen t
  lookups : ∀ side, (t.socket side).isTerminated = true → (t.socket side).lookups = 0

theorem TunnelOk.terminated_of_destroyed {t : TunnelCtx δ} (hok : TunnelOk t) (hd : t.destroyed ≠ 0) :
    t.isTerminated = true := by
  by_contra hopen
  have hgood := hok.good
  unfold Good at hgood
  rw [if_neg hopen] at hgood
  have href := hgood.refCount_ge
  exact hd (hgood.destroyed_eq_zero (by omega))

theorem TunnelOk.closed_of_terminated {t : TunnelCtx δ} (hok : TunnelOk t) (hterm : t.isTerminated = true)
    (side : Side) : (t.socket side).isTerminated = true := by
  have hgood := hok.good
  unfold Good at hgood
  rw [if_pos hterm] at hgood
  exact hgood.all_closed rfl side

namespace Env

/-- The set has the tunnels in it that are not destroyed. -/
structure Inv (n : ℕ) (E : Env δ) : Prop where
  exists_stores : ∃ elems, Stores tunnelCtxCompareForCSet E.tunnelSet elems ∧ elems.length ≤ n ∧
    ∀ p, p ∈ elems.map Prod.snd ↔ ∃ t, E.tunnels p = some t ∧ t.destroyed = 0
  tunnel_ok : ∀ p t, E.tunnels p = some t → TunnelOk t

theorem inv_start : (start δ).Inv 0 where
  exists_stores := by
    refine ⟨[], stores_new _, le_rfl, fun p => iff_of_false List.not_mem_nil ?_⟩
    rintro ⟨t, ht, _⟩
    cases ht
  tunnel_ok _ _ ht := by cases ht

variable {E : Env δ} {n fuel : ℕ} {p : Ptr} {t t' : TunnelCtx δ} {h : Handlers δ}

theorem Inv.succ (hinv : E.Inv n) : E.Inv (n + 1) := by
  rcases hinv.exists_stores with ⟨elems, hS, hlength, hmem⟩
  exact ⟨⟨elems, hS, hlength.trans (Nat.le_succ n), hmem⟩, hinv.tunnel_ok⟩

theorem tunnel_eq_some_iff : E.tunnel p = some t ↔ E.tunnels p = some t ∧ t.destroyed = 0 := by
  rw [tunnel]
  cases E.tunnels p with
  | none => simp
  | some u =>
      by_cases hd : u.destroyed = 0
      · simp only [Option.bind_eq_bind, Option.bind_some, hd, guard, if_true]
        exact ⟨fun heq => ⟨heq, Option.some.inj heq ▸ hd⟩, fun heq => heq.1⟩
      · simp only [Option.bind_eq_bind, Option.bind_some, hd, guard, if_false]
        exact iff_of_false nofun fun heq => hd (Option.some.inj heq.1 ▸ heq.2)

theorem tunnel_eq (ht : E.tunnels p = some t) (hd : t.destroyed = 0) : E.tunnel p = some t :=
  tunnel_eq_some_iff.2 ⟨ht, hd⟩

theorem forall_update {Q : TunnelCtx δ → Prop} (hall : ∀ q u, E.tunnels q = some u → Q u) (hself : Q t') :
    ∀ q u, Function.update E.tunnels p (some t') q = some u → Q u := by
  intro q u hu
  by_cases hq : q = p
  · subst hq
    rw [Function.update_self] at hu
    exact Option.some.inj hu ▸ hself
  · rw [Function.update_of_ne hq] at hu
    exact hall q u hu

theorem live_update_iff {q : Ptr} :
    (∃ u, Function.update E.tunnels p (some t') q = some u ∧ u.destroyed = 0) ↔
      if q = p then t'.destroyed = 0 else ∃ u, E.tunnels q = some u ∧ u.destroyed = 0 := by
  by_cases hq : q = p
  · subst hq
    rw [if_pos rfl, Function.update_self]
    simp
  · rw [if_neg hq, Function.update_of_ne hq]

/-- A tunnel that has not been destroyed stays in the set, and one that has is taken out. -/
theorem settle_spec (hinv : E.Inv n) (hfuel : stepBound n ≤ fuel) (ht : E.tunnels p = some t) (hd : t.destroyed = 0)
    (hok : TunnelOk t') :
    ∃ E', E.settle fuel p t t' = some E' ∧ E'.Inv n ∧ E'.tunnels = Function.update E.tunnels p (some t') ∧
      (t'.destroyed = 0 → E'.tunnelSet = E.tunnelSet) := by
  rcases hinv.exists_stores with ⟨elems, hS, hlength, hmem⟩
  rw [settle, hd]
  by_cases hdestroyed : 0 < t'.destroyed
  · rcases hS.remove_address ((stepBound_mono hlength).trans hfuel) ((hmem p).2 ⟨t, ht, hd⟩) with
      ⟨S', elems', hremove, hS', hshorter, hmem', _⟩
    rw [if_pos hdestroyed, hremove]
    refine ⟨_, rfl, ⟨⟨elems', hS', hshorter.trans hlength, fun q => ?_⟩, forall_update hinv.tunnel_ok hok⟩, rfl,
      fun hzero => absurd hzero hdestroyed.ne'⟩
    rw [hmem', hmem, live_update_iff]
    split_ifs with hq
    · exact iff_of_false (fun hlive => hlive.2 hq) hdestroyed.ne'
    · exact and_iff_left hq
  · have hzero : t'.destroyed = 0 := Nat.eq_zero_of_not_pos hdestroyed
    rw [if_neg hdestroyed]
    refine ⟨_, rfl, ⟨⟨elems, hS, hlength, fun q => ?_⟩, forall_update hinv.tunnel_ok hok⟩, rfl, fun _ => rfl⟩
    rw [hmem, live_update_iff]
    split_ifs with hq
    · exact iff_of_true ⟨t, hq ▸ ht, hd⟩ hzero
    · exact Iff.rfl

theorem accept_spec (hinv : E.Inv n) (hfuel : stepBound (n + 1) ≤ fuel) {z : Ptr} {data : δ} {success : Bool}
    (hfree : ∀ t, E.tunnels p = some t → t.destroyed ≠ 0) (hz : E.tunnelSet.tree.nodes z = none) :
    ∃ E', E.serverTunnelInitialize fuel p z data success = some E' ∧ E'.Inv (n + 1) := by
  rcases hinv.exists_stores with ⟨elems, hS, hlength, hmem⟩
  have hnew : p ∉ elems.map Prod.snd := by
    rw [hmem]
    rintro ⟨t, ht, hd⟩
    exact hfree t ht hd
  have hgood := good_initialize data true success
  have hok : TunnelOk (tunnelInitialize data true success) :=
    ⟨hgood, socketsOpen_initialize data true success,
      fun side _ => closed_lookups_initialize data true success side⟩
  have hd : (tunnelInitialize data true success).destroyed = 0 := by cases success <;> rfl
  rcases hS.add_address ((stepBound_mono (Nat.succ_le_succ hlength)).trans hfuel) hnew hz with
    ⟨S', elems', hadd, hS', hlength', hmem'⟩
  refine ⟨⟨S', Function.update E.tunnels p (some (tunnelInitialize data true success))⟩, ?_,
    ⟨elems', hS', by omega, fun q => ?_⟩, forall_update hinv.tunnel_ok hok⟩
  · rw [serverTunnelInitialize, hadd]
    rfl
  · rw [hmem', hmem, live_update_iff]
    split_ifs with hq
    · exact iff_of_true (Or.inl hq) hd
    · exact or_iff_right hq

/-- Every callback finds its tunnel. -/
theorem callback_spec (hh : h.UsesApi) (hinv : E.Inv n) (hfuel : stepBound n ≤ fuel) {e : Event}
    (ht : E.tunnels p = some t) (he : e.callback?.isSome = true) (hen : Enabled t e) (hcancel : CancelsNoLookup h t e) :
    ∃ E', E.callback h fuel p e = some E' ∧ E'.Inv n := by
  have hok := hinv.tunnel_ok p t ht
  rcases Option.isSome_iff_exists.1 he with ⟨side, hside⟩
  have hd : t.destroyed = 0 := ((hok.good.lifetimeOk hok.lookups).alive_of_callback e side hside hen).2.2
  have hok' : TunnelOk (Tunnel.step h t e) :=
    ⟨good_step hh hok.good hen, socketsOpen_step hh he hok.open_, closed_lookups_step hh hcancel hok.lookups⟩
  rcases settle_spec hinv hfuel ht hd hok' with ⟨E', hsettle, hinv', _⟩
  refine ⟨E', ?_, hinv'⟩
  rw [callback, tunnel_eq ht hd]
  exact hsettle

/-! ### Shutdown -/

/-- A tunnel that is shut down stays in the set. -/
theorem doShutdownTunnel_spec (hh : h.UsesApi) (hinv : E.Inv n) (hfuel : stepBound n ≤ fuel)
    (hcancel : ∀ p t, E.tunnels p = some t → CancelsNoLookup h t .shutdown) (ht : E.tunnels p = some t)
    (hd : t.destroyed = 0) :
    ∃ E', doShutdownTunnel fuel p E = some (E', false) ∧ E'.Inv n ∧
      E'.tunnels = Function.update E.tunnels p (some (tunnelShutdown t)) ∧ E'.tunnelSet = E.tunnelSet := by
  have hok := hinv.tunnel_ok p t ht
  have hok' : TunnelOk (tunnelShutdown t) :=
    ⟨(evolves_shutdown t).good _ hok.good, socketsOpen_shutdown t,
      closed_lookups_step hh (hcancel p t ht) hok.lookups⟩
  rcases settle_spec hinv hfuel ht hd hok' with ⟨E', hsettle, hinv', htunnels, hset⟩
  refine ⟨E', ?_, hinv', htunnels, hset ((shutdown_destroyed hok.good hok.open_).trans hd)⟩
  rw [doShutdownTunnel, tunnel_eq ht hd, Option.bind_eq_bind, Option.bind_some, hsettle]
  rfl

/-- No lookup would be cancelled by a shutdown. -/
def NoLookups (h : Handlers δ) (E : Env δ) : Prop := ∀ p t, E.tunnels p = some t → CancelsNoLookup h t .shutdown

theorem doShutdownTunnel_keeps (hh : h.UsesApi) (hfuel : stepBound n ≤ fuel) (obj : Ptr) (E : Env δ)
    (r : Env δ × Bool) (hE : E.Inv n ∧ E.NoLookups h) (hr : doShutdownTunnel fuel obj E = some r) :
    r.1.tunnelSet = E.tunnelSet ∧ r.1.Inv n ∧ r.1.NoLookups h := by
  rcases Option.bind_eq_some_iff.1 hr with ⟨t, htunnel, _⟩
  rcases tunnel_eq_some_iff.1 htunnel with ⟨ht, hd⟩
  rcases doShutdownTunnel_spec hh hE.1 hfuel hE.2 ht hd with ⟨E', hdo, hinv', htunnels, hset⟩
  obtain rfl := Option.some.inj (hdo.symm.trans hr)
  refine ⟨hset, hinv', ?_⟩
  rw [NoLookups, htunnels]
  refine forall_update hE.2 fun side hopen => ?_
  have hok' := hinv'.tunnel_ok obj (tunnelShutdown t) (by rw [htunnels, Function.update_self])
  exact absurd (hopen.symm.trans (hok'.closed_of_terminated (isTerminated_tunnelShutdown t) side)) Bool.false_ne_true

theorem visit_doShutdownTunnel (hh : h.UsesApi) (hfuel : stepBound n ≤ fuel) {keys : List Ptr}
    (hE : E.Inv n ∧ E.NoLookups h) (hkeys : ∀ p ∈ keys, ∃ t, E.tunnels p = some t ∧ t.destroyed = 0) :
    ∃ E', visit (doShutdownTunnel fuel) keys E = some E' ∧ E'.Inv n ∧
      ∀ p t, E'.tunnels p = some t → t.isTerminated = true ∨ (p ∉ keys ∧ E.tunnels p = some t) := by
  induction keys generalizing E with
  | nil => exact ⟨E, rfl, hE.1, fun p t ht => Or.inr ⟨List.not_mem_nil, ht⟩⟩
  | cons p keys ih =>
      rcases hkeys p (List.mem_cons_self ..) with ⟨t, ht, hd⟩
      rcases doShutdownTunnel_spec hh hE.1 hfuel hE.2 ht hd with ⟨E₁, hdo, _, htunnels, _⟩
      have hE₁ := (doShutdownTunnel_keeps hh hfuel p E (E₁, false) hE hdo).2
      have hd' : (tunnelShutdown t).destroyed = 0 :=
        (shutdown_destroyed (hE.1.tunnel_ok p t ht).good (hE.1.tunnel_ok p t ht).open_).trans hd
      have hkeys₁ : ∀ q ∈ keys, ∃ u, E₁.tunnels q = some u ∧ u.destroyed = 0 := by
        intro q hq
        rw [htunnels, live_update_iff]
        split_ifs
        · exact hd'
        · exact hkeys q (List.mem_cons_of_mem _ hq)
      rcases ih hE₁ hkeys₁ with ⟨E', hvisit, hinv', hterm⟩
      refine ⟨E', ?_, hinv', fun q u hu => ?_⟩
      · rw [visit, hdo]
        exact hvisit
      · rcases hterm q u hu with hterm | ⟨hnot, hu'⟩
        · exact Or.inl hterm
        · by_cases hq : q = p
          · subst hq
            rw [htunnels, Function.update_self] at hu'
            exact Or.inl (Option.some.inj hu' ▸ isTerminated_tunnelShutdown t)
          · rw [htunnels, Function.update_of_ne hq] at hu'
            exact Or.inr ⟨by simp [hq, hnot], hu'⟩

theorem serverShutdown_spec (hh : h.UsesApi) (hE : E.Inv n ∧ E.NoLookups h) (hfuel : stepBound n ≤ fuel)
    (hsteps : n < fuel) :
    ∃ E', E.serverShutdown fuel = some E' ∧ E'.Inv n ∧ ∀ p t, E'.tunnels p = some t → t.isTerminated = true := by
  rcases hE.1.exists_stores with ⟨elems, hS, hlength, hmem⟩
  have htraverse : E.serverShutdown fuel = visit (doShutdownTunnel fuel) (elems.map Prod.snd) E :=
    containerTraverse_eq (doShutdownTunnel_keeps hh hfuel) hE hS ((stepBound_mono hlength).trans hfuel)
      (hlength.trans_lt hsteps)
  rcases visit_doShutdownTunnel hh hfuel hE (fun p hp => (hmem p).1 hp) with ⟨E', hvisit, hinv', hterm⟩
  refine ⟨E', htraverse.trans hvisit, hinv', fun p t ht => ?_⟩
  rcases hterm p t ht with hterm | ⟨hnot, ht'⟩
  · exact hterm
  · exact (hE.1.tunnel_ok p t ht').terminated_of_destroyed fun hd => hnot ((hmem p).2 ⟨t, ht', hd⟩)

/-! ### Runs -/

theorem step_spec (hh : h.UsesApi) (hinv : E.Inv n) (hfuel : 2 * (n + 1) + 2 ≤ fuel) {e : EnvEvent δ}
    (hocc : Occurs h E e) : ∃ E', step h fuel E e = some E' ∧ E'.Inv (n + 1) := by
  have hbound : stepBound (n + 1) ≤ fuel := (stepBound_le _).trans hfuel
  have hbound' : stepBound n ≤ fuel := (stepBound_mono (Nat.le_succ n)).trans hbound
  cases e with
  | accept p z data success => exact accept_spec hinv hbound hocc.1 hocc.2
  | callback p e =>
      rcases hocc with ⟨t, ht, he, hen, hcancel⟩
      rcases callback_spec hh hinv hbound' ht he hen hcancel with ⟨E', hstep, hinv'⟩
      exact ⟨E', hstep, hinv'.succ⟩
  | shutdown =>
      rcases serverShutdown_spec hh ⟨hinv, hocc⟩ hbound' (by omega) with ⟨E', hstep, hinv', _⟩
      exact ⟨E', hstep, hinv'.succ⟩

theorem exists_run (hh : h.UsesApi) {es : List (EnvEvent δ)} (hfuel : 2 * es.length + 2 ≤ fuel)
    (hocc : LegalUntil (Occurs h) (step h fuel) (start δ) es) :
    ∃ E, es.foldlM (step h fuel) (start δ) = some E ∧ E.Inv es.length := by
  have hrun := LegalUntil.run (I := fun n E => Inv n E)
    (fun n E e hn hinv he => step_spec hh hinv (by omega) he) inv_start (Nat.zero_add es.length).le hocc
  simpa using hrun

end Env

/-! Two connections to a server that encrypts nothing.  The first asks for a target and gets connected to it; the
second is refused, and its tunnel is destroyed. -/

def plainEnv : Server.Env Unit where
  cipher := ⟨(), fun _ buf => ((), ⟨some buf, none, none⟩), fun _ buf => ((), some buf)⟩
  addressCached _ := true
  connectAccepted := true
  overTlsEnable := false
  upgradeRequest _ := none
  wsNormalResponse _ := []
  extractDataFromAssembledWebsocketFrame _ src := ((), src)
  buildWebsocketFrameFromRaw _ src := ((), src)

def someEvents : List (EnvEvent (Server.ServerCtx Unit)) :=
  [.accept 16 1 (Server.initData ()) true, .callback 16 (.read .incoming [1, 127, 0, 0, 1, 0, 80]),
    .accept 32 2 (Server.initData ()) false, .callback 16 (.connected .outgoing true),
    .callback 32 (.handleClosed .incoming), .callback 32 (.timerClosed .incoming),
    .callback 32 (.timerClosed .outgoing), .callback 32 (.handleClosed .outgoing)]

theorem someEvents_occur :
    LegalUntil (Env.Occurs (Server.handlers plainEnv)) (Env.step (Server.handlers plainEnv) 18)
      (Env.start (Server.ServerCtx Unit)) someEvents := by
  refine ⟨⟨fun _ ht => (by cases ht), rfl⟩, fun E h => ?_⟩
  cases h
  refine ⟨⟨_, rfl, rfl, by decide, by decide⟩, fun E h => ?_⟩
  cases h
  refine ⟨⟨fun _ ht => (by cases ht), rfl⟩, fun E h => ?_⟩
  cases h
  refine ⟨⟨_, rfl, rfl, by decide, by decide⟩, fun E h => ?_⟩
  cases h
  refine ⟨⟨_, rfl, rfl, by decide, by decide⟩, fun E h => ?_⟩
  cases h
  refine ⟨⟨_, rfl, rfl, by decide, by decide⟩, fun E h => ?_⟩
  cases h
  refine ⟨⟨_, rfl, rfl, by decide, by decide⟩, fun E h => ?_⟩
  cases h
  exact ⟨⟨_, rfl, rfl, by decide, by decide⟩, fun E h => trivial⟩

/-- Whatever connects, calls back and is shut down, and in whatever order: no tunnel is used after it is destroyed, the
assertions of the set hold, and the set has the tunnels in it that are not destroyed. -/
theorem tunnelSet_run {h : Handlers δ} (hh : h.UsesApi) {fuel : ℕ} {es : List (EnvEvent δ)}
    (hfuel : 2 * es.length + 2 ≤ fuel) (hocc : LegalUntil (Env.Occurs h) (Env.step h fuel) (Env.start δ) es) :
    ∃ E, es.foldlM (Env.step h fuel) (Env.start δ) = some E ∧ E.Inv es.length :=
  Env.exists_run hh hfuel hocc

theorem tunnelSet_run_two : ∃ E,
    someEvents.foldlM (Env.step (Server.handlers plainEnv) 18) (Env.start (Server.ServerCtx Unit)) = some E ∧
      E.Inv someEvents.length :=
  tunnelSet_run Server.handlers_usesApi (by decide) someEvents_occur

/-- Behind any run `server_shutdown` reaches every tunnel, and the set is empty when all tunnels are shut down and have
no handle to wait for. -/
theorem serverShutdown_reaches {h : Handlers δ} (hh : h.UsesApi) {fuel : ℕ} {es : List (EnvEvent δ)}
    (hfuel : 2 * es.length + 2 ≤ fuel) (hocc : LegalUntil (Env.Occurs h) (Env.step h fuel) (Env.start δ) es) :
    ∃ E, es.foldlM (Env.step h fuel) (Env.start δ) = some E ∧
      (E.NoLookups h → ∃ E', E.serverShutdown fuel = some E' ∧
        ∀ p t, E'.tunnels p = some t → t.isTerminated = true) ∧
      ((∀ p t, E.tunnels p = some t → t.isTerminated = true ∧ ∀ side, (t.socket side).closingCount = 0) →
        Stores tunnelCtxCompareForCSet E.tunnelSet []) := by
  rcases Env.exists_run hh hfuel hocc with ⟨E, hE, hinv⟩
  refine ⟨E, hE, fun hlookups => ?_, fun hclosed => ?_⟩
  · rcases Env.serverShutdown_spec hh ⟨hinv, hlookups⟩ ((stepBound_le _).trans hfuel) (by omega) with
      ⟨E', hshutdown, _, hterm⟩
    exact ⟨E', hshutdown, hterm⟩
  · rcases hinv.exists_stores with ⟨elems, hS, _, hmem⟩
    have hnil : elems = [] := by
      refine List.eq_nil_iff_forall_not_mem.2 fun a ha => ?_
      rcases (hmem a.2).1 (List.mem_map_of_mem ha) with ⟨t, ht, hd⟩
      have hok := hinv.tunnel_ok a.2 t ht
      have hdestroyed := (hok.good.lifetimeOk hok.lookups).destroyed_of_closed (hclosed a.2 t ht).1 (hclosed a.2 t ht).2
      omega
    exact hnil ▸ hS

theorem serverShutdown_reaches_two : ∃ E,
    someEvents.foldlM (Env.step (Server.handlers plainEnv) 18) (Env.start (Server.ServerCtx Unit)) = some E ∧
      (E.NoLookups (Server.handlers plainEnv) → ∃ E', E.serverShutdown 18 = some E' ∧
        ∀ p t, E'.tunnels p = some t → t.isTerminated = true) ∧
      ((∀ p t, E.tunnels p = some t → t.isTerminated = true ∧ ∀ side, (t.socket side).closingCount = 0) →
        Stores tunnelCtxCompareForCSet E.tunnelSet []) :=
  serverShutdown_reaches Server.handlers_usesApi (by decide) someEvents_occur

end Tunnel
end SsrNative
