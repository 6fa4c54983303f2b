import SsrNative.CstlSet
import SsrNative.Udp.Reply
import SsrNative.Udp.Session

/-!
# ListenerShutdown — the set of sessions of a UDP listener

A session is in the set of its listener from its first datagram until its timer runs out; its memory lives on until
both of its handles are closed.  Datagrams, timers and close callbacks may come in any order (`sessions_run`).

`server_udprelay_shutdown` and `client_udprelay_shutdown` walk through the set and shut down every session, which takes
it out of the set under the feet of the traversal (`udprelayShutdown_iff`).
-/

namespace SsrNative
namespace Udp
namespace ListenerShutdown

open Lib Lib.Transition RbtTree CstlSet Session

/-! ## Data -/

/-- `client_udp_remote_ctx` and `server_udp_remote_ctx` with the addresses that tell sessions apart. -/
structure Remote where
  incomingAddr : SockaddrUniversal
  targetAddr : SockaddrUniversal
  ctx : RemoteCtx

/-- The listener, and the sessions that were allocated; one that is freed stays with its flag set. -/
structure Listener where
  connections : CstlSet Ptr
  remotes : Ptr → Option Remote
  closing : Bool

/-- `server_udprelay_begin` -/
def udprelayBegin : Listener := ⟨cstlSetNew, fun _ => none, false⟩

/-- A session that has got its first reference. -/
def newRemote (incoming target : SockaddrUniversal) : Remote := ⟨incoming, target, ⟨none, false, 1, 0, false⟩⟩

namespace Listener

/-- Access to a session, which fails when it is freed. -/
def remote (L : Listener) (p : Ptr) : Option Remote := do
  let r ← L.remotes p
  guard (r.ctx.freed = false)
  return r

def setCtx (L : Listener) (p : Ptr) (r : Remote) (c : RemoteCtx) : Listener :=
  { L with remotes := Function.update L.remotes p (some { r with ctx := c }) }

end Listener

/-! ## Callbacks -/

section Code

variable (fuel : ℕ)

/-- `find_matching_connection`; the state has the `remote_ctx` of `struct matching_connect` in it. -/
def findMatchingConnection (incoming target : SockaddrUniversal) (obj : Ptr) (s : Listener × Option Ptr) :
    Option ((Listener × Option Ptr) × Bool) := do
  let r ← s.1.remote obj
  if incoming = r.incomingAddr ∧ target = r.targetAddr then return ((s.1, some obj), true) else return (s, false)

/-- `server_udp_remote_ctx_shutdown` -/
def remoteCtxShutdown (L : Listener) (p : Ptr) : Option Listener := do
  let r ← L.remote p
  if r.ctx.shuttingDown then return L
  else do
    let connections ← L.connections.cstlSetContainerRemove tunnelCtxCompareForCSet fuel p
    return { L with connections := connections }.setCtx p r r.ctx.shutdown

/-- `server_udp_remote_close_done_cb` -/
def remoteCloseDoneCb (L : Listener) (p : Ptr) : Option Listener := do
  let r ← L.remote p
  return L.setCtx p r r.ctx.closeDone

/-- The end of `server_udp_listener_recv_cb`.  For a new session the allocator answers with `p` and, for the node of the
set, with `z`. -/
def listenerRecvCb (L : Listener) (incoming target : SockaddrUniversal) (p z : Ptr) : Option Listener := do
  let found ← cstlSetContainerTraverse fuel (fun s => s.1.connections) (findMatchingConnection incoming target) fuel
    (L, none)
  match found.2 with
  | some _ => return L
  | none => do
      let connections ← L.connections.cstlSetContainerAdd tunnelCtxCompareForCSet fuel p (some z)
      return { L with
        connections := connections
        remotes := Function.update L.remotes p (some (newRemote incoming target)) }

/-- `connection_release` -/
def connectionRelease (obj : Ptr) (L : Listener) : Option (Listener × Bool) := do
  let L ← remoteCtxShutdown fuel L obj
  return (L, false)

/-- `server_udprelay_shutdown` -/
def udprelayShutdown (L : Listener) : Option Listener := do
  let L ← cstlSetContainerTraverse fuel Listener.connections (connectionRelease fuel) fuel L
  return { L with closing := true }

inductive Event where
  | datagram (incoming target : SockaddrUniversal) (p z : Ptr)
  | timeout (p : Ptr)
  | closeDone (p : Ptr)

def step (L : Listener) : Event → Option Listener
  | .datagram incoming target p z => listenerRecvCb fuel L incoming target p z
  | .timeout p => remoteCtxShutdown fuel L p
  | .closeDone p => remoteCloseDoneCb L p

end Code

/-- What libuv may call: the timer of a session runs until it is stopped, and a close callback is owed for every handle
that is closing.  The allocator hands out memory that is not in use. -/
def Occurs (L : Listener) : Event → Prop
  | .datagram _ _ p z => L.closing = false ∧ (∀ r, L.remotes p = some r → r.ctx.freed = true) ∧
      L.connections.tree.nodes z = none
  | .timeout p => ∃ r, L.remotes p = some r ∧ r.ctx.shuttingDown = false
  | .closeDone p => ∃ r, L.remotes p = some r ∧ 0 < r.ctx.closing

/-! ## One session -/

/-- A session has a reference until it is shut down, and one for each handle that is closing. -/
structure Counts (c : RemoteCtx) : Prop where
  refs : c.refCount = (if c.shuttingDown then 0 else 1) + c.closing
  freed_iff : c.freed = true ↔ c.refCount = 0
  closing_open : c.shuttingDown = false → c.closing = 0

namespace Counts

variable {c : RemoteCtx}

theorem not_freed_of_open (h : Counts c) (hopen : c.shuttingDown = false) : c.freed = false := by
  have hrefs := h.refs
  rw [hopen, h.closing_open hopen] at hrefs
  rw [← Bool.not_eq_true, h.freed_iff, hrefs]
  decide

theorem not_freed_of_closing (h : Counts c) (hclosing : 0 < c.closing) : c.freed = false := by
  have hrefs := h.refs
  rw [← Bool.not_eq_true, h.freed_iff, hrefs]
  split_ifs <;> omega

theorem shutdown_eq (h : Counts c) (hopen : c.shuttingDown = false) :
    c.shutdown = { c with shuttingDown := true, closing := 2, refCount := 2 } := by
  have hrefs := h.refs
  have hclosing := h.closing_open hopen
  rw [hopen, hclosing] at hrefs
  unfold RemoteCtx.shutdown RemoteCtx.release RemoteCtx.close RemoteCtx.addRef
  simp [hopen, hclosing, hrefs]

theorem shutdown (h : Counts c) (hopen : c.shuttingDown = false) : Counts c.shutdown := by
  have hfreed := h.not_freed_of_open hopen
  rw [h.shutdown_eq hopen]
  exact ⟨rfl, iff_of_false (by simp [hfreed]) two_ne_zero, nofun⟩

theorem closeDone (h : Counts c) (hclosing : 0 < c.closing) : Counts c.closeDone := by
  have hshut : c.shuttingDown = true := by
    rw [← Bool.not_eq_false]
    exact fun hopen => hclosing.ne' (h.closing_open hopen)
  have hrefs := h.refs
  rw [hshut, if_pos rfl, zero_add] at hrefs
  have hfreed := h.not_freed_of_closing hclosing
  unfold RemoteCtx.closeDone RemoteCtx.release
  split_ifs with hlast
  · exact ⟨by simp [hshut]; omega, iff_of_true rfl (by dsimp only at hlast ⊢; omega), by simp [hshut]⟩
  · exact ⟨by simp [hshut]; omega, iff_of_false (by simp [hfreed]) (by dsimp only at hlast ⊢; omega), by simp [hshut]⟩

end Counts

/-! ## The invariant -/

namespace Listener

/-- The session is allocated and not shut down. -/
def Open (L : Listener) (p : Ptr) : Prop := ∃ r, L.remotes p = some r ∧ r.ctx.shuttingDown = false

/-- The set has the open sessions in it, each pair of addresses once. -/
structure Inv (n : ℕ) (L : Listener) : Prop where
  exists_stores : ∃ elems, Stores tunnelCtxCompareForCSet L.connections elems ∧ elems.length ≤ n ∧
    ∀ p, p ∈ elems.map Prod.snd ↔ L.Open p
  counts : ∀ p r, L.remotes p = some r → Counts r.ctx
  distinct : ∀ p q r r', L.remotes p = some r → L.remotes q = some r' → r.ctx.shuttingDown = false →
    r'.ctx.shuttingDown = false → r.incomingAddr = r'.incomingAddr → r.targetAddr = r'.targetAddr → p = q

variable {L : Listener} {n : ℕ} {p : Ptr} {r : Remote}

theorem inv_begin : udprelayBegin.Inv 0 where
  exists_stores := by
    refine ⟨[], stores_new _, le_rfl, fun p => iff_of_false List.not_mem_nil ?_⟩
    rintro ⟨r, hr, _⟩
    cases hr
  counts _ _ hr := by cases hr
  distinct _ _ _ _ hr := by cases hr

theorem Inv.succ (h : L.Inv n) : L.Inv (n + 1) := by
  rcases h.exists_stores with ⟨elems, hS, hlength, hmem⟩
  exact ⟨⟨elems, hS, hlength.trans (Nat.le_succ n), hmem⟩, h.counts, h.distinct⟩

theorem remote_of_not_freed (hr : L.remotes p = some r) (hfreed : r.ctx.freed = false) : L.remote p = some r := by
  rw [remote, hr, Option.bind_eq_bind, Option.bind_some, hfreed]
  rfl

theorem Inv.remote_open (h : L.Inv n) (hr : L.remotes p = some r) (hopen : r.ctx.shuttingDown = false) :
    L.remote p = some r :=
  remote_of_not_freed hr ((h.counts p r hr).not_freed_of_open hopen)

theorem setCtx_remotes_self (c : RemoteCtx) : (L.setCtx p r c).remotes p = some { r with ctx := c } :=
  Function.update_self ..

theorem setCtx_remotes_ne (c : RemoteCtx) {q : Ptr} (hne : q ≠ p) : (L.setCtx p r c).remotes q = L.remotes q :=
  Function.update_of_ne hne ..

/-- The sessions that are open when one has been changed. -/
theorem open_setCtx_iff (c : RemoteCtx) {q : Ptr} :
    (L.setCtx p r c).Open q ↔ if q = p then c.shuttingDown = false else L.Open q := by
  by_cases hq : q = p
  · subst hq
    rw [Open, setCtx_remotes_self, if_pos rfl]
    simp
  · rw [Open, setCtx_remotes_ne c hq, if_neg hq, Open]

end Listener

/-! ## Steps -/

section Steps

open Listener

variable {L : Listener} {n fuel : ℕ} {p : Ptr} {r : Remote}

/-- A session that is closed, or stays so, leaves the counts and the addresses as they were. -/
theorem inv_setCtx (h : L.Inv n) (hr : L.remotes p = some r) {c : RemoteCtx} (hc : Counts c)
    (hshut : c.shuttingDown = true) {connections : CstlSet Ptr} {elems : List (Ptr × Ptr)}
    (hS : Stores tunnelCtxCompareForCSet connections elems) (hlength : elems.length ≤ n)
    (hmem : ∀ q, q ∈ elems.map Prod.snd ↔ L.Open q ∧ q ≠ p) :
    ({ L with connections := connections }.setCtx p r c).Inv n := by
  refine ⟨⟨elems, hS, hlength, fun q => ?_⟩, fun q r' hr' => ?_, fun q q' r₁ r₂ hr₁ hr₂ hopen₁ hopen₂ => ?_⟩
  · rw [hmem, open_setCtx_iff, hshut]
    split_ifs with hq
    · exact iff_of_false (fun hopen => hopen.2 hq) nofun
    · exact and_iff_left hq
  · by_cases hq : q = p
    · subst hq
      rw [setCtx_remotes_self] at hr'
      obtain rfl := Option.some.inj hr'
      exact hc
    · rw [setCtx_remotes_ne c hq] at hr'
      exact h.counts q r' hr'
  · have hne : ∀ q r', ({ L with connections := connections }.setCtx p r c).remotes q = some r' →
        r'.ctx.shuttingDown = false → q ≠ p := by
      rintro q r' hr' hopen rfl
      rw [setCtx_remotes_self] at hr'
      obtain rfl := Option.some.inj hr'
      exact Bool.false_ne_true (hopen.symm.trans hshut)
    rw [setCtx_remotes_ne c (hne q r₁ hr₁ hopen₁)] at hr₁
    rw [setCtx_remotes_ne c (hne q' r₂ hr₂ hopen₂)] at hr₂
    exact h.distinct q q' r₁ r₂ hr₁ hr₂ hopen₁ hopen₂

theorem closeDone_spec (h : L.Inv n) (hr : L.remotes p = some r) (hclosing : 0 < r.ctx.closing) :
    ∃ L', remoteCloseDoneCb L p = some L' ∧ L'.Inv n := by
  have hcounts := h.counts p r hr
  have hshut : r.ctx.shuttingDown = true := by
    rw [← Bool.not_eq_false]
    exact fun hopen => hclosing.ne' (hcounts.closing_open hopen)
  rcases h.exists_stores with ⟨elems, hS, hlength, hmem⟩
  refine ⟨L.setCtx p r r.ctx.closeDone, ?_, ?_⟩
  · rw [remoteCloseDoneCb, remote_of_not_freed hr (hcounts.not_freed_of_closing hclosing)]
    rfl
  · refine inv_setCtx h hr (hcounts.closeDone hclosing) ?_ hS hlength fun q => ?_
    · unfold RemoteCtx.closeDone RemoteCtx.release
      split_ifs <;> exact hshut
    · rw [hmem]
      refine (and_iff_left_of_imp ?_).symm
      rintro ⟨r', hr', hopen⟩ rfl
      obtain rfl := Option.some.inj (hr.symm.trans hr')
      exact Bool.false_ne_true (hopen.symm.trans hshut)

/-- A session that is shut down is taken out of the set, and its node is given back. -/
theorem remoteCtxShutdown_spec (h : L.Inv n) {elems : List (Ptr × Ptr)}
    (hS : Stores tunnelCtxCompareForCSet L.connections elems) (hlength : elems.length ≤ n)
    (hmem : ∀ q, q ∈ elems.map Prod.snd ↔ L.Open q) (hfuel : stepBound n ≤ fuel) (hr : L.remotes p = some r)
    (hopen : r.ctx.shuttingDown = false) :
    ∃ L', remoteCtxShutdown fuel L p = some L' ∧ L'.Inv n ∧
      ∀ a ∈ elems, a.2 = p → L'.connections.tree.nodes a.1 = none := by
  have hcounts := h.counts p r hr
  rcases hS.remove_address ((stepBound_mono hlength).trans hfuel) ((hmem p).2 ⟨r, hr, hopen⟩) with
    ⟨S', elems', hremove, hS', hshorter, hmem', hnode⟩
  have hshut : r.ctx.shutdown.shuttingDown = true := by rw [hcounts.shutdown_eq hopen]
  refine ⟨{ L with connections := S' }.setCtx p r r.ctx.shutdown, ?_, ?_, hnode⟩
  · rw [remoteCtxShutdown, h.remote_open hr hopen, Option.bind_eq_bind, Option.bind_some, if_neg (by simp [hopen]),
      hremove]
    rfl
  · refine inv_setCtx h hr (hcounts.shutdown hopen) hshut hS' (hshorter.trans hlength) fun q => ?_
    rw [hmem', hmem]

theorem visit_findMatching (h : L.Inv n) (incoming target : SockaddrUniversal) {keys : List Ptr}
    (hkeys : ∀ q ∈ keys, L.Open q) :
    ∃ found, visit (findMatchingConnection incoming target) keys (L, none) = some (L, found) ∧
      (found = none → ∀ q ∈ keys, ∀ r, L.remotes q = some r →
        ¬ (incoming = r.incomingAddr ∧ target = r.targetAddr)) := by
  induction keys with
  | nil => exact ⟨none, rfl, fun _ q hq => absurd hq List.not_mem_nil⟩
  | cons q keys ih =>
      rcases hkeys q (List.mem_cons_self ..) with ⟨r, hr, hopen⟩
      rw [visit, findMatchingConnection, h.remote_open hr hopen]
      by_cases hsame : incoming = r.incomingAddr ∧ target = r.targetAddr
      · exact ⟨some q, by simp [hsame], fun hno => absurd hno (Option.some_ne_none q)⟩
      · rcases ih fun q hq => hkeys q (List.mem_cons_of_mem _ hq) with ⟨found, hfound, hnone⟩
        refine ⟨found, by simpa [hsame] using hfound, fun hno q' hq' r' hr' => ?_⟩
        rcases List.mem_cons.1 hq' with rfl | hq'
        · obtain rfl := Option.some.inj (hr.symm.trans hr')
          exact hsame
        · exact hnone hno q' hq' r' hr'

/-- When `find_matching_connection` finds no session, none that is open has these addresses. -/
theorem listenerMatch_eq (h : L.Inv n) {elems : List (Ptr × Ptr)}
    (hS : Stores tunnelCtxCompareForCSet L.connections elems) (hlength : elems.length ≤ n)
    (hmem : ∀ q, q ∈ elems.map Prod.snd ↔ L.Open q) (hfuel : stepBound n ≤ fuel) (hsteps : n < fuel)
    (incoming target : SockaddrUniversal) :
    ∃ found, cstlSetContainerTraverse fuel (fun s => s.1.connections) (findMatchingConnection incoming target) fuel
      (L, none) = some (L, found) ∧
      (found = none → ∀ q r, L.remotes q = some r → r.ctx.shuttingDown = false →
        ¬ (incoming = r.incomingAddr ∧ target = r.targetAddr)) := by
  have hkeep : ∀ obj (s : Listener × Option Ptr) r, True → findMatchingConnection incoming target obj s = some r →
      r.1.1.connections = s.1.connections ∧ True := by
    intro obj s r _ hr
    rw [findMatchingConnection] at hr
    rcases Option.bind_eq_some_iff.1 hr with ⟨_, _, hr⟩
    split_ifs at hr <;> obtain rfl := Option.some.inj hr <;> exact ⟨rfl, trivial⟩
  have htraverse : cstlSetContainerTraverse fuel (fun s : Listener × Option Ptr => s.1.connections)
      (findMatchingConnection incoming target) fuel (L, none) =
        visit (findMatchingConnection incoming target) (elems.map Prod.snd) (L, none) := by
    apply containerTraverse_eq hkeep trivial
    · exact hS
    · exact (stepBound_mono hlength).trans hfuel
    · exact hlength.trans_lt hsteps
  rw [htraverse]
  rcases visit_findMatching h incoming target (fun q hq => (hmem q).1 hq) with ⟨found, hfound, hnone⟩
  exact ⟨found, hfound, fun hno q r hr hopen => hnone hno q ((hmem q).2 ⟨r, hr, hopen⟩) r hr⟩

/-- A session that no other has the addresses of. -/
theorem inv_add (h : L.Inv n) {incoming target : SockaddrUniversal}
    (hnone : ∀ q r, L.remotes q = some r → r.ctx.shuttingDown = false →
      ¬ (incoming = r.incomingAddr ∧ target = r.targetAddr)) {connections : CstlSet Ptr} {elems : List (Ptr × Ptr)}
    (hS : Stores tunnelCtxCompareForCSet connections elems) (hlength : elems.length ≤ n + 1)
    (hmem : ∀ q, q ∈ elems.map Prod.snd ↔ q = p ∨ L.Open q) :
    Listener.Inv (n + 1) { L with
      connections := connections
      remotes := Function.update L.remotes p (some (newRemote incoming target)) } := by
  have hself : Function.update L.remotes p (some (newRemote incoming target)) p = some (newRemote incoming target) :=
    Function.update_self ..
  have hother : ∀ {q}, q ≠ p → Function.update L.remotes p (some (newRemote incoming target)) q = L.remotes q :=
    fun hne => Function.update_of_ne hne ..
  refine ⟨⟨elems, hS, hlength, fun q => ?_⟩, fun q r hr => ?_, fun q q' r r' hr hr' hopen hopen' hin htarget => ?_⟩
  · rw [hmem]
    by_cases hq : q = p
    · subst hq
      exact iff_of_true (Or.inl rfl) ⟨_, hself, rfl⟩
    · rw [or_iff_right hq]
      exact exists_congr fun r => and_congr_left fun _ => (Eq.congr_left (hother hq)).symm
  · by_cases hq : q = p
    · subst hq
      obtain rfl := Option.some.inj (hself.symm.trans hr)
      exact ⟨rfl, iff_of_false Bool.false_ne_true one_ne_zero, fun _ => rfl⟩
    · exact h.counts q r ((hother hq).symm.trans hr)
  · by_cases hq : q = p <;> by_cases hq' : q' = p
    · exact hq.trans hq'.symm
    · subst hq
      obtain rfl := Option.some.inj (hself.symm.trans hr)
      exact absurd ⟨hin, htarget⟩ (hnone q' r' ((hother hq').symm.trans hr') hopen')
    · subst hq'
      obtain rfl := Option.some.inj (hself.symm.trans hr')
      exact absurd ⟨hin.symm, htarget.symm⟩ (hnone q r ((hother hq).symm.trans hr) hopen)
    · exact h.distinct q q' r r' ((hother hq).symm.trans hr) ((hother hq').symm.trans hr') hopen hopen' hin htarget

theorem listenerRecvCb_spec (h : L.Inv n) (hfuel : stepBound (n + 1) ≤ fuel) (hsteps : n < fuel)
    {incoming target : SockaddrUniversal} {z : Ptr} (hfree : ∀ r, L.remotes p = some r → r.ctx.freed = true)
    (hz : L.connections.tree.nodes z = none) :
    ∃ L', listenerRecvCb fuel L incoming target p z = some L' ∧ L'.Inv (n + 1) := by
  have hfuel' : stepBound n ≤ fuel := (stepBound_mono (Nat.le_succ n)).trans hfuel
  rcases h.exists_stores with ⟨elems, hS, hlength, hmem⟩
  rcases listenerMatch_eq h hS hlength hmem hfuel' hsteps incoming target with ⟨found, hfound, hnone⟩
  rw [listenerRecvCb, hfound, Option.bind_eq_bind, Option.bind_some]
  cases found with
  | some q => exact ⟨L, rfl, h.succ⟩
  | none =>
      have hclosed : p ∉ elems.map Prod.snd := by
        rw [hmem]
        rintro ⟨r, hr, hopen⟩
        exact Bool.false_ne_true (((h.counts p r hr).not_freed_of_open hopen).symm.trans (hfree r hr))
      rcases hS.add_address ((stepBound_mono (Nat.succ_le_succ hlength)).trans hfuel) hclosed hz with
        ⟨S', elems', hadd, hS', hlength', hmem'⟩
      refine ⟨_, by rw [hadd]; rfl, inv_add h (hnone rfl) hS' (by omega) fun q => ?_⟩
      rw [hmem', hmem]

end Steps

/-! ## Runs -/

theorem step_spec {L : Listener} {n fuel : ℕ} {e : Event} (h : L.Inv n) (hfuel : 2 * (n + 1) + 2 ≤ fuel)
    (hocc : Occurs L e) : ∃ L', step fuel L e = some L' ∧ L'.Inv (n + 1) := by
  have hbound : stepBound (n + 1) ≤ fuel := (stepBound_le _).trans hfuel
  have hbound' : stepBound n ≤ fuel := (stepBound_mono (Nat.le_succ n)).trans hbound
  cases e with
  | datagram incoming target p z =>
      exact listenerRecvCb_spec h hbound (by omega) hocc.2.1 hocc.2.2
  | timeout p =>
      rcases hocc with ⟨r, hr, hopen⟩
      rcases h.exists_stores with ⟨elems, hS, hlength, hmem⟩
      rcases remoteCtxShutdown_spec h hS hlength hmem hbound' hr hopen with ⟨L', hL', hinv, _⟩
      exact ⟨L', hL', hinv.succ⟩
  | closeDone p =>
      rcases hocc with ⟨r, hr, hclosing⟩
      rcases closeDone_spec h hr hclosing with ⟨L', hL', hinv⟩
      exact ⟨L', hL', hinv.succ⟩

theorem exists_run {fuel : ℕ} {es : List Event} (hfuel : 2 * es.length + 2 ≤ fuel)
    (hocc : LegalUntil Occurs (step fuel) udprelayBegin es) :
    ∃ L, es.foldlM (step fuel) udprelayBegin = some L ∧ L.Inv es.length := by
  have hrun := LegalUntil.run (I := fun n L => Listener.Inv n L)
    (fun n L e hn hinv he => step_spec hinv (by omega) he) Listener.inv_begin (Nat.zero_add es.length).le hocc
  simpa using hrun

/-! Two sources; the first session times out and is freed. -/

def source (port : UInt16) : SockaddrUniversal := SockaddrUniversal.zero.write ⟨.v4 0x0100007F, port⟩

def someEvents : List Event :=
  [.datagram (source 1) (source 53) 16 1, .datagram (source 2) (source 53) 32 2, .timeout 16, .closeDone 16,
    .closeDone 16]

theorem someEvents_occur : LegalUntil Occurs (step 12) udprelayBegin someEvents := by
  refine ⟨⟨rfl, fun _ hr => (by cases hr), rfl⟩, fun L h => ?_⟩
  cases h
  refine ⟨⟨rfl, fun _ hr => (by cases hr), rfl⟩, fun L h => ?_⟩
  cases h
  refine ⟨⟨_, rfl, rfl⟩, fun L h => ?_⟩
  cases h
  refine ⟨⟨_, rfl, by decide⟩, fun L h => ?_⟩
  cases h
  exact ⟨⟨_, rfl, by decide⟩, fun L h => trivial⟩

/-- Whatever comes in and in whatever order, no session is used after it is freed and no assertion of the set fails;
the set has the open sessions in it, and no two of them the same addresses. -/
theorem sessions_run {fuel : ℕ} {es : List Event} (hfuel : 2 * es.length + 2 ≤ fuel)
    (hocc : LegalUntil Occurs (step fuel) udprelayBegin es) :
    ∃ L, es.foldlM (step fuel) udprelayBegin = some L ∧ L.Inv es.length :=
  exists_run hfuel hocc

theorem sessions_run_two : ∃ L, someEvents.foldlM (step 12) udprelayBegin = some L ∧ L.Inv someEvents.length :=
  sessions_run (by decide) someEvents_occur

/-- The listener can be shut down when no session is open, and only then: the traversal goes on from the node that the
first session has given back. -/
theorem udprelayShutdown_iff {fuel : ℕ} {es : List Event} (hfuel : 2 * es.length + 2 ≤ fuel)
    (hocc : LegalUntil Occurs (step fuel) udprelayBegin es) :
    ∃ L, es.foldlM (step fuel) udprelayBegin = some L ∧
      ∀ fuel' ≥ fuel, (udprelayShutdown fuel' L).isSome = true ↔ ∀ p, ¬ L.Open p := by
  rcases exists_run hfuel hocc with ⟨L, hL, hinv⟩
  refine ⟨L, hL, fun fuel' hfuel' => ?_⟩
  rcases hinv.exists_stores with ⟨elems, hS, hlength, hmem⟩
  have hbound : stepBound es.length ≤ fuel' := (stepBound_le _).trans (hfuel.trans hfuel')
  cases elems with
  | nil =>
      have hopen : ∀ p, ¬ L.Open p := fun p hp => List.not_mem_nil ((hmem p).2 hp)
      obtain ⟨fuel', rfl⟩ : ∃ k, fuel' = k + 1 := ⟨fuel' - 1, by omega⟩
      have hnext : L.connections.cstlSetGetNext (fuel' + 1) none = some nil :=
        hS.contains.minimum ((stepBound_mono (Nat.zero_le _)).trans hbound)
      refine iff_of_true ?_ hopen
      rw [udprelayShutdown, cstlSetContainerTraverse, traverseLoop, hnext]
      rfl
  | cons a elems =>
      have hopen : L.Open a.2 := (hmem a.2).1 (List.mem_cons_self ..)
      refine iff_of_false ?_ fun hnone => hnone a.2 hopen
      rcases hopen with ⟨r, hr, hopen⟩
      rcases remoteCtxShutdown_spec hinv hS hlength hmem hbound hr hopen with ⟨L', hL', _, hnode⟩
      have hrelease : connectionRelease fuel' a.2 L = some (L', false) := by
        rw [connectionRelease, hL']
        rfl
      rw [udprelayShutdown, containerTraverse_removed hS ((stepBound_mono hlength).trans hbound) hrelease rfl
        (hnode a (List.mem_cons_self ..) rfl)]
      exact Bool.false_ne_true

theorem udprelayShutdown_iff_two : ∃ L, someEvents.foldlM (step 12) udprelayBegin = some L ∧
    ∀ fuel' ≥ 12, (udprelayShutdown fuel' L).isSome = true ↔ ∀ p, ¬ L.Open p :=
  udprelayShutdown_iff (by decide) someEvents_occur

end ListenerShutdown
end Udp
end SsrNative
