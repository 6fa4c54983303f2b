import SsrNative.Tunnel

/-!
# TunnelLifetime — when a tunnel and its sockets are freed

The references to a socket are one of its tunnel and one for each handle that is closing; the
references to a tunnel are one until it is shut down and one for each socket that is closing.  This
holds in every run (`Inv`), whatever the handlers do and in whatever order libuv calls back.

A lookup takes no reference, and cancelling one does not keep its callback from being called.  So
the callbacks are safe as long as no socket is closed while a lookup is in flight on it
(`lifetime_ok`), and not otherwise (`lookup_after_free`).
-/

namespace SsrNative
namespace Tunnel

open Lib.Transition

variable {δ : Type*}

/-! ## Access to the sockets -/

@[simp] theorem socket_setSocket (t : TunnelCtx δ) (side : Side) (s : SocketCtx) :
    (t.setSocket side s).socket side = s := by
  cases side <;> rfl

theorem socket_setSocket_ne (t : TunnelCtx δ) {side side' : Side} (hne : side' ≠ side)
    (s : SocketCtx) : (t.setSocket side s).socket side' = t.socket side' := by
  cases side <;> cases side' <;> first | rfl | exact absurd rfl hne

@[simp] theorem setSocket_refCount (t : TunnelCtx δ) (side : Side) (s : SocketCtx) :
    (t.setSocket side s).refCount = t.refCount := by
  cases side <;> rfl

@[simp] theorem setSocket_destroyed (t : TunnelCtx δ) (side : Side) (s : SocketCtx) :
    (t.setSocket side s).destroyed = t.destroyed := by
  cases side <;> rfl

@[simp] theorem setSocket_isTerminated (t : TunnelCtx δ) (side : Side) (s : SocketCtx) :
    (t.setSocket side s).isTerminated = t.isTerminated := by
  cases side <;> rfl

@[simp] theorem check_socket (t : TunnelCtx δ) (b : Bool) (side : Side) :
    (t.check b).socket side = t.socket side := by
  cases b <;> cases side <;> rfl

@[simp] theorem check_refCount (t : TunnelCtx δ) (b : Bool) : (t.check b).refCount = t.refCount := by
  cases b <;> rfl

@[simp] theorem check_destroyed (t : TunnelCtx δ) (b : Bool) :
    (t.check b).destroyed = t.destroyed := by
  cases b <;> rfl

@[simp] theorem check_isTerminated (t : TunnelCtx δ) (b : Bool) :
    (t.check b).isTerminated = t.isTerminated := by
  cases b <;> rfl

/-! ## The invariant -/

/-- The handles of a socket whose close callback is still to come. -/
def pend (s : SocketCtx) : ℤ :=
  (if s.handleClosing then 1 else 0) + (if s.timerClosing then 1 else 0)

/-- Whether a socket is closing, as a number of references to its tunnel. -/
def busy (s : SocketCtx) : ℤ := if 0 < pend s then 1 else 0

theorem pend_nonneg (s : SocketCtx) : 0 ≤ pend s := by
  unfold pend
  split_ifs <;> omega

theorem pend_pos {s : SocketCtx} (h : s.handleClosing = true ∨ s.timerClosing = true) :
    0 < pend s := by
  unfold pend
  cases h with
  | inl h =>
      rw [if_pos h]
      split_ifs <;> omega
  | inr h =>
      rw [if_pos h]
      split_ifs <;> omega

theorem busy_nonneg (s : SocketCtx) : 0 ≤ busy s := by
  unfold busy
  split_ifs <;> omega

/-- The counts of a socket of a tunnel that was destroyed `destroyed` times; `pin` is the number of
references that a callback holds while it runs. -/
structure SocketInv (destroyed : ℕ) (pin : ℤ) (s : SocketCtx) : Prop where
  open_counts : s.isTerminated = false → s.refCount = 1 + pin ∧ s.closingCount = 0 ∧ pend s = 0
  closed_counts : s.isTerminated = true → s.refCount = pend s + 1 - destroyed + pin ∧
    s.closingCount = pend s ∧ (0 < pend s → s.onClosed = true)
  closed_idle : s.isTerminated = true → s.reading = false ∧ s.timerActive = false ∧
    (s.handleClosing = false → s.connects = 0 ∧ s.writes = 0)

/-- The counts of a tunnel to which `held` references beside those of closing sockets exist. -/
structure Inv (held : ℕ) (pin : Side → ℤ) (t : TunnelCtx δ) : Prop where
  refs : t.refCount = held + busy t.incoming + busy t.outgoing
  destroyed_eq : t.destroyed = if t.refCount = 0 then 1 else 0
  socket_inv : ∀ side, SocketInv t.destroyed (pin side) (t.socket side)
  all_closed : held = 0 → ∀ side, (t.socket side).isTerminated = true

/-- Until it is shut down, a tunnel has a reference of its own. -/
def Good (pin : Side → ℤ) (t : TunnelCtx δ) : Prop := Inv (if t.isTerminated then 0 else 1) pin t

variable {held : ℕ} {pin : Side → ℤ} {t t' : TunnelCtx δ}

theorem Inv.refCount_ge (hinv : Inv held pin t) : held ≤ t.refCount := by
  have h1 := busy_nonneg t.incoming
  have h2 := busy_nonneg t.outgoing
  rw [hinv.refs]
  omega

theorem Inv.destroyed_eq_zero (hinv : Inv held pin t) (hpos : 0 < t.refCount) : t.destroyed = 0 := by
  rw [hinv.destroyed_eq, if_neg (by omega)]

theorem Inv.alive (hinv : Inv held pin t) (hd : t.destroyed = 0) : 0 < t.refCount := by
  have hge := hinv.refCount_ge
  have heq := hinv.destroyed_eq
  by_cases hzero : t.refCount = 0
  · rw [if_pos hzero] at heq
    omega
  · omega

/-- A socket that is closing keeps its tunnel. -/
theorem Inv.alive_of_pend (hinv : Inv held pin t) {side : Side} (hp : 0 < pend (t.socket side)) :
    0 < t.refCount := by
  have h1 := busy_nonneg t.incoming
  have h2 := busy_nonneg t.outgoing
  have hbusy : busy (t.socket side) = 1 := if_pos hp
  rw [hinv.refs]
  cases side with
  | incoming =>
      have hbusy' : busy t.incoming = 1 := hbusy
      omega
  | outgoing =>
      have hbusy' : busy t.outgoing = 1 := hbusy
      omega

/-- So does one that is not closed. -/
theorem Inv.alive_of_open (hinv : Inv held pin t) {side : Side}
    (hopen : (t.socket side).isTerminated = false) : 0 < t.refCount := by
  have hge := hinv.refCount_ge
  have hheld : held ≠ 0 := by
    intro hzero
    rw [hinv.all_closed hzero side] at hopen
    cases hopen
  omega

theorem Inv.terminated_of_pend (hinv : Inv held pin t) {side : Side} (hp : 0 < pend (t.socket side)) :
    (t.socket side).isTerminated = true := by
  cases hterm : (t.socket side).isTerminated with
  | false =>
      obtain ⟨-, -, hzero⟩ := (hinv.socket_inv side).open_counts hterm
      omega
  | true => rfl

/-- Another socket in its place, with the references to the tunnel in balance. -/
theorem Inv.setSocket {held' : ℕ} {pin' : Side → ℤ} {side : Side} {s : SocketCtx}
    (hinv : Inv held pin t) (hs : SocketInv t.destroyed (pin' side) s)
    (hpin : pin' side.other = pin side.other)
    (hrefs : (held' : ℤ) + busy s = held + busy (t.socket side))
    (hclosed : held' = 0 → s.isTerminated = true ∧ (t.socket side.other).isTerminated = true) :
    Inv held' pin' (t.setSocket side s) where
  refs := by
    have hrefs' := hinv.refs
    cases side with
    | incoming =>
        change (t.refCount : ℤ) = held' + busy s + busy t.outgoing
        change (held' : ℤ) + busy s = held + busy t.incoming at hrefs
        omega
    | outgoing =>
        change (t.refCount : ℤ) = held' + busy t.incoming + busy s
        change (held' : ℤ) + busy s = held + busy t.outgoing at hrefs
        omega
  destroyed_eq := by
    rw [setSocket_destroyed, setSocket_refCount]
    exact hinv.destroyed_eq
  socket_inv side' := by
    have hother := hinv.socket_inv side.other
    rw [← hpin] at hother
    rw [setSocket_destroyed]
    cases side <;> cases side'
    · exact hs
    · exact hother
    · exact hother
    · exact hs
  all_closed hzero side' := by
    obtain ⟨h1, h2⟩ := hclosed hzero
    cases side <;> cases side'
    · exact h1
    · exact h2
    · exact h2
    · exact h1

/-! ## What keeps the counts -/

/-- `s'` has the counts of `s`, and on a closed socket nothing was started. -/
structure Eases (s s' : SocketCtx) : Prop where
  isTerminated_eq : s'.isTerminated = s.isTerminated
  refCount_eq : s'.refCount = s.refCount
  closingCount_eq : s'.closingCount = s.closingCount
  onClosed_eq : s'.onClosed = s.onClosed
  handleClosing_eq : s'.handleClosing = s.handleClosing
  timerClosing_eq : s'.timerClosing = s.timerClosing
  closed_le : s.isTerminated = true → (s'.reading = true → s.reading = true) ∧
    (s'.timerActive = true → s.timerActive = true) ∧ s'.connects ≤ s.connects ∧
    s'.writes ≤ s.writes ∧ s'.lookups ≤ s.lookups

theorem Eases.refl (s : SocketCtx) : Eases s s :=
  ⟨rfl, rfl, rfl, rfl, rfl, rfl, fun _ => ⟨id, id, Nat.le_refl _, Nat.le_refl _, Nat.le_refl _⟩⟩

theorem Eases.trans {s s' s'' : SocketCtx} (h : Eases s s') (h' : Eases s' s'') : Eases s s'' where
  isTerminated_eq := h'.isTerminated_eq.trans h.isTerminated_eq
  refCount_eq := h'.refCount_eq.trans h.refCount_eq
  closingCount_eq := h'.closingCount_eq.trans h.closingCount_eq
  onClosed_eq := h'.onClosed_eq.trans h.onClosed_eq
  handleClosing_eq := h'.handleClosing_eq.trans h.handleClosing_eq
  timerClosing_eq := h'.timerClosing_eq.trans h.timerClosing_eq
  closed_le hterm := by
    obtain ⟨h1, h2, h3, h4, h5⟩ := h.closed_le hterm
    obtain ⟨h1', h2', h3', h4', h5'⟩ := h'.closed_le (h.isTerminated_eq.trans hterm)
    exact ⟨h1 ∘ h1', h2 ∘ h2', h3'.trans h3, h4'.trans h4, h5'.trans h5⟩

theorem Eases.pend_eq {s s' : SocketCtx} (h : Eases s s') : pend s' = pend s := by
  rw [pend, pend, h.handleClosing_eq, h.timerClosing_eq]

theorem Eases.busy_eq {s s' : SocketCtx} (h : Eases s s') : busy s' = busy s := by
  rw [busy, busy, h.pend_eq]

theorem SocketInv.eases {d : ℕ} {n : ℤ} {s s' : SocketCtx} (hinv : SocketInv d n s)
    (h : Eases s s') : SocketInv d n s' where
  open_counts hopen := by
    rw [h.isTerminated_eq] at hopen
    rw [h.refCount_eq, h.closingCount_eq, h.pend_eq]
    exact hinv.open_counts hopen
  closed_counts hterm := by
    rw [h.isTerminated_eq] at hterm
    rw [h.refCount_eq, h.closingCount_eq, h.pend_eq, h.onClosed_eq]
    exact hinv.closed_counts hterm
  closed_idle hterm := by
    rw [h.isTerminated_eq] at hterm
    obtain ⟨hr, ht, hreq⟩ := hinv.closed_idle hterm
    obtain ⟨h1, h2, h3, h4, -⟩ := h.closed_le hterm
    refine ⟨?_, ?_, fun hclosed => ?_⟩
    · exact Bool.eq_false_iff.2 fun hr' => Bool.eq_false_iff.1 hr (h1 hr')
    · exact Bool.eq_false_iff.2 fun ht' => Bool.eq_false_iff.1 ht (h2 ht')
    · rw [h.handleClosing_eq] at hclosed
      obtain ⟨hc, hw⟩ := hreq hclosed
      omega

/-- `t'` has the counts of `t`. -/
structure Keeps (t t' : TunnelCtx δ) : Prop where
  isTerminated_eq : t'.isTerminated = t.isTerminated
  refCount_eq : t'.refCount = t.refCount
  destroyed_eq : t'.destroyed = t.destroyed
  eases : ∀ side, Eases (t.socket side) (t'.socket side)

theorem Inv.keeps (hinv : Inv held pin t) (h : Keeps t t') : Inv held pin t' where
  refs := by
    have hin : busy t'.incoming = busy t.incoming := (h.eases .incoming).busy_eq
    have hout : busy t'.outgoing = busy t.outgoing := (h.eases .outgoing).busy_eq
    rw [h.refCount_eq, hin, hout]
    exact hinv.refs
  destroyed_eq := by
    rw [h.destroyed_eq, h.refCount_eq]
    exact hinv.destroyed_eq
  socket_inv side := by
    rw [h.destroyed_eq]
    exact (hinv.socket_inv side).eases (h.eases side)
  all_closed hheld side := by
    rw [(h.eases side).isTerminated_eq]
    exact hinv.all_closed hheld side

theorem keeps_setSocket {side : Side} {s : SocketCtx}
    (h : Eases (t.socket side) s) : Keeps t (t.setSocket side s) where
  isTerminated_eq := setSocket_isTerminated t side s
  refCount_eq := setSocket_refCount t side s
  destroyed_eq := setSocket_destroyed t side s
  eases side' := by
    by_cases hside : side' = side
    · subst hside
      rw [socket_setSocket]
      exact h
    · rw [socket_setSocket_ne t hside]
      exact Eases.refl _

theorem keeps_check (t : TunnelCtx δ) (b : Bool) : Keeps t (t.check b) where
  isTerminated_eq := check_isTerminated t b
  refCount_eq := check_refCount t b
  destroyed_eq := check_destroyed t b
  eases side := by
    rw [check_socket]
    exact Eases.refl _

/-- On an open socket only its counts matter. -/
theorem keeps_onOpenSocket {side : Side} {f : SocketCtx → SocketCtx}
    (hf : ∀ s, (f s).isTerminated = s.isTerminated ∧ (f s).refCount = s.refCount ∧
      (f s).closingCount = s.closingCount ∧ (f s).onClosed = s.onClosed ∧
      (f s).handleClosing = s.handleClosing ∧ (f s).timerClosing = s.timerClosing) :
    Keeps t (onOpenSocket t side f) := by
  unfold onOpenSocket
  split_ifs with hterm
  · exact keeps_check t false
  · obtain ⟨h1, h2, h3, h4, h5, h6⟩ := hf (t.socket side)
    exact keeps_setSocket ⟨h1, h2, h3, h4, h5, h6, fun h => absurd h hterm⟩

/-! ## What a callback may do -/

/-- No closed socket is opened, and no lookup is started on one. -/
def StaysClosed (t t' : TunnelCtx δ) : Prop :=
  ∀ side, (t.socket side).isTerminated = true → (t'.socket side).isTerminated = true ∧
    (t'.socket side).lookups ≤ (t.socket side).lookups

theorem StaysClosed.refl (t : TunnelCtx δ) : StaysClosed t t := fun _ h => ⟨h, Nat.le_refl _⟩

theorem StaysClosed.trans {t t' t'' : TunnelCtx δ} (h : StaysClosed t t') (h' : StaysClosed t' t'') :
    StaysClosed t t'' := by
  intro side hterm
  obtain ⟨hterm', hle⟩ := h side hterm
  obtain ⟨hterm'', hle'⟩ := h' side hterm'
  exact ⟨hterm'', hle'.trans hle⟩

theorem staysClosed_setSocket {side : Side} {s : SocketCtx}
    (hterm : s.isTerminated = (t.socket side).isTerminated)
    (hlookups : s.lookups = (t.socket side).lookups) : StaysClosed t (t.setSocket side s) := by
  intro side' hside'
  by_cases hside : side' = side
  · subst hside
    rw [socket_setSocket, hterm, hlookups]
    exact ⟨hside', Nat.le_refl _⟩
  · rw [socket_setSocket_ne t hside]
    exact ⟨hside', Nat.le_refl _⟩

/-- The counts stay right, whatever references the callback holds while it runs. -/
structure Evolves (t t' : TunnelCtx δ) : Prop where
  good : ∀ pin, Good pin t → Good pin t'
  closed : StaysClosed t t'

theorem Evolves.refl (t : TunnelCtx δ) : Evolves t t := ⟨fun _ h => h, StaysClosed.refl t⟩

theorem Evolves.trans {t t' t'' : TunnelCtx δ} (h : Evolves t t') (h' : Evolves t' t'') :
    Evolves t t'' :=
  ⟨fun pin hgood => h'.good pin (h.good pin hgood), h.closed.trans h'.closed⟩

theorem Keeps.evolves (h : Keeps t t') : Evolves t t' where
  good pin hgood := by
    unfold Good
    rw [h.isTerminated_eq]
    exact Inv.keeps hgood h
  closed side hterm := by
    obtain ⟨-, -, -, -, hle⟩ := (h.eases side).closed_le hterm
    exact ⟨(h.eases side).isTerminated_eq.trans hterm, hle⟩

/-! ### References to the tunnel -/

@[simp] theorem tunnelCtxAddRef_socket (t : TunnelCtx δ) (side : Side) :
    (tunnelCtxAddRef t).socket side = t.socket side := by
  cases side <;> rfl

theorem inv_addRef (hinv : Inv held pin t) (hd : t.destroyed = 0) :
    Inv (held + 1) pin (tunnelCtxAddRef t) where
  refs := by
    have hrefs := hinv.refs
    change t.refCount + 1 = ((held + 1 : ℕ) : ℤ) + busy t.incoming + busy t.outgoing
    push_cast
    omega
  destroyed_eq := by
    have halive := hinv.alive hd
    change t.destroyed = if t.refCount + 1 = 0 then 1 else 0
    rw [if_neg (by omega)]
    exact hd
  socket_inv side := by
    rw [tunnelCtxAddRef_socket]
    exact hinv.socket_inv side
  all_closed hzero := absurd hzero (Nat.succ_ne_zero held)

theorem tunnelCtxRelease_isTerminated (t : TunnelCtx δ) :
    (tunnelCtxRelease t).isTerminated = t.isTerminated := by
  simp only [tunnelCtxRelease]
  split_ifs
  · exact check_isTerminated _ _
  · rfl

theorem tunnelCtxRelease_of_one (hone : t.refCount = 1) :
    tunnelCtxRelease t = tunnelDestroyInternal { t with refCount := 0 } := by
  simp [tunnelCtxRelease, hone, TunnelCtx.check]

theorem tunnelCtxRelease_of_more (hmore : 1 < t.refCount) :
    tunnelCtxRelease t = { t with refCount := t.refCount - 1 } := by
  have hpos : ¬t.refCount - 1 ≤ 0 := by omega
  simp only [tunnelCtxRelease, if_neg hpos]

/-- A release changes at most the reference count of a socket. -/
theorem tunnelCtxRelease_socket (t : TunnelCtx δ) (side : Side) :
    ((tunnelCtxRelease t).socket side).isTerminated = (t.socket side).isTerminated ∧
      ((tunnelCtxRelease t).socket side).lookups = (t.socket side).lookups := by
  simp only [tunnelCtxRelease]
  split_ifs
  · unfold TunnelCtx.check
    split_ifs <;> cases side <;> exact ⟨rfl, rfl⟩
  · cases side <;> exact ⟨rfl, rfl⟩

/-- A destroyed tunnel has given back its reference to a socket. -/
theorem SocketInv.unref {n : ℤ} {s : SocketCtx} (hs : SocketInv 0 n s) (hterm : s.isTerminated = true) :
    SocketInv 1 n { s with refCount := s.refCount - 1 } := by
  obtain ⟨href, hclosing, hon⟩ := hs.closed_counts hterm
  refine ⟨fun hopen => ?_, fun _ => ⟨?_, hclosing, hon⟩, hs.closed_idle⟩
  · rw [hterm] at hopen
    cases hopen
  · change s.refCount - 1 = pend s + 1 - (1 : ℕ) + n
    rw [href]
    push_cast
    omega

theorem inv_destroy (hinv : Inv 1 pin t) (hlast : t.refCount = 1)
    (hclosed : ∀ side, (t.socket side).isTerminated = true) :
    Inv 0 pin (tunnelDestroyInternal { t with refCount := 0 }) := by
  have hrefs := hinv.refs
  have hd : t.destroyed = 0 := hinv.destroyed_eq_zero (by omega)
  have hsocket : ∀ side, SocketInv (t.destroyed + 1) (pin side)
      { t.socket side with refCount := (t.socket side).refCount - 1 } := by
    intro side
    have hs := hinv.socket_inv side
    rw [hd] at hs ⊢
    exact hs.unref (hclosed side)
  refine ⟨?_, ?_, ?_, ?_⟩
  · change (0 : ℤ) = (0 : ℕ) + busy t.incoming + busy t.outgoing
    push_cast at hrefs ⊢
    omega
  · change t.destroyed + 1 = 1
    omega
  · intro side
    cases side with
    | incoming => exact hsocket .incoming
    | outgoing => exact hsocket .outgoing
  · intro _ side
    cases side with
    | incoming => exact hclosed .incoming
    | outgoing => exact hclosed .outgoing

/-- The last reference is released only when both sockets are closed, and then the tunnel goes with
its references to them. -/
theorem inv_release (hinv : Inv (held + 1) pin t)
    (hclosed : held = 0 → ∀ side, (t.socket side).isTerminated = true) :
    Inv held pin (tunnelCtxRelease t) := by
  have hrefs := hinv.refs
  have hge := hinv.refCount_ge
  have hin := busy_nonneg t.incoming
  have hout := busy_nonneg t.outgoing
  push_cast at hrefs hge
  by_cases hlast : t.refCount = 1
  · obtain rfl : held = 0 := by omega
    rw [tunnelCtxRelease_of_one hlast]
    exact inv_destroy hinv hlast (hclosed rfl)
  · rw [tunnelCtxRelease_of_more (by omega)]
    refine ⟨?_, ?_, ?_, ?_⟩
    · change t.refCount - 1 = held + busy t.incoming + busy t.outgoing
      omega
    · change t.destroyed = if t.refCount - 1 = 0 then 1 else 0
      rw [if_neg (by omega)]
      exact hinv.destroyed_eq_zero (by omega)
    · intro side
      cases side with
      | incoming => exact hinv.socket_inv .incoming
      | outgoing => exact hinv.socket_inv .outgoing
    · intro hzero side
      cases side with
      | incoming => exact hclosed hzero .incoming
      | outgoing => exact hclosed hzero .outgoing

/-! ### Closing -/

/-- A socket after `socket_ctx_close`, its handles still closing. -/
def closing (s : SocketCtx) : SocketCtx :=
  { s with
    isTerminated := true
    rdstate := .dead
    wrstate := .dead
    reading := false
    timerActive := false
    refCount := s.refCount + 2
    handleClosing := true
    timerClosing := true
    closingCount := 2
    onClosed := true }

theorem socketCtxClose_of_closed {side : Side} (hterm : (t.socket side).isTerminated = true) :
    socketCtxClose t side = tunnelCtxRelease t := if_pos hterm

theorem socketCtxClose_of_open {side : Side} (hopen : (t.socket side).isTerminated = false) :
    ∃ b, socketCtxClose t side = (t.check b).setSocket side (closing (t.socket side)) :=
  ⟨_, if_neg (Bool.eq_false_iff.1 hopen)⟩

theorem closing_inv {n : ℤ} {s : SocketCtx} (hs : SocketInv 0 n s) (hopen : s.isTerminated = false) :
    SocketInv 0 n (closing s) := by
  obtain ⟨href, -, -⟩ := hs.open_counts hopen
  refine ⟨fun h => ?_, fun _ => ⟨?_, rfl, fun _ => rfl⟩, fun _ => ⟨rfl, rfl, fun h => ?_⟩⟩
  · cases h
  · change s.refCount + 2 = 2 + 1 - ((0 : ℕ) : ℤ) + n
    push_cast
    omega
  · cases h

/-- `socket_ctx_close` takes over a reference to the tunnel, and gives it back at once if the socket
is closed already. -/
theorem inv_close (hinv : Inv (held + 1) pin t)
    (hclosed : held = 0 → ∀ side, (t.socket side).isTerminated = true) (side : Side) :
    Inv held pin (socketCtxClose t side) := by
  cases hterm : (t.socket side).isTerminated with
  | true =>
      rw [socketCtxClose_of_closed hterm]
      exact inv_release hinv hclosed
  | false =>
      obtain ⟨b, heq⟩ := socketCtxClose_of_open hterm
      have hs := hinv.socket_inv side
      have hbusy : busy (t.socket side) = 0 := if_neg (by have := (hs.open_counts hterm).2.2; omega)
      rw [heq]
      refine (hinv.keeps (keeps_check t b)).setSocket ?_ rfl ?_ fun hzero => ?_
      · rw [check_destroyed, hinv.destroyed_eq_zero (hinv.alive_of_open hterm)] at *
        exact closing_inv hs hterm
      · rw [check_socket, hbusy]
        change (held : ℤ) + 1 = ((held + 1 : ℕ) : ℤ) + 0
        push_cast
        omega
      · rw [hclosed hzero side] at hterm
        cases hterm

theorem socketCtxClose_isTerminated (t : TunnelCtx δ) (side : Side) :
    (socketCtxClose t side).isTerminated = t.isTerminated := by
  cases hterm : (t.socket side).isTerminated with
  | true =>
      rw [socketCtxClose_of_closed hterm]
      exact tunnelCtxRelease_isTerminated t
  | false =>
      obtain ⟨b, heq⟩ := socketCtxClose_of_open hterm
      rw [heq, setSocket_isTerminated, check_isTerminated]

theorem socketCtxClose_closed (t : TunnelCtx δ) (side : Side) :
    ((socketCtxClose t side).socket side).isTerminated = true := by
  cases hterm : (t.socket side).isTerminated with
  | true =>
      rw [socketCtxClose_of_closed hterm]
      exact (tunnelCtxRelease_socket t side).1.trans hterm
  | false =>
      obtain ⟨b, heq⟩ := socketCtxClose_of_open hterm
      rw [heq, socket_setSocket]
      rfl

theorem staysClosed_addRef (t : TunnelCtx δ) : StaysClosed t (tunnelCtxAddRef t) := by
  intro side hterm
  rw [tunnelCtxAddRef_socket]
  exact ⟨hterm, Nat.le_refl _⟩

theorem staysClosed_release (t : TunnelCtx δ) : StaysClosed t (tunnelCtxRelease t) := by
  intro side hterm
  obtain ⟨h1, h2⟩ := tunnelCtxRelease_socket t side
  exact ⟨h1.trans hterm, Nat.le_of_eq h2⟩

theorem staysClosed_close (t : TunnelCtx δ) (side : Side) :
    StaysClosed t (socketCtxClose t side) := by
  cases hterm : (t.socket side).isTerminated with
  | true =>
      rw [socketCtxClose_of_closed hterm]
      exact staysClosed_release t
  | false =>
      intro side' hterm'
      have hside : side' ≠ side := by
        intro hside
        rw [← hside, hterm'] at hterm
        cases hterm
      obtain ⟨b, heq⟩ := socketCtxClose_of_open hterm
      rw [heq, socket_setSocket_ne _ hside, check_socket]
      exact ⟨hterm', Nat.le_refl _⟩

theorem evolves_close (side : Side) (hd : t.destroyed = 0) :
    Evolves t (socketCtxClose (tunnelCtxAddRef t) side) := by
  refine ⟨fun pin hgood => ?_, (staysClosed_addRef t).trans (staysClosed_close _ side)⟩
  unfold Good
  rw [socketCtxClose_isTerminated]
  refine inv_close (inv_addRef hgood hd) (fun hzero side' => ?_) side
  rw [tunnelCtxAddRef_socket]
  exact Inv.all_closed hgood hzero side'

/-- `tunnel_shutdown` after its test: both sockets are closed for the tunnel, and its own reference
is released. -/
theorem inv_shutdown (hinv : Inv 1 pin t) :
    Inv 0 pin (tunnelCtxRelease (socketCtxClose
      (tunnelCtxAddRef (socketCtxClose (tunnelCtxAddRef t) .incoming)) .outgoing)) := by
  have hclose : ∀ {u : TunnelCtx δ} (side : Side), Inv 1 pin u →
      Inv 1 pin (socketCtxClose (tunnelCtxAddRef u) side) := by
    intro u side hu
    have hge := hu.refCount_ge
    have hd := hu.destroyed_eq_zero (by omega)
    exact inv_close (inv_addRef hu hd) (fun hzero => absurd hzero Nat.one_ne_zero) side
  refine inv_release (hclose .outgoing (hclose .incoming hinv)) fun _ side => ?_
  cases side with
  | incoming =>
      refine (staysClosed_close _ .outgoing .incoming ?_).1
      rw [tunnelCtxAddRef_socket]
      exact socketCtxClose_closed _ .incoming
  | outgoing => exact socketCtxClose_closed _ .outgoing

theorem evolves_shutdown (t : TunnelCtx δ) : Evolves t (tunnelShutdown t) := by
  unfold tunnelShutdown
  split_ifs with hterm
  · exact Evolves.refl t
  · extract_lets t0 t1 t2
    have h0 : StaysClosed t t0 := by
      intro side hside
      cases side <;> exact ⟨hside, Nat.le_refl _⟩
    refine ⟨fun pin hgood => ?_, ?_⟩
    · have hflag : (tunnelCtxRelease t2).isTerminated = true := by
        rw [tunnelCtxRelease_isTerminated, socketCtxClose_isTerminated]
        change t1.isTerminated = true
        rw [socketCtxClose_isTerminated]
        rfl
      unfold Good at hgood ⊢
      rw [if_neg hterm] at hgood
      rw [hflag]
      refine inv_shutdown ⟨hgood.refs, hgood.destroyed_eq, fun side => ?_, fun hzero => ?_⟩
      · cases side with
        | incoming => exact hgood.socket_inv .incoming
        | outgoing => exact hgood.socket_inv .outgoing
      · cases hzero
    · exact h0.trans (((staysClosed_addRef t0).trans (staysClosed_close _ .incoming)).trans
        (((staysClosed_addRef t1).trans (staysClosed_close _ .outgoing)).trans
          (staysClosed_release t2)))

/-! ### Handlers -/

theorem keeps_setStates (t : TunnelCtx δ) (side : Side) (rd wr : SocketState) :
    Keeps t (setStates t side rd wr) :=
  keeps_setSocket ⟨rfl, rfl, rfl, rfl, rfl, rfl, fun _ => ⟨id, id, le_rfl, le_rfl, le_rfl⟩⟩

theorem Evolves.onOpenSocket {side : Side} {f : SocketCtx → SocketCtx} (hev : Evolves t t')
    (hf : ∀ s, (f s).isTerminated = s.isTerminated ∧ (f s).refCount = s.refCount ∧
      (f s).closingCount = s.closingCount ∧ (f s).onClosed = s.onClosed ∧
      (f s).handleClosing = s.handleClosing ∧ (f s).timerClosing = s.timerClosing) :
    Evolves t (onOpenSocket t' side f) :=
  hev.trans (keeps_onOpenSocket hf).evolves

theorem Evolves.setStates {side : Side} {rd wr : SocketState} (hev : Evolves t t') :
    Evolves t (setStates t' side rd wr) :=
  hev.trans (keeps_setStates t' side rd wr).evolves

theorem Evolves.check {b : Bool} (hev : Evolves t t') : Evolves t (t'.check b) :=
  hev.trans (keeps_check t' b).evolves

theorem evolves_apiStep (hstep : ApiStep t t') : Evolves t t' := by
  cases hstep with
  | data d =>
      refine Keeps.evolves ⟨rfl, rfl, rfl, fun side => ?_⟩
      cases side <;> exact Eases.refl _
  | check b => exact (Evolves.refl t).check
  | states side rd wr => exact (Evolves.refl t).setStates
  | read side b =>
      exact Evolves.onOpenSocket (Evolves.refl t).check fun _ => ⟨rfl, rfl, rfl, rfl, rfl, rfl⟩
  | write side d =>
      exact Evolves.onOpenSocket (Evolves.refl t) fun _ => ⟨rfl, rfl, rfl, rfl, rfl, rfl⟩
  | connect side =>
      exact Evolves.onOpenSocket (Evolves.refl t) fun _ => ⟨rfl, rfl, rfl, rfl, rfl, rfl⟩
  | getaddrinfo side =>
      exact Evolves.onOpenSocket (Evolves.refl t) fun _ => ⟨rfl, rfl, rfl, rfl, rfl, rfl⟩
  | shutdown => exact evolves_shutdown t

theorem evolves_apiSteps (hsteps : ApiSteps t t') : Evolves t t' := by
  induction hsteps with
  | refl => exact Evolves.refl _
  | tail _ hstep ih => exact ih.trans (evolves_apiStep hstep)

/-! ## The callbacks -/

section Callbacks

variable {h : Handlers δ}

/-- An assignment to fields of a socket that stops what it changes. -/
theorem evolves_setSocket {side : Side} {s : SocketCtx} (heases : Eases (t.socket side) s) :
    Evolves t (t.setSocket side s) :=
  (keeps_setSocket heases).evolves

theorem Evolves.setResult {side : Side} {result : ℤ} (hev : Evolves t t') :
    Evolves t (setResult t' side result) :=
  hev.trans (evolves_setSocket ⟨rfl, rfl, rfl, rfl, rfl, rfl,
    fun _ => ⟨id, id, le_rfl, le_rfl, le_rfl⟩⟩)

theorem Evolves.readStopped {side : Side} (hev : Evolves t t') :
    Evolves t (readStopped h t' side) := by
  refine hev.check.trans (evolves_setSocket ?_)
  rw [check_socket]
  refine ⟨rfl, rfl, rfl, rfl, rfl, rfl, fun _ => ⟨fun hr => ?_, fun ht => ?_, le_rfl, le_rfl, le_rfl⟩⟩
  · exact (Bool.and_eq_true _ _ ▸ hr).1
  · cases ht

theorem evolves_readDone (hh : h.UsesApi) (t : TunnelCtx δ) (side : Side) (data : Bytes) :
    Evolves t (uvSocketReadDoneCb h t side data) := by
  unfold uvSocketReadDoneCb
  extract_lets u v
  have hu : Evolves t u := (Evolves.refl t).setResult
  have hv : Evolves t v :=
    hu.readStopped.setStates.trans (evolves_apiSteps (hh.readDone _ side data))
  split_ifs
  · exact hu
  · exact hu
  · exact hv
  · exact hv.onOpenSocket fun _ => ⟨rfl, rfl, rfl, rfl, rfl, rfl⟩
  · exact hv

theorem evolves_readFailed (hh : h.UsesApi) (t : TunnelCtx δ) (side : Side) (eof : Bool) :
    Evolves t (uvSocketReadFailedCb h t side eof) := by
  unfold uvSocketReadFailedCb
  extract_lets u v w
  have hu : Evolves t u := (Evolves.refl t).setResult
  have hw : Evolves t w := hu.readStopped.setStates
  split_ifs
  · exact hu
  · exact hw.trans (evolves_apiSteps (hh.endOfFile _ side))
  · exact hw.trans (evolves_shutdown _)

theorem evolves_writeDone (hh : h.UsesApi) (t : TunnelCtx δ) (side : Side) (ok : Bool) :
    Evolves t (uvSocketWriteDoneCb h t side ok) := by
  unfold uvSocketWriteDoneCb
  extract_lets s u v
  have hu : Evolves t u :=
    evolves_setSocket
      ⟨rfl, rfl, rfl, rfl, rfl, rfl, fun _ => ⟨id, id, le_rfl, Nat.sub_le _ 1, le_rfl⟩⟩
  have hv : Evolves t v := hu.setResult
  split_ifs
  · exact hv
  · exact hv.setStates.trans (evolves_shutdown _)
  · exact hv.check.setStates.trans (evolves_apiSteps (hh.writeDone _ side))

theorem evolves_connectDone (hh : h.UsesApi) (t : TunnelCtx δ) (side : Side) (ok : Bool) :
    Evolves t (uvSocketConnectDoneCb h t side ok) := by
  unfold uvSocketConnectDoneCb
  extract_lets s u
  have hu : Evolves t u :=
    evolves_setSocket
      ⟨rfl, rfl, rfl, rfl, rfl, rfl,
        fun _ => ⟨id, fun ht => absurd ht Bool.false_ne_true, Nat.sub_le _ 1, le_rfl, le_rfl⟩⟩
  clear_value u
  split_ifs
  · exact hu
  · exact hu.trans (evolves_shutdown _)
  · exact hu.trans (evolves_apiSteps (hh.connectedDone _ side))

theorem evolves_getaddrinfoDone (hh : h.UsesApi) (t : TunnelCtx δ) (side : Side) (ok : Bool) :
    Evolves t (uvSocketOnGetaddrinfoCb h t side ok) := by
  unfold uvSocketOnGetaddrinfoCb
  extract_lets s u
  have hu : Evolves t u :=
    evolves_setSocket
      ⟨rfl, rfl, rfl, rfl, rfl, rfl,
        fun _ => ⟨id, fun ht => absurd ht Bool.false_ne_true, le_rfl, le_rfl, Nat.sub_le _ 1⟩⟩
  clear_value u
  split_ifs
  · exact hu
  · exact hu.trans (evolves_shutdown _)
  · exact hu.trans (evolves_apiSteps (hh.getaddrinfoDone _ side))

/-! ### The timer

Its callback holds a reference to the socket while it runs. -/

/-- The references of one more callback on `side`. -/
def pinned (side side' : Side) : ℤ := if side' = side then 1 else 0

theorem pinned_other (side : Side) : pinned side side.other = 0 := by
  cases side <;> rfl

theorem SocketInv.pin_add {d : ℕ} {n m : ℤ} {s s' : SocketCtx} (hs : SocketInv d n s)
    (href : s'.refCount = s.refCount + m) (heases : Eases s { s' with refCount := s.refCount }) :
    SocketInv d (n + m) s' := by
  have hs' := hs.eases heases
  refine ⟨fun hopen => ?_, fun hterm => ?_, hs'.closed_idle⟩
  · obtain ⟨href', hclosing, hpend⟩ := hs'.open_counts hopen
    have href'' : s.refCount = 1 + n := href'
    exact ⟨by omega, hclosing, hpend⟩
  · obtain ⟨href', hclosing, hon⟩ := hs'.closed_counts hterm
    have href'' : s.refCount = pend s' + 1 - d + n := href'
    exact ⟨by omega, hclosing, hon⟩

/-- Taking or giving back `m` references to a socket. -/
theorem good_pin {pin' : Side → ℤ} {side : Side} {m : ℤ} {s : SocketCtx} (hgood : Good pin t)
    (href : s.refCount = (t.socket side).refCount + m)
    (heases : Eases (t.socket side) { s with refCount := (t.socket side).refCount })
    (hpin : pin' side = pin side + m) (hother : pin' side.other = pin side.other) :
    Good pin' (t.setSocket side s) := by
  have hbusy : busy s = busy (t.socket side) := heases.busy_eq
  have hterm : s.isTerminated = (t.socket side).isTerminated := heases.isTerminated_eq
  unfold Good
  rw [setSocket_isTerminated]
  refine Inv.setSocket hgood ?_ hother (by rw [hbusy]) fun hzero => ?_
  · rw [hpin]
    exact (Inv.socket_inv hgood side).pin_add href heases
  · rw [hterm]
    exact ⟨Inv.all_closed hgood hzero _, Inv.all_closed hgood hzero _⟩

theorem good_timeout (hh : h.UsesApi) (side : Side) (hgood : Good (fun _ => 0) t) :
    Good (fun _ => 0) (uvSocketTimerExpireCb h t side) := by
  unfold uvSocketTimerExpireCb
  extract_lets s u v s'
  have hu : Good (pinned side) u := by
    refine good_pin hgood rfl ?_ ?_ (pinned_other side)
    · exact ⟨rfl, rfl, rfl, rfl, rfl, rfl,
        fun _ => ⟨id, fun ht => absurd ht Bool.false_ne_true, le_rfl, le_rfl, le_rfl⟩⟩
    · exact if_pos rfl
  have hv : Good (pinned side) v := by
    by_cases hterm : u.isTerminated = true
    · have heq : v = u := if_pos hterm
      rw [heq]
      exact hu
    · have heq : v = tunnelShutdown (h.tunnelTimeoutExpireDone u side) := if_neg hterm
      rw [heq]
      exact ((evolves_apiSteps (hh.timeoutDone u side)).trans (evolves_shutdown _)).good _ hu
  refine good_pin (m := -1) hv rfl ?_ ?_ (pinned_other side).symm
  · exact ⟨rfl, rfl, rfl, rfl, rfl, rfl, fun _ => ⟨id, id, le_rfl, le_rfl, le_rfl⟩⟩
  · rw [pinned, if_pos rfl]
    rfl

theorem staysClosed_timeout (hh : h.UsesApi) (t : TunnelCtx δ) (side : Side) :
    StaysClosed t (uvSocketTimerExpireCb h t side) := by
  unfold uvSocketTimerExpireCb
  extract_lets s u v s'
  have hu : StaysClosed t u := staysClosed_setSocket rfl rfl
  have hv : StaysClosed u v := by
    by_cases hterm : u.isTerminated = true
    · have heq : v = u := if_pos hterm
      rw [heq]
      exact StaysClosed.refl u
    · have heq : v = tunnelShutdown (h.tunnelTimeoutExpireDone u side) := if_neg hterm
      rw [heq]
      exact ((evolves_apiSteps (hh.timeoutDone u side)).trans (evolves_shutdown _)).closed
  exact (hu.trans hv).trans (staysClosed_setSocket rfl rfl)

/-! ### Closed handles -/

@[simp] theorem setSocket_setSocket (t : TunnelCtx δ) (side : Side) (s s' : SocketCtx) :
    (t.setSocket side s).setSocket side s' = t.setSocket side s' := by
  cases side <;> rfl

/-- What the last close callback does to its socket after the release could be done before it. -/
theorem tunnelCtxRelease_setSocket (side : Side) (hpos : 0 < t.refCount) :
    (tunnelCtxRelease t).setSocket side
        { (tunnelCtxRelease t).socket side with
          onClosed := false
          refCount := ((tunnelCtxRelease t).socket side).refCount - 1 } =
      tunnelCtxRelease (t.setSocket side
        { t.socket side with onClosed := false, refCount := (t.socket side).refCount - 1 }) := by
  by_cases hone : t.refCount = 1
  · rw [tunnelCtxRelease_of_one hone,
      tunnelCtxRelease_of_one ((setSocket_refCount t side _).trans hone)]
    cases side <;> rfl
  · have hmore : 1 < t.refCount := by omega
    rw [tunnelCtxRelease_of_more hmore, tunnelCtxRelease_of_more (by rwa [setSocket_refCount])]
    cases side <;> rfl

/-- The first of the two handles. -/
theorem closeDone_first {side : Side} (hclosing : 1 < (t.socket side).closingCount) :
    uvSocketCloseDoneCb t side = t.setSocket side
      { t.socket side with
        closingCount := (t.socket side).closingCount - 1
        refCount := (t.socket side).refCount - 1 } := by
  have hpos : ¬(t.socket side).closingCount - 1 ≤ 0 := by omega
  simp only [uvSocketCloseDoneCb, if_neg hpos, socket_setSocket, setSocket_setSocket]

/-- The last one. -/
theorem closeDone_last {side : Side} (hclosing : (t.socket side).closingCount = 1)
    (hon : (t.socket side).onClosed = true) (hpos : 0 < t.refCount) :
    uvSocketCloseDoneCb t side = tunnelCtxRelease (t.setSocket side
      { t.socket side with
        closingCount := 0
        onClosed := false
        refCount := (t.socket side).refCount - 1 }) := by
  set u := t.setSocket side { t.socket side with closingCount := 0 } with hu
  have hstep : uvSocketCloseDoneCb t side = (tunnelCtxRelease u).setSocket side
      { (tunnelCtxRelease u).socket side with
        onClosed := false
        refCount := ((tunnelCtxRelease u).socket side).refCount - 1 } := by
    simp [uvSocketCloseDoneCb, hclosing, hon, tunnelSocketCtxOnClosedCb, TunnelCtx.check, hu]
  rw [hstep, tunnelCtxRelease_setSocket side (by rwa [hu, setSocket_refCount]), hu,
    setSocket_setSocket, socket_setSocket]

/-- One handle of `side` is closed; `s` is the socket without it. -/
theorem good_closeDone {side : Side} {s : SocketCtx} (hgood : Good pin t)
    (hpend : pend s + 1 = pend (t.socket side))
    (heq : s.isTerminated = (t.socket side).isTerminated ∧ s.refCount = (t.socket side).refCount ∧
      s.closingCount = (t.socket side).closingCount ∧ s.onClosed = (t.socket side).onClosed)
    (hidle : s.reading = false ∧ s.timerActive = false ∧
      (s.handleClosing = false → s.connects = 0 ∧ s.writes = 0)) :
    Good pin (uvSocketCloseDoneCb (t.setSocket side s) side) := by
  obtain ⟨hterm, href, hclosing, hon⟩ := heq
  have hs := Inv.socket_inv hgood side
  have hnonneg := pend_nonneg s
  have hpos : 0 < pend (t.socket side) := by omega
  have halive : 0 < t.refCount := Inv.alive_of_pend hgood hpos
  have hd : t.destroyed = 0 := Inv.destroyed_eq_zero hgood halive
  have hterm' := Inv.terminated_of_pend hgood hpos
  obtain ⟨href', hclosing', hon'⟩ := hs.closed_counts hterm'
  rw [hd] at href'
  have hbusy' : busy (t.socket side) = 1 := if_pos hpos
  have hs' : ∀ b c, (0 < pend s → b = true) → c = pend s → SocketInv t.destroyed (pin side)
      { s with closingCount := c, onClosed := b, refCount := s.refCount - 1 } := by
    intro b c hb hc
    rw [hd]
    refine ⟨fun hopen => ?_, fun _ => ⟨?_, hc, hb⟩, fun _ => hidle⟩
    · rw [← hterm] at hterm'
      cases hterm'.symm.trans hopen
    · change s.refCount - 1 = pend s + 1 - ((0 : ℕ) : ℤ) + pin side
      push_cast at href' ⊢
      omega
  unfold Good
  -- the last handle of the socket gives its reference to the tunnel back
  by_cases hlast : pend s = 0
  · rw [closeDone_last (by rw [socket_setSocket]; omega)
      (by rw [socket_setSocket, hon]; exact hon' hpos) (by rwa [setSocket_refCount]),
      setSocket_setSocket, socket_setSocket, tunnelCtxRelease_isTerminated, setSocket_isTerminated]
    have hbusy : busy s = 0 := if_neg (by omega)
    refine inv_release (Inv.setSocket hgood ?_ rfl ?_ fun hzero => ?_) fun hzero side' => ?_
    · exact hs' false 0 (fun h => absurd h (by omega)) hlast.symm
    · change ((_ + 1 : ℕ) : ℤ) + busy s = _
      rw [hbusy, hbusy']
      push_cast
      omega
    · cases hzero
    · have hside := Inv.all_closed hgood hzero side'
      rw [← hterm] at hterm'
      by_cases hne : side' = side
      · subst hne
        rw [socket_setSocket]
        exact hterm'
      · rw [socket_setSocket_ne t hne]
        exact hside
  · -- another handle is still open: the socket only counts down
    have hbusy : busy s = 1 := if_pos (by omega)
    rw [closeDone_first (by rw [socket_setSocket]; omega), setSocket_setSocket, socket_setSocket,
      setSocket_isTerminated]
    refine Inv.setSocket hgood ?_ rfl ?_ fun hzero => ⟨hterm.trans hterm', ?_⟩
    · exact hs' s.onClosed (s.closingCount - 1) (fun _ => hon.trans (hon' hpos)) (by omega)
    · change _ + busy s = _
      rw [hbusy, hbusy']
    · exact Inv.all_closed hgood hzero side.other

theorem staysClosed_closeDone (t : TunnelCtx δ) (side : Side) :
    StaysClosed t (uvSocketCloseDoneCb t side) := by
  unfold uvSocketCloseDoneCb
  extract_lets s u u1 u2 s2 u3 s3
  have hu : StaysClosed t u := staysClosed_setSocket rfl rfl
  have h1 : StaysClosed u u1 := (keeps_check u _).evolves.closed
  have h2 : StaysClosed u1 u2 := staysClosed_release u1
  have h3 : StaysClosed u u3 := by
    simp only [u3]
    split_ifs
    · exact (h1.trans h2).trans (staysClosed_setSocket rfl rfl)
    · exact h1
    · exact StaysClosed.refl u
  exact (hu.trans h3).trans (staysClosed_setSocket rfl rfl)

/-! ## Runs -/

theorem good_handleClosed {side : Side} (hgood : Good pin t)
    (hen : Enabled t (.handleClosed side)) : Good pin (step h t (.handleClosed side)) := by
  obtain ⟨hhandle, hconnects, hwrites⟩ := hen
  have hpos : 0 < pend (t.socket side) := pend_pos (.inl hhandle)
  have hterm := Inv.terminated_of_pend hgood hpos
  obtain ⟨hr, ht, -⟩ := (Inv.socket_inv hgood side).closed_idle hterm
  refine good_closeDone hgood ?_ ⟨rfl, rfl, rfl, rfl⟩ ⟨hr, ht, fun _ => ⟨hconnects, hwrites⟩⟩
  unfold pend
  rw [hhandle]
  simp only [Bool.false_eq_true, if_false, if_true]
  omega

theorem good_timerClosed {side : Side} (hgood : Good pin t)
    (hen : Enabled t (.timerClosed side)) : Good pin (step h t (.timerClosed side)) := by
  have htimer : (t.socket side).timerClosing = true := hen
  have hpos : 0 < pend (t.socket side) := pend_pos (.inr htimer)
  have hterm := Inv.terminated_of_pend hgood hpos
  obtain ⟨hr, ht, hidle⟩ := (Inv.socket_inv hgood side).closed_idle hterm
  refine good_closeDone hgood ?_ ⟨rfl, rfl, rfl, rfl⟩ ⟨hr, ht, hidle⟩
  unfold pend
  rw [htimer]
  simp only [Bool.false_eq_true, if_false, if_true]
  omega

/-- Every event keeps the counts right. -/
theorem good_step (hh : h.UsesApi) (hgood : Good (fun _ => 0) t) {e : Event} (hen : Enabled t e) :
    Good (fun _ => 0) (step h t e) := by
  cases e with
  | read side data => exact (evolves_readDone hh t side data).good _ hgood
  | readFailed side eof => exact (evolves_readFailed hh t side eof).good _ hgood
  | written side ok => exact (evolves_writeDone hh t side ok).good _ hgood
  | connected side ok => exact (evolves_connectDone hh t side ok).good _ hgood
  | resolved side ok => exact (evolves_getaddrinfoDone hh t side ok).good _ hgood
  | timeout side => exact good_timeout hh side hgood
  | handleClosed side => exact good_handleClosed hgood hen
  | timerClosed side => exact good_timerClosed hgood hen
  | shutdown => exact (evolves_shutdown t).good _ hgood
  | close side => exact (evolves_close side hen).good _ hgood

theorem staysClosed_step (hh : h.UsesApi) (t : TunnelCtx δ) (e : Event) :
    StaysClosed t (step h t e) := by
  cases e with
  | read side data => exact (evolves_readDone hh t side data).closed
  | readFailed side eof => exact (evolves_readFailed hh t side eof).closed
  | written side ok => exact (evolves_writeDone hh t side ok).closed
  | connected side ok => exact (evolves_connectDone hh t side ok).closed
  | resolved side ok => exact (evolves_getaddrinfoDone hh t side ok).closed
  | timeout side => exact staysClosed_timeout hh t side
  | handleClosed side =>
      have hset : StaysClosed t (t.setSocket side { t.socket side with handleClosing := false }) :=
        staysClosed_setSocket rfl rfl
      exact hset.trans (staysClosed_closeDone _ side)
  | timerClosed side =>
      have hset : StaysClosed t (t.setSocket side { t.socket side with timerClosing := false }) :=
        staysClosed_setSocket rfl rfl
      exact hset.trans (staysClosed_closeDone _ side)
  | shutdown => exact (evolves_shutdown t).closed
  | close side => exact (staysClosed_addRef t).trans (staysClosed_close _ side)

theorem socketContextCreate_inv : SocketInv 0 0 socketContextCreate where
  open_counts _ := ⟨rfl, rfl, rfl⟩
  closed_counts hterm := absurd hterm Bool.false_ne_true
  closed_idle hterm := absurd hterm Bool.false_ne_true

theorem good_initialize (data : δ) (listener success : Bool) :
    Good (fun _ => 0) (tunnelInitialize data listener success) := by
  unfold tunnelInitialize
  extract_lets t0 t1
  have h1 : Good (fun _ => 0) t1 := by
    have hbusy : busy socketContextCreate = 0 := by decide
    change Inv 1 (fun _ => 0) t1
    refine ⟨?_, ?_, fun side => ?_, fun hzero => ?_⟩
    · change (0 + 1 : ℤ) = (1 : ℕ) + busy socketContextCreate + busy socketContextCreate
      rw [hbusy]
      rfl
    · change 0 = if (0 + 1 : ℤ) = 0 then 1 else 0
      decide
    · cases side <;> exact socketContextCreate_inv
    · exact absurd hzero Nat.one_ne_zero
  split_ifs
  · exact (evolves_apiStep (.read t1 .incoming true)).good _ h1
  · exact h1
  · exact (evolves_shutdown t1).good _ h1

end Callbacks

/-! ## The lifetime of a tunnel -/

variable {h : Handlers δ}

/-- The tunnel is destroyed once at most, with both sockets closed, and is destroyed when they are;
and whatever libuv may call back for is still there. -/
structure LifetimeOk (t : TunnelCtx δ) : Prop where
  destroyed_le_one : t.destroyed ≤ 1
  closed_of_destroyed : t.destroyed = 1 →
    ∀ side, (t.socket side).isTerminated = true ∧ (t.socket side).closingCount = 0
  destroyed_of_closed : t.isTerminated = true → (∀ side, (t.socket side).closingCount = 0) →
    t.destroyed = 1
  alive_of_callback : ∀ e side, e.callback? = some side → Enabled t e →
    0 < (t.socket side).refCount ∧ 0 < t.refCount ∧ t.destroyed = 0

/-- The event closes no socket while a lookup is in flight on it: `socket_ctx_close` has nothing to
cancel. -/
def CancelsNoLookup (h : Handlers δ) (t : TunnelCtx δ) (e : Event) : Prop :=
  ∀ side, (t.socket side).isTerminated = false → ((step h t e).socket side).isTerminated = true →
    ((step h t e).socket side).lookups = 0

/-- On a closed socket without lookups only closing handles call back, and the requests of the
handle that is closing. -/
theorem pend_pos_of_callback {side : Side} (hs : SocketInv t.destroyed 0 (t.socket side))
    (hterm : (t.socket side).isTerminated = true) (hlookups : (t.socket side).lookups = 0) {e : Event}
    (he : e.callback? = some side) (hen : Enabled t e) : 0 < pend (t.socket side) := by
  obtain ⟨hr, ht, hidle⟩ := hs.closed_idle hterm
  apply pend_pos
  cases e <;> simp only [Event.callback?, Option.some.injEq, reduceCtorEq] at he <;> subst he <;>
    simp only [Enabled] at hen
  case read => simp [hr] at hen
  case readFailed => simp [hr] at hen
  case timeout => simp [ht] at hen
  case resolved => omega
  case handleClosed => exact .inl hen.1
  case timerClosed => exact .inr hen
  all_goals
    left
    by_contra hclosed
    have := hidle (Bool.eq_false_iff.2 hclosed)
    omega

theorem Good.lifetimeOk (hgood : Good (fun _ => 0) t)
    (hlookups : ∀ side, (t.socket side).isTerminated = true → (t.socket side).lookups = 0) :
    LifetimeOk t where
  destroyed_le_one := by
    rw [Inv.destroyed_eq hgood]
    split_ifs <;> omega
  closed_of_destroyed hd side := by
    -- a handle that is open, or a socket that is, would keep the tunnel alive
    have hpend : ¬0 < pend (t.socket side) := by
      intro hpos
      have hzero := Inv.destroyed_eq_zero hgood (Inv.alive_of_pend hgood hpos)
      omega
    have hterm : (t.socket side).isTerminated = true := by
      by_contra hopen
      have halive := Inv.alive_of_open hgood (Bool.eq_false_iff.2 hopen)
      have hzero := Inv.destroyed_eq_zero hgood halive
      omega
    obtain ⟨-, hclosing, -⟩ := (Inv.socket_inv hgood side).closed_counts hterm
    have hnonneg := pend_nonneg (t.socket side)
    exact ⟨hterm, by omega⟩
  destroyed_of_closed hterm hclosing := by
    have hbusy : ∀ side, busy (t.socket side) = 0 := by
      intro side
      have hside : (t.socket side).isTerminated = true := by
        unfold Good at hgood
        rw [if_pos hterm] at hgood
        exact hgood.all_closed rfl side
      obtain ⟨-, hpend, -⟩ := (Inv.socket_inv hgood side).closed_counts hside
      exact if_neg (by rw [← hpend, hclosing side]; omega)
    -- nothing is left to hold a reference
    have hrefs := Inv.refs hgood
    have hin : busy t.incoming = 0 := hbusy .incoming
    have hout : busy t.outgoing = 0 := hbusy .outgoing
    rw [if_pos hterm, hin, hout] at hrefs
    have hzero : t.refCount = 0 := hrefs
    rw [Inv.destroyed_eq hgood, if_pos hzero]
  alive_of_callback e side he hen := by
    have hs := Inv.socket_inv hgood side
    cases hterm : (t.socket side).isTerminated with
    | false =>
        have halive := Inv.alive_of_open hgood hterm
        obtain ⟨href, -, -⟩ := hs.open_counts hterm
        exact ⟨by omega, halive, Inv.destroyed_eq_zero hgood halive⟩
    | true =>
        have hpos := pend_pos_of_callback hs hterm (hlookups side hterm) he hen
        have halive := Inv.alive_of_pend hgood hpos
        have hd := Inv.destroyed_eq_zero hgood halive
        obtain ⟨href, -, -⟩ := hs.closed_counts hterm
        rw [hd] at href
        exact ⟨by omega, halive, hd⟩

theorem closed_lookups_step (hh : h.UsesApi) {e : Event} (hcancel : CancelsNoLookup h t e)
    (hlookups : ∀ side, (t.socket side).isTerminated = true → (t.socket side).lookups = 0) :
    ∀ side, ((step h t e).socket side).isTerminated = true →
      ((step h t e).socket side).lookups = 0 := by
  intro side hterm'
  cases hterm : (t.socket side).isTerminated with
  | false => exact hcancel side hterm hterm'
  | true =>
      obtain ⟨-, hle⟩ := staysClosed_step hh t e side hterm
      rw [hlookups side hterm] at hle
      exact Nat.le_zero.1 hle

theorem closed_lookups_initialize (data : δ) (listener success : Bool) (side : Side) :
    ((tunnelInitialize data listener success).socket side).lookups = 0 := by
  cases listener <;> cases success <;> cases side <;> rfl

/-- As long as no socket is closed while a lookup is in flight on it, a tunnel is destroyed when it
should be and no callback comes too late, whatever the handlers do and in whatever order libuv calls
back. -/
theorem lifetime_ok (hh : h.UsesApi) (data : δ) (listener success : Bool) (es : List Event)
    (hrun : Legal (fun t e => Enabled t e ∧ CancelsNoLookup h t e) (step h)
      (tunnelInitialize data listener success) es) :
    LifetimeOk (es.foldl (step h) (tunnelInitialize data listener success)) := by
  have hinit := good_initialize data listener success
  have hend := hrun.invariant
    (P := fun t => Good (fun _ => 0) t ∧
      ∀ side, (t.socket side).isTerminated = true → (t.socket side).lookups = 0)
    (fun t e hP hok => ⟨good_step hh hP.1 hok.1, closed_lookups_step hh hok.2 hP.2⟩)
    ⟨hinit, fun side _ => closed_lookups_initialize data listener success side⟩
  exact hend.1.lifetimeOk hend.2

instance {p : Side → Prop} [DecidablePred p] : Decidable (∀ side, p side) :=
  decidable_of_iff (p .incoming ∧ p .outgoing)
    ⟨fun ⟨hin, hout⟩ side => match side with | .incoming => hin | .outgoing => hout,
      fun hall => ⟨hall .incoming, hall .outgoing⟩⟩

instance (h : Handlers δ) (t : TunnelCtx δ) (e : Event) : Decidable (CancelsNoLookup h t e) := by
  unfold CancelsNoLookup
  infer_instance

/-- A client that looks its server up when it has read something, and then connects to it. -/
def lookupClient : Handlers Unit where
  tunnelIsInStreaming _ := false
  tunnelReadDone t _ _ := socketCtxGetaddrinfo t .outgoing
  tunnelWriteDone t _ := t
  tunnelOutgoingConnectedDone t _ := t
  tunnelOnGetaddrinfoDone t side := socketCtxConnect t side
  tunnelTimeoutExpireDone t _ := t
  tunnelArriveEndOfFile t _ := tunnelShutdown t

theorem lookupClient_usesApi : lookupClient.UsesApi where
  readDone t _ _ := .tail (.refl t) (.getaddrinfo t .outgoing)
  writeDone t _ := .refl t
  connectedDone t _ := .refl t
  getaddrinfoDone t side := .tail (.refl t) (.connect t side)
  timeoutDone t _ := .refl t
  endOfFile t _ := .tail (.refl t) (.shutdown t)

/-- The close callbacks of both sockets. -/
def closeEvents : List Event :=
  [.handleClosed .incoming, .timerClosed .incoming, .timerClosed .outgoing, .handleClosed .outgoing]

theorem lifetime_ok_sample :
    LifetimeOk (List.foldl (step lookupClient) (tunnelInitialize () true true)
      (.read .incoming [5, 1, 0] :: .resolved .outgoing true :: .shutdown ::
        .connected .outgoing false :: closeEvents)) :=
  lifetime_ok lookupClient_usesApi () true true _ (by decide)

/-- Shut down during a lookup, the tunnel and its sockets are gone when the lookup calls back. -/
theorem lookup_after_free :
    ¬∀ es, Legal Enabled (step lookupClient) (tunnelInitialize () true true) es →
      LifetimeOk (es.foldl (step lookupClient) (tunnelInitialize () true true)) := by
  intro hall
  have hok := hall (.read .incoming [5, 1, 0] :: .shutdown :: closeEvents) (by decide)
  have halive := hok.alive_of_callback (.resolved .outgoing false) .outgoing rfl (by decide)
  exact absurd halive.1 (by decide)

end Tunnel
end SsrNative
