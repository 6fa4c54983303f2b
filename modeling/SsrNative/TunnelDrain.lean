import SsrNative.Lib.Drain
import SsrNative.Client.Phases

/-!
# TunnelDrain — a tunnel that relays, at the end of a stream

`Watched` observes a tunnel from the beginning of its streaming stage on: the writes that every socket
had been given before, and the sockets at which the stream has ended.  libuv completes the writes of a
socket in order, and closing the socket cancels the rest.  `NothingCut` says that a tunnel that was shut
down had completed everything that had been read before the end of a stream.

A tunnel whose handlers relay moves as the relay of `Lib.Drain` does (`nothingCut_iff`).
-/

namespace SsrNative
namespace Tunnel

open Client
open Lib.Drain
open Lib.Transition

section Watching

variable {δ : Type*}

/-- A tunnel, how many writes its sockets had been given when the relay began, and the sockets at which
the stream has ended. -/
structure Watched (δ : Type*) where
  tunnel : TunnelCtx δ
  before : Side → ℕ
  ended : Side → Bool

/-- A tunnel at the beginning of its streaming stage. -/
def Watched.begin (t : TunnelCtx δ) : Watched δ where
  tunnel := t
  before side := (t.socket side).written.length
  ended _ := false

def Watched.step (h : Handlers δ) (w : Watched δ) (e : Event) : Watched δ :=
  { w with
    tunnel := Tunnel.step h w.tunnel e
    ended :=
      match e with
      | .readFailed side true => Function.update w.ended side true
      | _ => w.ended }

/-- Reads, completed writes and ends of streams, as libuv delivers them to an open tunnel. -/
def Relayed (w : Watched δ) : Event → Prop
  | .read side _ =>
      w.tunnel.isTerminated = false ∧ (w.tunnel.socket side).reading = true ∧ w.ended side = false
  | .written side ok =>
      w.tunnel.isTerminated = false ∧ 0 < (w.tunnel.socket side).writes ∧ ok = true
  | .readFailed side eof =>
      w.tunnel.isTerminated = false ∧ (w.tunnel.socket side).reading = true ∧
        w.ended side = false ∧ eof = true
  | _ => False

instance (w : Watched δ) : ∀ e, Decidable (Relayed w e)
  | .read _ _ => inferInstanceAs (Decidable (_ ∧ _ ∧ _))
  | .written _ _ => inferInstanceAs (Decidable (_ ∧ _ ∧ _))
  | .readFailed _ _ => inferInstanceAs (Decidable (_ ∧ _ ∧ _ ∧ _))
  | .connected _ _ | .resolved _ _ | .timeout _ | .handleClosed _ | .timerClosed _ | .shutdown
  | .close _ => inferInstanceAs (Decidable False)

/-- The write number `i` of a socket has completed. -/
def SocketCtx.Completed (s : SocketCtx) (i : ℕ) : Prop := i + s.writes < s.written.length

/-- Every write of the relay to this socket has completed. -/
def Watched.Drained (w : Watched δ) (side : Side) : Prop :=
  ∀ i, w.before side ≤ i → i < (w.tunnel.socket side).written.length →
    (w.tunnel.socket side).Completed i

/-- When the tunnel is shut down, what came before the end of a stream is out. -/
def Watched.NothingCut (w : Watched δ) : Prop :=
  w.tunnel.isTerminated = true → ∀ side, w.ended side = true → w.Drained side.other

theorem Watched.drained_iff {w : Watched δ} {side : Side} :
    w.Drained side ↔
      (w.tunnel.socket side).writes = 0 ∨
        (w.tunnel.socket side).written.length - w.before side = 0 := by
  unfold Watched.Drained SocketCtx.Completed
  constructor
  · intro h
    by_contra hne
    rw [not_or] at hne
    have hlast := h ((w.tunnel.socket side).written.length - 1) (by omega) (by omega)
    omega
  · intro h i hlo hhi
    omega

instance {w : Watched δ} {side : Side} : Decidable (w.Drained side) :=
  decidable_of_iff _ Watched.drained_iff.symm

/-! ## The tunnel as a relay -/

/-- The ends of a tunnel; `lingers` is the one at which the end of the stream is answered. -/
def sides (lingers : Option Side) : Policy Side where
  peer := Side.other
  lingers := lingers
  graceful _ := false

def Watched.view (closing : δ → Bool) (w : Watched δ) : State Side where
  pending side := (w.tunnel.socket side).writes
  relayed side := (w.tunnel.socket side).written.length - w.before side
  ended := w.ended
  closing := closing w.tunnel.data
  closed := w.tunnel.isTerminated

/-- The move that an event is; `accepts` tells whether `tunnel_extract_data` has a result. -/
def Watched.move (accepts : δ → Side → Bytes → Bool) (w : Watched δ) : Event → Move Side
  | .read side data =>
      if data = [] then .pass side false
      else if accepts w.tunnel.data side data then .pass side true
      else .refuse side
  | .written side _ => .written side
  | .readFailed side _ => .finish side
  | _ => .pass .incoming false

theorem nothingCut_iff_complete (lingers : Option Side) (closing : δ → Bool) (w : Watched δ) :
    w.NothingCut ↔ Complete (sides lingers) (w.view closing) := by
  have hside : ∀ side, w.Drained side.other ↔
      Lib.Drain.Drained (sides lingers) (w.view closing) side := by
    intro side
    rw [Watched.drained_iff]
    simp only [Lib.Drain.Drained, sides, Bool.false_eq_true, false_or]
    rfl
  unfold Watched.NothingCut Complete
  exact forall₂_congr fun _ side => forall_congr' fun _ => hside side

/-- An event that cuts nothing off: data that the tunnel can extract, unless it waits for its last
write; the end of a stream when the other socket has completed what the relay wrote to it; and while the
tunnel waits for its last write to complete, no other write in front of that one. -/
def Safe (lingers : Option Side) (closing : δ → Bool) (accepts : δ → Side → Bytes → Bool)
    (w : Watched δ) : Event → Prop
  | .read side data =>
      data = [] ∨ accepts w.tunnel.data side data = true ∨ closing w.tunnel.data = false
  | .written side _ =>
      closing w.tunnel.data = true → lingers.map Side.other = some side →
        (w.tunnel.socket side).writes = 1
  | .readFailed side _ =>
      lingers = some side ∨ closing w.tunnel.data = false ∧ w.Drained side.other
  | _ => True

instance (lingers : Option Side) (closing : δ → Bool) (accepts : δ → Side → Bytes → Bool)
    (w : Watched δ) : ∀ e, Decidable (Safe lingers closing accepts w e)
  | .read _ _ => inferInstanceAs (Decidable (_ ∨ _ ∨ _))
  | .written _ _ => inferInstanceAs (Decidable (_ → _ → _))
  | .readFailed _ _ => inferInstanceAs (Decidable (_ ∨ _ ∧ _))
  | .connected _ _ | .resolved _ _ | .timeout _ | .handleClosed _ | .timerClosed _ | .shutdown
  | .close _ => inferInstanceAs (Decidable True)

/-- A tunnel acts on every end of a stream when it sees it. -/
theorem Watched.move_ne_notice (accepts : δ → Side → Bytes → Bool) (w : Watched δ) (e : Event) (side : Side) :
    w.move accepts e ≠ .notice side := by
  unfold Watched.move
  split
  · split_ifs <;> nofun
  · nofun
  · nofun
  · nofun

theorem sound_iff_safe (lingers : Option Side) (closing : δ → Bool)
    (accepts : δ → Side → Bytes → Bool) (w : Watched δ) (e : Event) :
    SoundWaiting (sides lingers) (w.view closing) (w.move accepts e) ↔
      Safe lingers closing accepts w e := by
  cases e with
  | read side data =>
      by_cases hdata : data = []
      · simp [Watched.move, Safe, SoundWaiting, hdata]
      · by_cases hacc : accepts w.tunnel.data side data = true
        · simp [Watched.move, Safe, SoundWaiting, hdata, hacc]
        · simp [Watched.move, Safe, SoundWaiting, hdata, hacc, Watched.view]
  | written side ok => exact Iff.rfl
  | readFailed side eof =>
      have hdrained : w.Drained side.other ↔
          Lib.Drain.Drained (sides lingers) (w.view closing) side := by
        rw [Watched.drained_iff]
        simp only [Lib.Drain.Drained, sides, Bool.false_eq_true, false_or]
        rfl
      simp only [Watched.move, Safe, SoundWaiting, hdrained]
      exact Iff.rfl
  | connected side ok => exact Iff.rfl
  | resolved side ok => exact Iff.rfl
  | timeout side => exact Iff.rfl
  | handleClosed side => exact Iff.rfl
  | timerClosed side => exact Iff.rfl
  | shutdown => exact Iff.rfl
  | close side => exact Iff.rfl

end Watching

/-! ## The writes of a tunnel -/

section Load

variable {δ : Type*} {t : TunnelCtx δ} {side : Side}

/-- The writes in flight on a socket and all writes made there. -/
def load (t : TunnelCtx δ) (side : Side) : ℕ × ℕ :=
  ((t.socket side).writes, (t.socket side).written.length)

/-- One more write on a socket. -/
def addWrite (l : Side → ℕ × ℕ) (side : Side) : Side → ℕ × ℕ :=
  Function.update l side ((l side).1 + 1, (l side).2 + 1)

theorem load_check (t : TunnelCtx δ) (b : Bool) : load (t.check b) = load t := by
  funext side
  rw [load, check_socket]
  rfl

theorem load_setSocket {s : SocketCtx} (hwrites : s.writes = (t.socket side).writes)
    (hwritten : s.written = (t.socket side).written) : load (t.setSocket side s) = load t := by
  funext side'
  by_cases hside : side' = side
  · subst hside
    rw [load, socket_setSocket, hwrites, hwritten]
    rfl
  · rw [load, socket_setSocket_ne t hside]
    rfl

theorem load_withData (t : TunnelCtx δ) (d : δ) : load { t with data := d } = load t := by
  funext side
  cases side with
  | incoming => rfl
  | outgoing => rfl

theorem load_release (t : TunnelCtx δ) : load (tunnelCtxRelease t) = load t := by
  have hsub : load { t with refCount := t.refCount - 1 } = load t := by
    funext side
    cases side with
    | incoming => rfl
    | outgoing => rfl
  have hdestroy : ∀ u : TunnelCtx δ, load (tunnelDestroyInternal u) = load u := by
    intro u
    funext side
    cases side with
    | incoming => rfl
    | outgoing => rfl
  unfold tunnelCtxRelease
  extract_lets u
  split_ifs
  · rw [hdestroy, load_check, hsub]
  · exact hsub

theorem load_close (t : TunnelCtx δ) (side : Side) :
    load (socketCtxClose (tunnelCtxAddRef t) side) = load t := by
  have hadd : load (tunnelCtxAddRef t) = load t := by
    funext side
    cases side with
    | incoming => rfl
    | outgoing => rfl
  unfold socketCtxClose
  extract_lets s
  split_ifs
  · exact (load_release _).trans hadd
  · refine (load_setSocket ?_ ?_).trans ((load_check _ _).trans hadd)
    · rw [check_socket]
    · rw [check_socket]

/-- Shutting a tunnel down does not complete any write. -/
theorem load_shutdown (t : TunnelCtx δ) : load (tunnelShutdown t) = load t := by
  unfold tunnelShutdown
  split_ifs
  · rfl
  · dsimp only
    rw [load_release, load_close, load_close]
    funext side
    cases side with
    | incoming => rfl
    | outgoing => rfl

theorem load_write (hf : Flows t) (streaming : δ → Bool) (data : Bytes) :
    load (tunnelSocketCtxWrite streaming t side data) = addWrite (load t) side := by
  unfold tunnelSocketCtxWrite socketCtxWrite
  rw [(hf.check _).onOpenSocket_eq, check_socket]
  funext side'
  by_cases hside : side' = side
  · subst hside
    rw [load, socket_setSocket, addWrite, Function.update_self]
    simp [load]
  · rw [load, socket_setSocket_ne _ hside, addWrite, Function.update_of_ne hside, check_socket]
    rfl

variable (h : Handlers δ) in
theorem load_readReady (t : TunnelCtx δ) (side : Side) (n : ℤ) :
    load (readReady h (setResult t side n) side) = load t := by
  simp only [readReady, readStopped, setResult, setStates, check_setSocket, setSocket_setSocket,
    socket_setSocket]
  refine (load_setSocket ?_ ?_).trans (load_check _ _)
  · rw [check_socket]
  · rw [check_socket]

/-- One write less is pending. -/
def dropWrite (l : Side → ℕ × ℕ) (side : Side) : Side → ℕ × ℕ :=
  Function.update l side ((l side).1 - 1, (l side).2)

theorem dropWrite_pending (l : Side → ℕ × ℕ) (side : Side) :
    (fun s => (dropWrite l side s).1) = Function.update (fun s => (l s).1) side ((l side).1 - 1) := by
  funext s
  by_cases hside : s = side
  · subst hside
    rw [dropWrite, Function.update_self, Function.update_self]
  · rw [dropWrite, Function.update_of_ne hside, Function.update_of_ne hside]

theorem dropWrite_written (l : Side → ℕ × ℕ) (side s : Side) : (dropWrite l side s).2 = (l s).2 := by
  by_cases hside : s = side
  · subst hside
    rw [dropWrite, Function.update_self]
  · rw [dropWrite, Function.update_of_ne hside]

/-- What a completed write leaves pending when the handler is called. -/
theorem load_writeFinished (h : Handlers δ) (t : TunnelCtx δ) (side : Side) :
    load (writeReady h (setResult
      (t.setSocket side { t.socket side with writes := (t.socket side).writes - 1 }) side 0) side) =
      dropWrite (load t) side := by
  set u := t.setSocket side { t.socket side with writes := (t.socket side).writes - 1 }
  set v := setResult u side 0
  have hchecked : load (writeReady h v side) = load (v.check (decide
      (h.tunnelIsInStreaming v.data = true ∨ (v.socket side).wrstate = .busy))) := by
    refine load_setSocket ?_ ?_
    · rfl
    · rfl
  have hready : load (writeReady h v side) = load u := by
    refine hchecked.trans ((load_check v _).trans (load_setSocket ?_ ?_))
    · rfl
    · rfl
  rw [hready]
  funext s
  by_cases hside : s = side
  · subst hside
    rw [dropWrite, Function.update_self, load, socket_setSocket]
    rfl
  · rw [dropWrite, Function.update_of_ne hside, load, socket_setSocket_ne _ hside]
    rfl

/-- What `tunnel_socket_ctx_on_read_cb` does after the handler. -/
def afterRead (h : Handlers δ) (t : TunnelCtx δ) (side : Side) : TunnelCtx δ :=
  if t.isTerminated then t
  else if h.tunnelIsInStreaming t.data && (t.socket side).checkTimeout then
    onOpenSocket t side fun s => { s with timerActive := true }
  else t

/-- The tunnel that the handler of a read gets. -/
theorem flows_read_step (h : Handlers δ) (hf : Flows t) (side : Side) {data : Bytes} (hdata : data ≠ []) :
    ∃ u, Flows u ∧ u.data = t.data ∧ load u = load t ∧ (u.socket side).rdstate = .done ∧
      Tunnel.step h t (.read side data) = afterRead h (h.tunnelReadDone u side data) side := by
  obtain ⟨hready, hsame, hrd⟩ := flows_readReady h hf side data.length
  have hterm : ¬(setResult t side data.length).isTerminated = true := by
    rw [setResult, setSocket_isTerminated, hf.isTerminated_eq]
    exact Bool.false_ne_true
  refine ⟨_, hready, hsame.data_eq, load_readReady h t side data.length, hrd, ?_⟩
  simp only [Tunnel.step, uvSocketReadDoneCb]
  rw [if_neg hdata, if_neg hterm]
  rfl

/-- The tunnel that the handler of a completed write gets. -/
theorem flows_written_step (h : Handlers δ) (hf : Flows t) (side : Side) :
    ∃ u, Flows (setStates u side (u.socket side).rdstate .stop) ∧ u.data = t.data ∧
      load u = dropWrite (load t) side ∧ (u.socket side).wrstate = .done ∧
      Tunnel.step h t (.written side true) = h.tunnelWriteDone u side := by
  have hload := load_writeFinished h t side
  set u := t.setSocket side { t.socket side with writes := (t.socket side).writes - 1 }
  set v := setResult u side 0
  have hsock := hf.streams side
  have hfu : Flows u := hf.setSocket ⟨⟨hsock.isTerminated_eq, hsock.handleClosing_eq,
    hsock.timerClosing_eq⟩, hsock.wrstate_ne, hsock.connects_eq, hsock.lookups_eq⟩
  have hfv : Flows v := hfu.setResult side 0
  have hterm : ¬v.isTerminated = true := by
    rw [hfv.isTerminated_eq]
    exact Bool.false_ne_true
  refine ⟨writeReady h v side, (hfv.writeFinished h side).2, ?_, hload, writeReady_wrstate v side, ?_⟩
  · rw [writeReady_data]
    exact (setSocket_data _ side _).trans (setSocket_data t side _)
  · simp only [Tunnel.step, uvSocketWriteDoneCb, if_true]
    rw [if_neg hterm, if_neg Bool.noConfusion]

/-- The tunnel that the handler of the end of a stream gets. -/
theorem flows_ended_step (h : Handlers δ) (hf : Flows t) (side : Side) :
    ∃ u, Flows u ∧ u.data = t.data ∧ load u = load t ∧
      Tunnel.step h t (.readFailed side true) = h.tunnelArriveEndOfFile u side := by
  set u := setResult t side (-1)
  set v := readStopped h u side
  set x := setStates v side .stop (v.socket side).wrstate
  have hsame : Same t x := by
    have hu : Same t u := same_setSocket rfl
    have hv : Same u v := (same_check u _).trans (same_setSocket (by rw [check_socket]))
    exact (hu.trans hv).trans (same_setSocket rfl)
  have hsock := hf.streams side
  have hfx : Flows x := by
    simp only [x, v, u, readStopped, setResult, setStates, check_setSocket, setSocket_setSocket,
      socket_setSocket]
    exact (hf.check _).setSocket ⟨⟨hsock.isTerminated_eq, hsock.handleClosing_eq,
      hsock.timerClosing_eq⟩, hsock.wrstate_ne, hsock.connects_eq, hsock.lookups_eq⟩
  have hload : load x = load t := by
    simp only [x, v, u, readStopped, setResult, setStates, check_setSocket, setSocket_setSocket,
      socket_setSocket]
    refine (load_setSocket ?_ ?_).trans (load_check _ _)
    · rw [check_socket]
    · rw [check_socket]
  have hterm : ¬u.isTerminated = true := by
    change ¬(setResult t side (-1)).isTerminated = true
    rw [setResult, setSocket_isTerminated, hf.isTerminated_eq]
    exact Bool.false_ne_true
  refine ⟨x, hfx, hsame.data_eq, hload, ?_⟩
  simp only [Tunnel.step, uvSocketReadFailedCb]
  rw [if_neg hterm, if_pos trivial]

end Load

/-! ## Handlers that relay -/

section Relaying

variable {δ : Type*} {streams : δ → Prop} {closing : δ → Bool} {t t' : TunnelCtx δ} {side : Side}

/-- A handler leaves the tunnel relaying, with the writes `l`. -/
structure GoesOn (streams : δ → Prop) (closing : δ → Bool) (c : Bool) (l : Side → ℕ × ℕ)
    (t' : TunnelCtx δ) : Prop where
  flows : Flows t'
  streams : streams t'.data
  closing_eq : closing t'.data = c
  load_eq : load t' = l

/-- A handler has shut the tunnel down and written nothing. -/
structure Ends (closing : δ → Bool) (t t' : TunnelCtx δ) : Prop where
  isTerminated_eq : t'.isTerminated = true
  closing_eq : closing t'.data = closing t.data
  load_eq : load t' = load t

/-- What handlers do in the streaming stage: data from one socket go to the other, and the end of a
stream shuts the tunnel down, but at `lingers`, where a last write to the other socket comes first. -/
structure RelayHandlers (h : Handlers δ) (lingers : Option Side) (streams : δ → Prop)
    (closing : δ → Bool) (accepts : δ → Side → Bytes → Bool) : Prop where
  accepted : ∀ {t side data}, Flows t → streams t.data → (t.socket side).rdstate = .done →
    accepts t.data side data = true →
    GoesOn streams closing (closing t.data) (addWrite (load t) side.other) (h.tunnelReadDone t side data)
  refused : ∀ {t side data}, Flows t → streams t.data → (t.socket side).rdstate = .done →
    accepts t.data side data = false → Ends closing t (h.tunnelReadDone t side data)
  written : ∀ {t side}, Flows (setStates t side (t.socket side).rdstate .stop) → streams t.data →
    (t.socket side).wrstate = .done →
    ¬ (closing t.data = true ∧ lingers.map Side.other = some side) →
    GoesOn streams closing (closing t.data) (load t) (h.tunnelWriteDone t side)
  lastWritten : ∀ {t side}, closing t.data = true → lingers.map Side.other = some side →
    Ends closing t (h.tunnelWriteDone t side)
  ended : ∀ {t side}, lingers ≠ some side → Ends closing t (h.tunnelArriveEndOfFile t side)
  answered : ∀ {t side}, Flows t → streams t.data → lingers = some side →
    GoesOn streams closing true (addWrite (load t) side.other) (h.tunnelArriveEndOfFile t side)

/-- A tunnel that relays. -/
structure Runs (streams : δ → Prop) (w : Watched δ) : Prop where
  flows : Flows w.tunnel
  streams : streams w.tunnel.data
  before_le : ∀ side, w.before side ≤ (w.tunnel.socket side).written.length

/-- What the observer sees after a step that goes on. -/
theorem GoesOn.view_eq {w w' : Watched δ} {c : Bool} {l : Side → ℕ × ℕ}
    (hg : GoesOn streams closing c l w'.tunnel) (hbefore : w'.before = w.before) :
    w'.view closing =
      { pending := fun side => (l side).1
        relayed := fun side => (l side).2 - w.before side
        ended := w'.ended
        closing := c
        closed := false } := by
  obtain ⟨hf, -, hc, hl⟩ := hg
  subst hl
  ext
  · rfl
  · simp [Watched.view, hbefore, load]
  · rfl
  · rw [Watched.view, hc]
  · rw [Watched.view, hf.isTerminated_eq]

theorem Ends.view_eq {w w' : Watched δ} (he : Ends closing t w'.tunnel)
    (hbefore : w'.before = w.before) :
    w'.view closing =
      { pending := fun side => (load t side).1
        relayed := fun side => (load t side).2 - w.before side
        ended := w'.ended
        closing := closing t.data
        closed := true } := by
  obtain ⟨hterm, hc, hl⟩ := he
  ext
  · exact congrArg Prod.fst (congrFun hl _)
  · rename_i side
    have hlen : (w'.tunnel.socket side).written.length = (load t side).2 :=
      congrArg Prod.snd (congrFun hl side)
    simp only [Watched.view, hbefore, hlen]
  · rfl
  · rw [Watched.view, hc]
  · rw [Watched.view, hterm]

theorem ends_shutdown (closing : δ → Bool) (t : TunnelCtx δ) : Ends closing t (tunnelShutdown t) :=
  ⟨tunnelShutdown_isTerminated t, congrArg closing (tunnelShutdown_data t), load_shutdown t⟩

theorem Ends.of_eq {u : TunnelCtx δ} (he : Ends closing u t') (hc : closing u.data = closing t.data)
    (hl : load u = load t) : Ends closing t t' :=
  ⟨he.isTerminated_eq, he.closing_eq.trans hc, he.load_eq.trans hl⟩

end Relaying

/-! ## Steps -/

section Steps

variable {δ : Type*} {h : Handlers δ} {lingers : Option Side} {streams : δ → Prop}
  {closing : δ → Bool} {accepts : δ → Side → Bytes → Bool} {w : Watched δ} {side : Side}

/-- What one event does to what is observed. -/
def Follows (lingers : Option Side) (streams : δ → Prop) (closing : δ → Bool)
    (accepts : δ → Side → Bytes → Bool) (w w' : Watched δ) (e : Event) : Prop :=
  w'.view closing = Lib.Drain.step (sides lingers) (w.view closing) (w.move accepts e) ∧
    ((w'.view closing).closed = false → Runs streams w')

/-- After a handler, `tunnel_socket_ctx_on_read_cb` may only start the timer. -/
theorem GoesOn.timerStarted {t : TunnelCtx δ} {c : Bool} {l : Side → ℕ × ℕ}
    (hg : GoesOn streams closing c l t) (b : Bool) (side : Side) :
    GoesOn streams closing c l
      (if b then onOpenSocket t side fun s => { s with timerActive := true } else t) := by
  cases b with
  | false => exact hg
  | true =>
      obtain ⟨hf, hs, hc, hl⟩ := hg
      have hsock := hf.streams side
      rw [if_pos rfl, hf.onOpenSocket_eq]
      refine ⟨hf.setSocket ?_, ?_, ?_, ?_⟩
      · exact ⟨⟨hsock.isTerminated_eq, hsock.handleClosing_eq, hsock.timerClosing_eq⟩,
          hsock.wrstate_ne, hsock.connects_eq, hsock.lookups_eq⟩
      · rw [setSocket_data]
        exact hs
      · rw [setSocket_data]
        exact hc
      · refine (load_setSocket ?_ ?_).trans hl
        · rfl
        · rfl

theorem GoesOn.before_le {w w' : Watched δ} {c : Bool} {l : Side → ℕ × ℕ}
    (hg : GoesOn streams closing c l w'.tunnel) (hbefore : w'.before = w.before)
    (hle : ∀ side, w.before side ≤ (l side).2) : Runs streams w' := by
  refine ⟨hg.flows, hg.streams, fun side => ?_⟩
  have hlen : (w'.tunnel.socket side).written.length = (l side).2 :=
    congrArg Prod.snd (congrFun hg.load_eq side)
  rw [hbefore, hlen]
  exact hle side

theorem le_addWrite (l : Side → ℕ × ℕ) (s side : Side) : (l side).2 ≤ (addWrite l s side).2 := by
  by_cases hs : side = s
  · subst hs
    rw [addWrite, Function.update_self]
    exact Nat.le_succ _
  · rw [addWrite, Function.update_of_ne hs]

variable (closing) in
/-- One more write, as the relay counts. -/
theorem view_addWrite (hw : Runs streams w) (s : Side) (ended : Side → Bool) (c c' : Bool) :
    ({ pending := fun side => (addWrite (load w.tunnel) s side).1
       relayed := fun side => (addWrite (load w.tunnel) s side).2 - w.before side
       ended := ended
       closing := c
       closed := c' } : State Side) =
      { ({ w.view closing with ended := ended } : State Side).handOver s with
        closing := c
        closed := c' } := by
  have hle := hw.before_le s
  ext side
  · by_cases hs : side = s
    · subst hs
      simp [State.handOver, addWrite, Watched.view, load]
    · simp [State.handOver, addWrite, Watched.view, load, hs]
  · by_cases hs : side = s
    · subst hs
      simp only [State.handOver, addWrite, Watched.view, load, Function.update_self]
      omega
    · simp [State.handOver, addWrite, Watched.view, load, hs]
  · rfl
  · rfl
  · rfl

theorem RelayHandlers.read_follows (hr : RelayHandlers h lingers streams closing accepts)
    (hw : Runs streams w) (data : Bytes) :
    Follows lingers streams closing accepts w (w.step h (.read side data)) (.read side data) := by
  obtain ⟨hf, hs, hle⟩ := hw
  by_cases hdata : data = []
  · have hgoes : GoesOn streams closing (closing w.tunnel.data) (load w.tunnel)
        (w.step h (.read side data)).tunnel := by
      simp only [Watched.step, Tunnel.step, uvSocketReadDoneCb, if_pos hdata]
      refine ⟨hf.setResult side _, ?_, ?_, load_setSocket rfl rfl⟩
      · rw [setResult, setSocket_data]
        exact hs
      · rw [setResult, setSocket_data]
    refine ⟨?_, fun _ => hgoes.before_le rfl hle⟩
    rw [hgoes.view_eq rfl]
    simp only [Watched.move, if_pos hdata]
    ext
    · rfl
    · rfl
    · rfl
    · rfl
    · exact hf.isTerminated_eq.symm
  · obtain ⟨u, hready, hdu, hload, hrd, hstep⟩ := flows_read_step h hf side hdata
    have hsu : streams u.data := by
      rw [hdu]
      exact hs
    set v := h.tunnelReadDone u side data
    have htunnel : (w.step h (.read side data)).tunnel = afterRead h v side := hstep
    cases hacc : accepts w.tunnel.data side data with
    | true =>
        -- the data is handed over: one more write at the other side
        have hgv := hr.accepted hready hsu hrd (hdu.symm ▸ hacc)
        rw [hdu, hload] at hgv
        have hgoes : GoesOn streams closing (closing w.tunnel.data)
            (addWrite (load w.tunnel) side.other) (w.step h (.read side data)).tunnel := by
          rw [htunnel, afterRead, hgv.flows.isTerminated_eq, if_neg Bool.false_ne_true]
          exact hgv.timerStarted _ side
        refine ⟨?_, fun _ => hgoes.before_le rfl fun s =>
          Nat.le_trans (hle s) (le_addWrite (load w.tunnel) side.other s)⟩
        rw [hgoes.view_eq rfl]
        refine (view_addWrite closing ⟨hf, hs, hle⟩ side.other w.ended _ _).trans ?_
        simp only [Watched.move, if_neg hdata, hacc, if_true, Lib.Drain.step]
        ext
        · rfl
        · rfl
        · rfl
        · rfl
        · exact hf.isTerminated_eq.symm
    | false =>
        -- the cipher refuses the data, and the tunnel is shut down
        have hev := hr.refused hready hsu hrd (hdu.symm ▸ hacc)
        have hends : Ends closing w.tunnel (w.step h (.read side data)).tunnel := by
          rw [htunnel, afterRead, if_pos hev.isTerminated_eq]
          exact hev.of_eq (congrArg closing hdu) hload
        rw [Follows, hends.view_eq rfl]
        refine ⟨?_, fun hclosed => by cases hclosed⟩
        simp only [Watched.move, if_neg hdata, hacc]
        rfl

theorem RelayHandlers.written_follows (hr : RelayHandlers h lingers streams closing accepts)
    (hw : Runs streams w) :
    Follows lingers streams closing accepts w (w.step h (.written side true)) (.written side true) := by
  obtain ⟨hf, hs, hle⟩ := hw
  have hpending := dropWrite_pending (load w.tunnel) side
  have hlength := dropWrite_written (load w.tunnel) side
  obtain ⟨u, hfu, hdata, hload, hwr, hstep⟩ := flows_written_step h hf side
  have htunnel : (w.step h (.written side true)).tunnel = h.tunnelWriteDone u side := hstep
  by_cases hlast : closing w.tunnel.data = true ∧ lingers.map Side.other = some side
  · -- the answer to the end of the stream is out: the tunnel ends
    have hends := hr.lastWritten (t := u) (by rw [hdata]; exact hlast.1) hlast.2
    rw [← htunnel] at hends
    rw [Follows, hends.view_eq rfl, hdata, hload]
    refine ⟨?_, fun hclosed => by cases hclosed⟩
    ext s
    · exact congrFun hpending s
    · simp only [hlength]
      rfl
    · rfl
    · rfl
    · simp [Lib.Drain.step, Watched.move, Watched.view, sides, hlast]
  · -- any other write leaves the relay as it was, with one write less pending
    have hgoes := hr.written hfu (by rw [hdata]; exact hs) hwr (by rw [hdata]; exact hlast)
    rw [← htunnel, hdata, hload] at hgoes
    refine ⟨?_, fun _ => hgoes.before_le rfl fun s => (hlength s).symm ▸ hle s⟩
    rw [hgoes.view_eq rfl]
    ext s
    · exact congrFun hpending s
    · simp only [hlength]
      rfl
    · rfl
    · rfl
    · simpa [Lib.Drain.step, Watched.move, Watched.view, sides, hf.isTerminated_eq] using hlast

theorem RelayHandlers.ended_follows (hr : RelayHandlers h lingers streams closing accepts)
    (hw : Runs streams w) :
    Follows lingers streams closing accepts w (w.step h (.readFailed side true))
      (.readFailed side true) := by
  have hw' := hw
  obtain ⟨hf, hs, hle⟩ := hw
  obtain ⟨x, hfx, hdata, hload, hstep⟩ := flows_ended_step h hf side
  have htunnel : (w.step h (.readFailed side true)).tunnel = h.tunnelArriveEndOfFile x side := hstep
  by_cases hside : lingers = some side
  · -- the end of the stream is answered with a write of its own
    have hgoes := hr.answered hfx (hdata.symm ▸ hs) hside
    rw [← htunnel, hload] at hgoes
    refine ⟨?_, fun _ => hgoes.before_le rfl fun s =>
      Nat.le_trans (hle s) (le_addWrite (load w.tunnel) side.other s)⟩
    rw [hgoes.view_eq rfl]
    refine (view_addWrite closing hw' side.other (Function.update w.ended side true) _ _).trans ?_
    simp only [Watched.move, Lib.Drain.step, sides, hside, if_true]
    ext
    · rfl
    · rfl
    · rfl
    · rfl
    · exact hf.isTerminated_eq.symm
  · have hends := (hr.ended (t := x) hside).of_eq (congrArg closing hdata) hload
    rw [← htunnel] at hends
    rw [Follows, hends.view_eq rfl]
    refine ⟨?_, fun hclosed => by cases hclosed⟩
    simp only [Watched.move, Lib.Drain.step, sides, hside, if_false]
    rfl

/-- A tunnel whose handlers relay moves as the relay does. -/
theorem RelayHandlers.follows (hr : RelayHandlers h lingers streams closing accepts)
    (hw : Runs streams w) {e : Event} (he : Relayed w e) :
    Follows lingers streams closing accepts w (w.step h e) e ∧
      Possible (sides lingers) (w.view closing) (w.move accepts e) := by
  cases e with
  | read side data =>
      refine ⟨hr.read_follows hw data, ?_⟩
      obtain ⟨hopen, -⟩ := he
      unfold Watched.move
      dsimp only
      split_ifs
      · exact fun _ => hopen
      · exact fun _ => hopen
      · exact hopen
  | written side ok =>
      obtain ⟨hopen, hpos, rfl⟩ := he
      refine ⟨hr.written_follows hw, fun hclosed => ?_, hpos⟩
      rw [Watched.view, hopen] at hclosed
      cases hclosed
  | readFailed side eof =>
      obtain ⟨hopen, -, -, rfl⟩ := he
      exact ⟨hr.ended_follows hw, hopen⟩
  | connected side ok => cases he
  | resolved side ok => cases he
  | timeout side => cases he
  | handleClosed side => cases he
  | timerClosed side => cases he
  | shutdown => cases he
  | close side => cases he

theorem relayed_open {w : Watched δ} {e : Event} (he : Relayed w e) :
    w.tunnel.isTerminated = false := by
  cases e with
  | read side data => exact he.1
  | written side ok => exact he.1
  | readFailed side eof => exact he.1
  | connected side ok => cases he
  | resolved side ok => cases he
  | timeout side => cases he
  | handleClosed side => cases he
  | timerClosed side => cases he
  | shutdown => cases he
  | close side => cases he

/-- In every state that a run of the streaming stage reaches nothing was cut off exactly when every
callback of the run was safe. -/
theorem RelayHandlers.nothingCut_iff (hr : RelayHandlers h lingers streams closing accepts)
    {t : TunnelCtx δ} (hf : Flows t) (hs : streams t.data) (hclosing : closing t.data = false)
    {es : List Event} (hrun : Legal Relayed (Watched.step h) (Watched.begin t) es) :
    (∀ pre, pre <+: es → (pre.foldl (Watched.step h) (Watched.begin t)).NothingCut) ↔
      Legal (Safe lingers closing accepts) (Watched.step h) (Watched.begin t) es := by
  have hruns : Runs streams (Watched.begin t) := ⟨hf, hs, fun _ => Nat.le_refl _⟩
  have hwait : Waiting (sides lingers) ((Watched.begin t).view closing) := by
    have hc : ((Watched.begin t).view closing).closing = false := hclosing
    refine ⟨fun i => ?_, fun h => ?_, fun h => ?_⟩
    · rw [hc]
      simp [Watched.begin, Watched.view]
    · rw [hc] at h
      cases h
    · rw [hc] at h
      cases h
  have hstep : ∀ w e, (w.tunnel.isTerminated = false →
        Runs streams w ∧ Waiting (sides lingers) (w.view closing)) → Relayed w e →
      (w.step h e).view closing =
          Lib.Drain.step (sides lingers) (w.view closing) (w.move accepts e) ∧
        Possible (sides lingers) (w.view closing) (w.move accepts e) ∧
        (Sound (sides lingers) (w.view closing) (w.move accepts e) ↔
          Safe lingers closing accepts w e) := by
    intro w e hw he
    obtain ⟨hruns, hwait⟩ := hw (relayed_open he)
    obtain ⟨⟨hview, -⟩, hposs⟩ := hr.follows hruns he
    exact ⟨hview, hposs, (hwait.sound_iff (fun _ _ => rfl) _).trans (sound_iff_safe ..)⟩
  have hmain := complete_iff_sound (fun w e hw he hopen => ?_) hstep (fun _ => ⟨hruns, hwait⟩)
    hf.isTerminated_eq hrun
  · simp only [← nothingCut_iff_complete] at hmain
    exact hmain
  · obtain ⟨hruns, hwait⟩ := hw (relayed_open he)
    obtain ⟨⟨hview, hnext⟩, -⟩ := hr.follows hruns he
    refine ⟨hnext hopen, ?_⟩
    have hclosed : ((w.step h e).view closing).closed = false := hopen
    rw [hview] at hclosed ⊢
    exact waiting_step hwait (w.move_ne_notice accepts e) hclosed

end Steps

end Tunnel
end SsrNative
