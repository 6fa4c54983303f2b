import SsrNative.Bytes
import SsrNative.Lib.Transition

/-!
# Reply — the replies of a UDP session

A session remembers the buffer of a reply in one slot until the reply is sent; the reply is sent on
the socket of the listener, which holds no reference to the session.  The callbacks of client and
server differ in what they make of a datagram (`Relay`), not in what they do with the buffer.
-/

namespace SsrNative
namespace Udp

open Bytes
open Lib.Transition

/-! ## Data -/

/-- `client_udp_remote_ctx` and `server_udp_remote_ctx`; `closing` counts the handles whose close
callback is still to come. -/
structure RemoteCtx where
  requestData : Option ℕ
  shuttingDown : Bool
  refCount : ℤ
  closing : ℕ
  freed : Bool

/-- A session, the buffers that were allocated for its replies, and the requests of
`uv_udp_send` in flight, each with its buffer and what was in it.  Buffer `n` is the one of the
reply number `n`; `released` counts how often it was. -/
structure State where
  ctx : RemoteCtx
  heap : ℕ → Option Bytes
  next : ℕ
  released : ℕ → ℕ
  sends : List (ℕ × Bytes)
  /-- A callback has used the session after it was freed. -/
  usedAfterFree : Bool

/-- What a relay sends for a datagram from the remote peer, if it sends anything. -/
structure Relay where
  reply : Bytes → Option Bytes

/-- The client decrypts the datagram, and builds a SOCKS5 datagram of what is behind the address. -/
def clientRelay (decryptAll : Bytes → Option Bytes) (postDecrypt : Bytes → Bytes)
    (parseHeader : Bytes → ℕ) (buildDatagram : Bytes → Bytes) : Relay where
  reply data :=
    if data = [] then none
    else (decryptAll data).bind fun buf =>
      if postDecrypt buf = [] then none
      else if parseHeader (postDecrypt buf) = 0 then none
      else some (buildDatagram ((postDecrypt buf).drop (parseHeader (postDecrypt buf))))

/-- The server puts the address of the target in front, and encrypts. -/
def serverRelay (target : Bytes) (preEncrypt encryptAll : Bytes → Option Bytes) : Relay where
  reply data :=
    if data = [] then none
    else (preEncrypt (target ++ data)).bind fun buf => if buf = [] then none else encryptAll buf

inductive Event where
  /-- A datagram from the remote peer. -/
  | recv (data : Bytes)
  /-- The first send in flight is done. -/
  | sendDone
  /-- The timer has run out, or the listener shuts down. -/
  | shutdown
  /-- The close callback of the timer or of the socket. -/
  | closeDone

/-! ## Callbacks -/

namespace RemoteCtx

def addRef (c : RemoteCtx) : RemoteCtx := { c with refCount := c.refCount + 1 }

/-- The session is freed with its last reference. -/
def release (c : RemoteCtx) : RemoteCtx :=
  if c.refCount - 1 ≤ 0 then { c with refCount := c.refCount - 1, freed := true }
  else { c with refCount := c.refCount - 1 }

/-- `uv_close`, with a reference for the callback. -/
def close (c : RemoteCtx) : RemoteCtx := { c with closing := c.closing + 1 }.addRef

/-- `client_udp_remote_ctx_shutdown` and `server_udp_remote_ctx_shutdown`. -/
def shutdown (c : RemoteCtx) : RemoteCtx :=
  if c.shuttingDown then c else ({ c with shuttingDown := true }.close.close).release

/-- `client_udp_remote_close_done_cb` and `server_udp_remote_close_done_cb`. -/
def closeDone (c : RemoteCtx) : RemoteCtx := { c with closing := c.closing - 1 }.release

end RemoteCtx

/-- `free` and `buffer_release`; both do nothing for `NULL`. -/
def State.free (s : State) : Option ℕ → State
  | none => s
  | some b =>
      { s with
        heap := Function.update s.heap b none
        released := Function.update s.released b (s.released b + 1) }

/-- `client_udp_remote_recv_cb` and `server_udp_remote_recv_cb`. -/
def remoteRecvCb (r : Relay) (s : State) (data : Bytes) : State :=
  match r.reply data with
  | none => s
  | some out =>
      { s with
        ctx := { s.ctx with requestData := some s.next }
        heap := Function.update s.heap s.next (some out)
        next := s.next + 1
        sends := s.sends ++ [(s.next, out)] }

/-- `client_udp_request_incoming_cb` and `server_udp_request_incoming_cb`. -/
def requestIncomingCb (s : State) : State :=
  let s := { s with sends := s.sends.tail }
  if s.ctx.freed then { s with usedAfterFree := true }
  else { s.free s.ctx.requestData with ctx := { s.ctx with requestData := none } }

def step (r : Relay) (s : State) : Event → State
  | .recv data => remoteRecvCb r s data
  | .sendDone => requestIncomingCb s
  | .shutdown => { s with ctx := s.ctx.shutdown }
  | .closeDone => { s with ctx := s.ctx.closeDone }

/-- What libuv may call: nothing is received on a socket that is closing, and its timer is stopped. -/
def Occurs (s : State) : Event → Prop
  | .recv _ => s.ctx.shuttingDown = false
  | .sendDone => s.sends ≠ []
  | .shutdown => s.ctx.shuttingDown = false
  | .closeDone => 0 < s.ctx.closing

instance (s : State) : ∀ e, Decidable (Occurs s e)
  | .recv _ => inferInstanceAs (Decidable (s.ctx.shuttingDown = false))
  | .sendDone => inferInstanceAs (Decidable (s.sends ≠ []))
  | .shutdown => inferInstanceAs (Decidable (s.ctx.shuttingDown = false))
  | .closeDone => inferInstanceAs (Decidable (0 < s.ctx.closing))

/-- A session when it has been added to the set of its listener. -/
def start : State :=
  ⟨⟨none, false, 1, 0, false⟩, fun _ => none, 0, fun _ => 0, [], false⟩

/-! ## Ownership -/

/-- The buffer of every reply is allocated and unchanged until its own send is done, and is released
then, once; no callback has used the session after its last reference was gone. -/
structure Owned (s : State) : Prop where
  held : ∀ p ∈ s.sends, s.heap p.1 = some p.2
  once : ∀ b < s.next, s.released b = if b ∈ s.sends.map Prod.fst then 0 else 1
  alive : s.usedAfterFree = false

/-- No reply is sent before the send of the one before is done, and the session is not freed
before. -/
def Safe (r : Relay) (s : State) : Event → Prop
  | .recv data => (r.reply data).isSome = true → s.sends = []
  | .closeDone => s.ctx.refCount = 1 → s.sends = []
  | _ => True

instance (r : Relay) (s : State) : ∀ e, Decidable (Safe r s e)
  | .recv data => inferInstanceAs (Decidable ((r.reply data).isSome = true → s.sends = []))
  | .sendDone => .isTrue trivial
  | .shutdown => .isTrue trivial
  | .closeDone => inferInstanceAs (Decidable (s.ctx.refCount = 1 → s.sends = []))

/-- What holds in a run of safe events: the references are one of the session and one for each handle
that is closing, and the slot has the only buffer in flight. -/
structure Inv (s : State) : Prop where
  refs : s.ctx.refCount = (if s.ctx.shuttingDown then 0 else 1) + s.ctx.closing
  freed_iff : s.ctx.freed = true ↔ s.ctx.refCount = 0
  closing_open : s.ctx.shuttingDown = false → s.ctx.closing = 0
  sends_freed : s.ctx.freed = true → s.sends = []
  slot : s.sends.map Prod.fst = s.ctx.requestData.toList
  slot_lt : ∀ b, s.ctx.requestData = some b → b < s.next
  fresh : ∀ b, s.next ≤ b → s.released b = 0
  owned : Owned s

theorem inv_start : Inv start where
  refs := rfl
  freed_iff := iff_of_false nofun nofun
  closing_open _ := rfl
  sends_freed := nofun
  slot := rfl
  slot_lt := nofun
  fresh _ _ := rfl
  owned := ⟨nofun, nofun, rfl⟩

section Step

variable {r : Relay} {s : State}

/-- A send in flight is the one that the slot remembers. -/
theorem Inv.sends_eq (h : Inv s) (hne : s.sends ≠ []) :
    ∃ b data, s.sends = [(b, data)] ∧ s.ctx.requestData = some b := by
  have hslot := h.slot
  cases hdata : s.ctx.requestData with
  | none =>
      rw [hdata] at hslot
      exact absurd (List.map_eq_nil_iff.1 hslot) hne
  | some b =>
      rw [hdata] at hslot
      obtain ⟨p, hp, rfl⟩ := List.map_eq_singleton_iff.1 hslot
      exact ⟨p.1, p.2, hp, rfl⟩

theorem Inv.not_freed (h : Inv s) (hne : s.sends ≠ []) : s.ctx.freed = false := by
  cases hfreed : s.ctx.freed with
  | false => rfl
  | true => exact absurd (h.sends_freed hfreed) hne

theorem remoteRecvCb_some {data out : Bytes} (hreply : r.reply data = some out) :
    remoteRecvCb r s data =
      { s with
        ctx := { s.ctx with requestData := some s.next }
        heap := Function.update s.heap s.next (some out)
        next := s.next + 1
        sends := s.sends ++ [(s.next, out)] } := by
  rw [remoteRecvCb, hreply]

theorem remoteRecvCb_inv (h : Inv s) {data : Bytes} (hopen : s.ctx.shuttingDown = false)
    (hsafe : Safe r s (.recv data)) : Inv (remoteRecvCb r s data) := by
  cases hreply : r.reply data with
  | none =>
      rw [remoteRecvCb, hreply]
      exact h
  | some out =>
      have hnil : s.sends = [] := hsafe (by rw [hreply]; rfl)
      have hfreed : ¬ s.ctx.freed = true := by
        have hrefs := h.refs
        rw [h.freed_iff, hrefs, hopen, if_neg nofun]
        omega
      rw [remoteRecvCb_some hreply, hnil, List.nil_append]
      refine ⟨h.refs, h.freed_iff, h.closing_open, fun hf => absurd hf hfreed, rfl, ?_, ?_, ?_, ?_,
        h.owned.alive⟩
      · rintro b ⟨⟩
        exact Nat.lt_succ_self _
      · intro b hb
        exact h.fresh b (Nat.le_of_succ_le hb)
      · intro p hp
        obtain rfl := List.mem_singleton.1 hp
        exact Function.update_self ..
      · intro b hb
        rcases Nat.lt_succ_iff_lt_or_eq.1 hb with hlt | rfl
        · have honce := h.owned.once b hlt
          rw [hnil, List.map_nil, if_neg List.not_mem_nil] at honce
          refine honce.trans (if_neg fun hmem => ?_).symm
          exact absurd (List.mem_singleton.1 hmem) (Nat.ne_of_lt hlt)
        · exact (h.fresh _ (Nat.le_refl _)).trans (if_pos (List.mem_singleton.2 rfl)).symm

theorem requestIncomingCb_inv (h : Inv s) (hne : s.sends ≠ []) : Inv (requestIncomingCb s) := by
  obtain ⟨b, data, hsends, hdata⟩ := h.sends_eq hne
  have hfreed := h.not_freed hne
  have hlt := h.slot_lt b hdata
  have hcall : requestIncomingCb s =
      { s with
        sends := []
        heap := Function.update s.heap b none
        released := Function.update s.released b (s.released b + 1)
        ctx := { s.ctx with requestData := none } } := by
    unfold requestIncomingCb
    simp only [hsends, List.tail_cons, hfreed, hdata, State.free, Bool.false_eq_true, if_false]
  rw [hcall]
  refine ⟨h.refs, h.freed_iff, h.closing_open, fun _ => rfl, rfl, nofun, ?_, nofun, ?_, h.owned.alive⟩
  · intro b' hb'
    have hne' : b' ≠ b := Nat.ne_of_gt (Nat.lt_of_lt_of_le hlt hb')
    exact (Function.update_of_ne hne' ..).trans (h.fresh b' hb')
  · intro b' hb'
    have honce := h.owned.once b' hb'
    rw [hsends] at honce
    by_cases heq : b' = b
    · subst heq
      rw [if_pos (by simp)] at honce
      exact (Function.update_self ..).trans (congrArg (· + 1) honce)
    · rw [if_neg (by simpa using heq)] at honce
      exact (Function.update_of_ne heq ..).trans honce

theorem shutdown_inv (h : Inv s) (hopen : s.ctx.shuttingDown = false) :
    Inv { s with ctx := s.ctx.shutdown } := by
  have hclosing := h.closing_open hopen
  have hrefs := h.refs
  rw [hopen, hclosing] at hrefs
  have hshutdown : s.ctx.shutdown = { s.ctx with shuttingDown := true, closing := 2, refCount := 2 } := by
    unfold RemoteCtx.shutdown RemoteCtx.release RemoteCtx.close RemoteCtx.addRef
    simp [hopen, hclosing, hrefs]
  have hfreed : s.ctx.freed = false := by
    cases hfreed : s.ctx.freed with
    | false => rfl
    | true =>
        have hzero := h.freed_iff.1 hfreed
        rw [hzero] at hrefs
        cases hrefs
  rw [hshutdown]
  refine ⟨rfl, ?_, nofun, h.sends_freed, h.slot, h.slot_lt, h.fresh, h.owned.held, h.owned.once,
    h.owned.alive⟩
  exact iff_of_false (fun hf => absurd (hfreed.symm.trans hf) nofun) nofun

theorem closeDone_inv (h : Inv s) (hclosing : 0 < s.ctx.closing) (hsafe : Safe r s .closeDone) :
    Inv { s with ctx := s.ctx.closeDone } := by
  have hshut : s.ctx.shuttingDown = true := by
    cases hshut : s.ctx.shuttingDown with
    | false => exact absurd (h.closing_open hshut) (Nat.ne_of_gt hclosing)
    | true => rfl
  have hrefs : s.ctx.refCount = s.ctx.closing := by
    rw [h.refs, hshut, if_pos rfl, Int.zero_add]
  have hcast : ((s.ctx.closing - 1 : ℕ) : ℤ) = s.ctx.closing - 1 := by omega
  by_cases hlast : s.ctx.refCount = 1
  · have hclose : s.ctx.closeDone = { s.ctx with closing := 0, refCount := 0, freed := true } := by
      have hone : s.ctx.closing = 1 := by omega
      unfold RemoteCtx.closeDone RemoteCtx.release
      simp [hlast, hone]
    rw [hclose]
    refine ⟨by simp [hshut], iff_of_true rfl rfl, fun _ => rfl, fun _ => hsafe hlast, h.slot, h.slot_lt,
      h.fresh, h.owned.held, h.owned.once, h.owned.alive⟩
  · have hclose : s.ctx.closeDone =
        { s.ctx with closing := s.ctx.closing - 1, refCount := s.ctx.refCount - 1 } := by
      unfold RemoteCtx.closeDone RemoteCtx.release
      exact if_neg (by dsimp only; omega)
    have hfreed : ¬ s.ctx.freed = true := by
      rw [h.freed_iff]
      omega
    rw [hclose]
    refine ⟨?_, iff_of_false hfreed (by dsimp only; omega), fun hf => absurd (hshut.symm.trans hf) nofun,
      h.sends_freed, h.slot, h.slot_lt, h.fresh, h.owned.held, h.owned.once, h.owned.alive⟩
    dsimp only
    rw [hshut, if_pos rfl, Int.zero_add, hcast, hrefs]

/-- A safe event keeps the invariant. -/
theorem step_inv (h : Inv s) {e : Event} (hocc : Occurs s e) (hsafe : Safe r s e) : Inv (step r s e) := by
  cases e with
  | recv data => exact remoteRecvCb_inv h hocc hsafe
  | sendDone => exact requestIncomingCb_inv h hocc
  | shutdown => exact shutdown_inv h hocc
  | closeDone => exact closeDone_inv h hocc hsafe

/-- After an event that is not, the next completion breaks the ownership. -/
theorem not_safe_step (h : Inv s) {e : Event} (hocc : Occurs s e) (hbreaks : ¬ Safe r s e) :
    Occurs (step r s e) .sendDone ∧ ¬ Owned (step r (step r s e) .sendDone) := by
  cases e with
  | recv data =>
      obtain ⟨hsome, hne⟩ := Classical.not_imp.1 hbreaks
      obtain ⟨out, hreply⟩ := Option.isSome_iff_exists.1 hsome
      obtain ⟨b, old, hsends, -⟩ := h.sends_eq hne
      have hfreed := h.not_freed hne
      unfold step
      dsimp only
      rw [remoteRecvCb_some hreply, hsends]
      refine ⟨nofun, fun howned => ?_⟩
      -- the slot has the new buffer, which the first completion releases
      have hheld := howned.held (s.next, out)
      unfold requestIncomingCb State.free at hheld
      simp [hfreed] at hheld
  | sendDone => exact absurd trivial hbreaks
  | shutdown => exact absurd trivial hbreaks
  | closeDone =>
      obtain ⟨hlast, hne⟩ := Classical.not_imp.1 hbreaks
      refine ⟨hne, fun howned => ?_⟩
      have halive := howned.alive
      unfold step requestIncomingCb RemoteCtx.closeDone RemoteCtx.release at halive
      simp [hlast] at halive

end Step

/-! ## Runs -/

theorem safe_run_inv {r : Relay} {es : List Event}
    (hrun : Legal (fun s e => Occurs s e ∧ Safe r s e) (step r) start es) :
    Inv (es.foldl (step r) start) := by
  refine Legal.invariant (P := Inv) ?_ inv_start hrun
  intro s e h hok
  exact step_inv h hok.1 hok.2

/-- In every run in which no reply is sent while the one before is in flight, and the last reference
is not dropped then, every reply's buffer is its own until its send is done.  An event that breaks
this condition at the end of such a run breaks the ownership with the next completion. -/
theorem replies_owned (r : Relay) {es : List Event}
    (hrun : Legal (fun s e => Occurs s e ∧ Safe r s e) (step r) start es) :
    Owned (es.foldl (step r) start) ∧
      ∀ e, Occurs (es.foldl (step r) start) e → ¬ Safe r (es.foldl (step r) start) e →
        Occurs ((es ++ [e]).foldl (step r) start) .sendDone ∧
          ¬ Owned ((es ++ [e, .sendDone]).foldl (step r) start) := by
  have hinv := safe_run_inv hrun
  refine ⟨hinv.owned, fun e hocc hbreaks => ?_⟩
  rw [List.foldl_append, List.foldl_append]
  exact not_safe_step hinv hocc hbreaks

/-- A client and a server that use no cipher. -/
def plainClient : Relay := clientRelay some id (fun _ => 1) id

def plainServer : Relay := serverRelay [1, 127, 0, 0, 1, 0, 53] some some

/-- Two replies, one after the other, and the end of the session. -/
def sampleRun : List Event :=
  [.recv [1, 2], .sendDone, .recv [1, 3], .sendDone, .shutdown, .closeDone, .closeDone]

theorem replies_owned_sample :
    Owned (sampleRun.foldl (step plainClient) start) ∧
      ¬ Owned ([Event.recv [1, 2], .recv [1, 3], .sendDone].foldl (step plainServer) start) := by
  have hclient := replies_owned plainClient (show Legal _ _ start sampleRun by decide)
  have hserver := replies_owned plainServer (show Legal _ _ start [.recv [1, 2]] by decide)
  exact ⟨hclient.1, (hserver.2 (.recv [1, 3]) (by decide) (by decide)).2⟩

/-- A second reply before the first is sent: the buffer of the second is released with the first
completion, on the client and on the server.  The end of the session before a reply is sent: the
completion uses the session after it was freed. -/
theorem replies_overlap :
    (Legal Occurs (step plainClient) start [.recv [1, 2], .recv [1, 3], .sendDone] ∧
      ¬ Owned ([Event.recv [1, 2], .recv [1, 3], .sendDone].foldl (step plainClient) start)) ∧
    (Legal Occurs (step plainServer) start [.recv [1, 2], .recv [1, 3], .sendDone] ∧
      ¬ Owned ([Event.recv [1, 2], .recv [1, 3], .sendDone].foldl (step plainServer) start)) ∧
    (Legal Occurs (step plainClient) start [.recv [1, 2], .shutdown, .closeDone, .closeDone, .sendDone] ∧
      ¬ Owned ([Event.recv [1, 2], .shutdown, .closeDone, .closeDone, .sendDone].foldl
        (step plainClient) start)) := by
  refine ⟨⟨by decide, fun h => ?_⟩, ⟨by decide, fun h => ?_⟩, ⟨by decide, fun h => ?_⟩⟩
  · exact nomatch h.held (1, [3]) (List.mem_singleton.2 rfl)
  · exact nomatch h.held (1, [1, 127, 0, 0, 1, 0, 53, 1, 3]) (List.mem_singleton.2 rfl)
  · exact nomatch h.alive

end Udp
end SsrNative
