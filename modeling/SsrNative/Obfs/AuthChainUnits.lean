import SsrNative.Lib.Units
import SsrNative.Obfs.AuthChainToClient
import SsrNative.Obfs.AuthChainToServer

/-!
# AuthChainUnits — the units of the auth_chain senders

Each sender cuts its data into units whose size is the difference of two numbers of its peer.  A
difference that is zero makes the loop run forever, one below zero wraps around.
-/

namespace SsrNative
namespace Obfs
namespace AuthChain

open Bytes
open Lib.Segments
open Lib.Units

variable {V : Variant} {S : Suite}

/-! ## The loops -/

theorem packClientData_pos (l : Context S) (pad : ℕ → UInt8) (data : Bytes) :
    0 < (packClientData V S l pad data).2.length := by
  have hlen := packFrame_length (V := V) l.userKey l.sent pad data
  exact hlen ▸ Nat.succ_pos _

theorem packServerData_pos (l : Context S) (pad : ℕ → UInt8) (data : Bytes) :
    0 < (packServerData V S l pad data).2.length := packClientData_pos l pad data

/-- The last frame of the client, which needs data. -/
def packLast (V : Variant) (S : Suite) (pad : ℕ → ℕ → UInt8) (i : ℕ) (l : Context S) (data : Bytes) :
    Context S × Bytes :=
  if 0 < data.length then packClientData V S l (pad i) data else (l, [])

theorem packUnits_eq (unitSize : ℕ) (pad : ℕ → ℕ → UInt8) (fuel i : ℕ) (l : Context S) (data : Bytes) :
    packUnits V S unitSize pad fuel i l data =
      splitUnits unitSize (fun i l data => packClientData V S l (pad i) data) (packLast V S pad)
        fuel i l data := by
  induction fuel generalizing i l data with
  | zero => rfl
  | succ fuel ih =>
      rw [packUnits, splitUnits]
      simp only [ih]
      rfl

theorem packReply_eq (unitLen : ℕ) (pad : ℕ → ℕ → UInt8) (fuel i : ℕ) (l : Context S) (data : Bytes) :
    packReply V S unitLen pad fuel i l data =
      splitUnits unitLen (fun i l data => packServerData V S l (pad i) data)
        (fun i l data => packServerData V S l (pad i) data) fuel i l data := by
  induction fuel generalizing i l data with
  | zero => rfl
  | succ fuel ih =>
      rw [packReply, splitUnits]
      simp only [ih]

/-! ## Units that split -/

/-- A unit that is the difference of two numbers, is not empty, and makes the loop end. -/
structure Splits {γ : Type*} (unit mss overhead : ℕ) (loop : ℕ → γ) : Prop where
  positive : 0 < unit
  exact : (unit : ℤ) = mss - overhead
  ends : Ends loop

theorem splits_subSize_iff {γ : Type*} {mss overhead : ℕ} {loop : ℕ → γ}
    (h : 0 < subSize mss overhead → Ends loop) :
    Splits (subSize mss overhead) mss overhead loop ↔ overhead < mss := by
  constructor
  · rintro ⟨hpos, hexact, -⟩
    omega
  · intro hlt
    have hunit : subSize mss overhead = mss - overhead := subSize_of_le (Nat.le_of_lt hlt)
    exact ⟨by omega, by omega, h (by omega)⟩

/-! ## The client -/

variable (V S) in
/-- The loop of one call of the client, by its fuel. -/
def clientLoop (info : ServerInfo) (st : GlobalData × Context S) (d : SendDraws) (data : Bytes)
    (fuel : ℕ) : Context S × Bytes :=
  let start := loopStart V S info st d data
  packUnits V S (subSize start.1.tcpMss info.overhead) d.pad fuel 1 start.1 start.2

theorem loopStart_tcpMss (info : ServerInfo) (st : GlobalData × Context S) (d : SendDraws)
    (data : Bytes) : (loopStart V S info st d data).1.tcpMss = st.2.tcpMss := by
  unfold loopStart
  split_ifs <;> rfl

theorem clientLoop_ends_iff (info : ServerInfo) (st : GlobalData × Context S) (d : SendDraws)
    (data : Bytes) : Ends (clientLoop V S info st d data) ↔
      0 < subSize st.2.tcpMss info.overhead ∨ (loopStart V S info st d data).2 = [] := by
  unfold clientLoop
  simp only [packUnits_eq]
  rw [splitUnits_ends_iff fun i l data => packClientData_pos l (d.pad i) data, loopStart_tcpMss]

variable (V S) in
def ClientSplits (info : ServerInfo) (st : GlobalData × Context S) (d : SendDraws) (data : Bytes) :
    Prop :=
  Splits (subSize (loopStart V S info st d data).1.tcpMss info.overhead) st.2.tcpMss info.overhead
    (clientLoop V S info st d data)

theorem clientSplits_iff (info : ServerInfo) (st : GlobalData × Context S) (d : SendDraws)
    (data : Bytes) : ClientSplits V S info st d data ↔ info.overhead < st.2.tcpMss := by
  unfold ClientSplits
  rw [loopStart_tcpMss]
  exact splits_subSize_iff fun hunit => (clientLoop_ends_iff info st d data).2 (.inl hunit)

/-! ## The server -/

/-- The calls of the server on one connection. -/
inductive ServerCall where
  | send (pad : ℕ → ℕ → UInt8) (buf : Bytes)
  | recv (authSuccess : Bool) (now : ℕ) (seg : Bytes)

variable (V S) in
def serverCall (info : ServerInfo) (l : Context S) : ServerCall → Context S × Option Bytes
  | .send pad buf => ((serverPreEncrypt V S l pad buf).1, some (serverPreEncrypt V S l pad buf).2)
  | .recv authSuccess now seg =>
      ((serverPostDecrypt V S info authSuccess l (now, seg)).1,
        (serverPostDecrypt V S info authSuccess l (now, seg)).2.1.items?)

variable (V S) in
/-- The loop of one call of the server, by its fuel. -/
def serverLoop (l : Context S) (pad : ℕ → ℕ → UInt8) (buf : Bytes) (fuel : ℕ) : Context S × Bytes :=
  packReply V S (replyStart S l).unitLen pad fuel 0 (replyStart S l) (replyData S l buf)

theorem serverPreEncrypt_loop (l : Context S) (pad : ℕ → ℕ → UInt8) (buf : Bytes) :
    serverPreEncrypt V S l pad buf = serverLoop V S l pad buf ((replyData S l buf).length + 1) := rfl

variable (V S) in
/-- A call that sends nothing splits nothing. -/
def ServerSplits (l : Context S) : ServerCall → Prop
  | .send pad buf =>
      Splits (replyStart S l).unitLen l.tcpMss l.clientOverHead (serverLoop V S l pad buf)
  | .recv _ _ _ => True

/-- The header is here, and the size of the units is still to be set, or set by it. -/
structure Opened (l : Context S) : Prop where
  header : l.hasRecvHeader = true
  unit : l.sent.id = 1 ∨ l.unitLen = unitLenOf S l

theorem readHeader_opened {info : ServerInfo} {now : ℕ} {l l' : Context S} (hid : l.sent.id = 1)
    (h : readHeader V S info now l = .done l') : Opened l' := by
  unfold readHeader at h
  dsimp only at h
  split_ifs at h
  cases h
  exact ⟨rfl, .inl hid⟩

theorem Opened.replyStart_unitLen {l : Context S} (h : Opened l) :
    (replyStart S l).unitLen = unitLenOf S l := by
  unfold replyStart
  by_cases hid : l.sent.id = 1
  · rw [if_pos hid]
  · rw [if_neg hid]
    exact h.unit.resolve_left hid

/-- Whatever the units are, the loop changes only the direction that it sends in. -/
theorem packReply_sent (unitLen : ℕ) (pad : ℕ → ℕ → UInt8) (fuel i : ℕ) (l : Context S) (data : Bytes) :
    ∃ c, (packReply V S unitLen pad fuel i l data).1 = { l with sent := c } := by
  induction fuel generalizing i l data with
  | zero => exact ⟨l.sent, rfl⟩
  | succ fuel ih =>
      by_cases hlong : unitLen < data.length
      · obtain ⟨c, hc⟩ := ih (i + 1) (packServerData V S l (pad i) (data.take unitLen)).1
          (data.drop unitLen)
        simp only [packReply, if_pos hlong, hc]
        exact ⟨c, rfl⟩
      · simp only [packReply, if_neg hlong]
        exact ⟨_, rfl⟩

/-- What no call changes behind the header. -/
structure SameUnits (l l' : Context S) : Prop where
  tcpMss : l'.tcpMss = l.tcpMss
  clientOverHead : l'.clientOverHead = l.clientOverHead

theorem Opened.send {l : Context S} (h : Opened l) (pad : ℕ → ℕ → UInt8) (buf : Bytes) :
    Opened (serverPreEncrypt V S l pad buf).1 ∧ SameUnits l (serverPreEncrypt V S l pad buf).1 := by
  have hunit := h.replyStart_unitLen
  have hsame : (replyStart S l).hasRecvHeader = l.hasRecvHeader ∧ SameUnits l (replyStart S l) := by
    unfold replyStart
    split_ifs <;> exact ⟨rfl, rfl, rfl⟩
  obtain ⟨c, hc⟩ := packReply_sent (V := V) (replyStart S l).unitLen pad
    ((replyData S l buf).length + 1) 0 (replyStart S l) (replyData S l buf)
  rw [serverPreEncrypt_loop, serverLoop, hc]
  refine ⟨⟨hsame.1.trans h.header, .inr ?_⟩, hsame.2.tcpMss, hsame.2.clientOverHead⟩
  unfold unitLenOf at hunit ⊢
  dsimp only
  rw [hunit, hsame.2.tcpMss, hsame.2.clientOverHead]

theorem Opened.recv {l : Context S} (h : Opened l) (info : ServerInfo) (authSuccess : Bool)
    (call : ℕ × Bytes) :
    Opened (serverPostDecrypt V S info authSuccess l call).1 ∧
      SameUnits l (serverPostDecrypt V S info authSuccess l call).1 := by
  have hloop : ∀ l' : Context S, Opened l' → SameUnits l l' →
      Opened (serverRecvLoop V S authSuccess l' false).1 ∧
        SameUnits l (serverRecvLoop V S authSuccess l' false).1 := by
    rintro l' ⟨hheader, hunit⟩ ⟨hmss, hover⟩
    unfold serverRecvLoop
    dsimp only
    split
    · exact ⟨⟨hheader, hunit⟩, hmss, hover⟩
    · exact ⟨⟨hheader, hunit⟩, hmss, hover⟩
    · exact ⟨⟨hheader, hunit⟩, hmss, hover⟩
  have hcall : serverPostDecrypt V S info authSuccess l call =
      serverRecvLoop V S authSuccess { l with recvBuffer := l.recvBuffer ++ call.2 } false := if_pos h.header
  rw [hcall]
  exact hloop _ ⟨h.header, h.unit⟩ ⟨rfl, rfl⟩

theorem serverSplits_send_iff {l : Context S} (h : Opened l) (pad : ℕ → ℕ → UInt8) (buf : Bytes) :
    ServerSplits V S l (.send pad buf) ↔ l.clientOverHead < l.tcpMss := by
  unfold ServerSplits
  rw [h.replyStart_unitLen]
  refine splits_subSize_iff fun hunit => ?_
  unfold serverLoop
  simp only [packReply_eq]
  rw [splitUnits_ends_iff fun i l data => packServerData_pos l (pad i) data, h.replyStart_unitLen]
  exact .inl hunit

/-- Every call of a run splits its data exactly when nothing is sent, or the client's overhead is
less than `tcp_mss`. -/
theorem server_splits_iff (info : ServerInfo) {l : Context S} (h : Opened l) (calls : List ServerCall) :
    Along (ServerSplits V S) (serverCall V S info) l calls ↔
      ((∃ pad buf, .send pad buf ∈ calls) → l.clientOverHead < l.tcpMss) := by
  induction calls generalizing l with
  | nil => exact iff_of_true trivial (by rintro ⟨_, _, hmem⟩; cases hmem)
  | cons call calls ih =>
      cases call with
      | send pad buf =>
          obtain ⟨hopened, hsame⟩ := h.send (V := V) pad buf
          have hrest := ih hopened
          rw [hsame.tcpMss, hsame.clientOverHead] at hrest
          constructor
          · intro halong _
            exact (serverSplits_send_iff h pad buf).1 halong.1
          · intro hlt
            have hmss := hlt ⟨pad, buf, List.mem_cons_self ..⟩
            exact ⟨(serverSplits_send_iff h pad buf).2 hmss, hrest.2 fun _ => hmss⟩
      | recv authSuccess now seg =>
          obtain ⟨hopened, hsame⟩ := h.recv (V := V) info authSuccess (now, seg)
          have hrest := ih hopened
          rw [hsame.tcpMss, hsame.clientOverHead] at hrest
          have hmem : (∃ pad buf, ServerCall.send pad buf ∈ ServerCall.recv authSuccess now seg :: calls) ↔
              ∃ pad buf, ServerCall.send pad buf ∈ calls := by simp
          rw [hmem]
          exact ⟨fun halong => hrest.1 halong.2, fun hlt => ⟨trivial, hrest.2 hlt⟩⟩

/-- Whatever the numbers of the peers are: the client splits the data of a call into units that are
not empty and do not wrap around, in a loop that ends, exactly when its overhead is less than
`tcp_mss`, and so does the server in every call of a run behind the header.  The client's loop alone ends
when the unit is not zero, or nothing is left for it. -/
theorem split_units_iff (V : Variant) (S : Suite) (info : ServerInfo) (st : GlobalData × Context S)
    (d : SendDraws) (data : Bytes) {l : Context S} (h : Opened l) (calls : List ServerCall) :
    (ClientSplits V S info st d data ↔ info.overhead < st.2.tcpMss) ∧
    (Ends (clientLoop V S info st d data) ↔
      0 < subSize st.2.tcpMss info.overhead ∨ (loopStart V S info st d data).2 = []) ∧
    (Along (ServerSplits V S) (serverCall V S info) l calls ↔
      ((∃ pad buf, .send pad buf ∈ calls) → l.clientOverHead < l.tcpMss)) ∧
    ∀ (now : ℕ) (l₀ l' : Context S), l₀.sent.id = 1 → readHeader V S info now l₀ = .done l' → Opened l' := by
  refine ⟨?_, ?_, ?_, ?_⟩
  · exact clientSplits_iff info st d data
  · exact clientLoop_ends_iff info st d data
  · exact server_splits_iff info h calls
  · intro now l₀ l' hid hread
    exact readHeader_opened hid hread

/-- A server that has read the header of a client with the given overhead. -/
def openedServer (tcpMss overhead : ℕ) : Context suite :=
  { contextInit suite tcpMss with hasRecvHeader := true, clientOverHead := overhead }

theorem openedServer_opened (tcpMss overhead : ℕ) : Opened (openedServer tcpMss overhead) :=
  ⟨rfl, .inl rfl⟩

/-- A client that has sent its header and knows `tcp_mss`. -/
def sentClient (tcpMss : ℕ) : Context suite :=
  { contextInit suite tcpMss with hasSentHeader := true }

def unitDraws : SendDraws := ⟨⟨fun _ => 0, 0, fun _ => 0, fun _ => 0, 0⟩, fun _ _ => 0⟩

theorem split_units_sample :
    ClientSplits authChainA suite ⟨[], [], [], 9, none⟩ (⟨[], 0⟩, sentClient 1460) unitDraws [1] ∧
    Along (ServerSplits authChainA suite) (serverCall authChainA suite ⟨[], [], [], 9, none⟩)
      (openedServer 1460 9) [.send (fun _ _ => 0) [1], .recv true 0 [2], .send (fun _ _ => 0) [3]] := by
  have hmain := split_units_iff authChainA suite ⟨[], [], [], 9, none⟩ (⟨[], 0⟩, sentClient 1460)
    unitDraws [1] (openedServer_opened 1460 9)
    [.send (fun _ _ => 0) [1], .recv true 0 [2], .send (fun _ _ => 0) [3]]
  exact ⟨hmain.1.2 (by decide), hmain.2.2.1.2 fun _ => by decide⟩

/-- A `tcp_mss` that equals the overhead makes the client's loop run forever, and an overhead above it
makes the server's unit wrap around. -/
theorem split_units_wrap :
    ¬ ClientSplits authChainA suite ⟨[], [], [], 4, none⟩ (⟨[], 0⟩, sentClient 4) unitDraws [1] ∧
    ¬ Ends (clientLoop authChainA suite ⟨[], [], [], 4, none⟩ (⟨[], 0⟩, sentClient 4) unitDraws [1]) ∧
    ¬ ServerSplits authChainA suite (openedServer 1460 65535) (.send (fun _ _ => 0) [1]) := by
  refine ⟨?_, ?_, ?_⟩
  · rw [clientSplits_iff]
    decide
  · rw [clientLoop_ends_iff]
    rintro (hunit | hnil)
    · exact absurd hunit (by decide)
    · cases hnil
  · rw [serverSplits_send_iff (openedServer_opened 1460 65535)]
    decide

end AuthChain
end Obfs
end SsrNative
