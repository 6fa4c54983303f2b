import Mathlib.Data.List.Induction
import SsrNative.Obfs.Tls12Client
import SsrNative.Obfs.Tls12Server

/-!
# Tls12Stream — application data through a tls1.2_ticket connection

The data phase of both directions (`data_phase_delivers`), and the client's encoder from its first
call on: data is queued behind the handshake, flushed with the Finished block, and cut directly into
records afterwards (`client_encode_no_loss`).
-/

namespace SsrNative
namespace Obfs
namespace Tls12TicketAuth

open Bytes
open Lib.Framing
open Lib.Segments

/-! ## The data phase -/

/-- The status of a connection in which `bit` is set.  The mark `-1` of a connection that was
switched to pass-through is not a set of bits. -/
def HasBit (bit : BitVec 32) (l : LocalData) : Prop :=
  l.handshakeStatus ≠ -1 ∧ l.handshakeStatus &&& bit = bit

instance (bit : BitVec 32) (l : LocalData) : Decidable (HasBit bit l) :=
  inferInstanceAs (Decidable (_ ∧ _))

/-- Called on `segs` in turn, the receiver `f` fails in no call, returns `payload` in all, and has
nothing carried over at the end. -/
structure Arrives {ο : Type*} (f : LocalData → Bytes → LocalData × ο) (val : ο → Option Bytes)
    (l : LocalData) (segs : List Bytes) (payload : Bytes) : Prop where
  no_failure : ∀ o ∈ (run f l segs).2, val o ≠ none
  returned_eq : delivered ((run f l segs).2.map val) = payload
  recvBuffer_empty : (run f l segs).1.recvBuffer = []

/-- A receiver whose calls are passes of a record loop returns what the records carry. -/
theorem RecordLoop.run_delivers {ο : Type*} {f : LocalData → Bytes → LocalData × ο}
    {val : ο → Option Bytes} {step : Unit → Bytes → Peel Unit UInt8 Unit} {Q : LocalData → Prop}
    (hstep : RecordLoop step)
    (hf : Follows f id val step (fun _ => True) fun l t => Q l ∧ l.recvBuffer = t.2)
    {l : LocalData} (hl : Q l) (hempty : l.recvBuffer = []) {pieces segs : List Bytes}
    (hfit : ∀ piece ∈ pieces, Fits piece) (hcut : segs.flatten = recordStream pieces) :
    Arrives f val l segs pieces.flatten := by
  by_cases hsegs : segs = []
  · -- no call at all: no record was sent
    subst hsegs
    have hnil : pieces = [] := by
      cases pieces with
      | nil => rfl
      | cons piece pieces => simp [packData] at hcut
    subst hnil
    exact ⟨by simp, rfl, hempty⟩
  · have hp := hstep.parses pieces hfit
    rw [← hcut] at hp
    have hbuf : Q l ∧ l.recvBuffer = (((), []) : Unit × Bytes).2 := ⟨hl, hempty⟩
    obtain ⟨_, hfinal, -, hall, hout⟩ := hf.run_complete hbuf (fun _ _ => trivial)
      (by simpa using hp) rfl (cutsOk_of_forall (fun _ => trivial) _) hsegs
    exact ⟨hall, hout, hfinal.2⟩

section Data

variable (H : Mac 20) (info : ServerInfo)

/-- `client_encode` as the run calls it: random choices and input of a call are one argument. -/
def clientCall (l : LocalData) (c : ClientDraws × Bytes) : LocalData × Bytes :=
  clientEncode H info c.1 l c.2

/-- The same in its arrays. -/
def clientCallChecked (l : LocalData) (c : ClientDraws × Bytes) : Option (LocalData × Bytes) :=
  clientEncodeChecked H info c.1 l c.2

/-- The pieces of all data that an established client sends. -/
def clientSentPieces (sendId : ℕ) (calls : List (ClientDraws × Bytes)) : List Bytes :=
  calls.flatMap fun c => clientPieces sendId c.1.split c.2

theorem clientSentPieces_flatten (sendId : ℕ) (calls : List (ClientDraws × Bytes)) :
    (clientSentPieces sendId calls).flatten = (calls.map Prod.snd).flatten := by
  induction calls with
  | nil => rfl
  | cons c calls ih =>
      simp only [clientSentPieces, List.flatMap_cons, List.flatten_append, clientPieces_flatten,
        List.map_cons, List.flatten_cons] at ih ⊢
      rw [ih]

theorem clientSentPieces_fits (sendId : ℕ) (calls : List (ClientDraws × Bytes)) :
    ∀ piece ∈ clientSentPieces sendId calls, Fits piece := by
  intro piece hp
  obtain ⟨c, -, hc⟩ := List.mem_flatMap.1 hp
  exact clientPieces_fits sendId c.1.split c.2 piece hc

theorem clientCall_established {l : LocalData} (hl : HasBit 4 l) (c : ClientDraws × Bytes) :
    clientCall H info l c = (l, recordStream (clientPieces l.sendId c.1.split c.2)) := by
  simp only [clientCall, clientEncode, hl.1, hl.2, if_true, if_false, recordStream]

theorem clientCall_run_established {l : LocalData} (hl : HasBit 4 l)
    (calls : List (ClientDraws × Bytes)) :
    (run (clientCall H info) l calls).1 = l ∧
      (run (clientCall H info) l calls).2.flatten =
        recordStream (clientSentPieces l.sendId calls) := by
  induction calls with
  | nil => exact ⟨rfl, rfl⟩
  | cons c calls ih =>
      rw [run_cons, clientCall_established H info hl c]
      refine ⟨ih.1, ?_⟩
      have hpieces : clientSentPieces l.sendId (c :: calls) =
          clientPieces l.sendId c.1.split c.2 ++ clientSentPieces l.sendId calls := by
        simp [clientSentPieces]
      rw [List.flatten_cons, ih.2, hpieces, recordStream_append]

/-- With bit 4 set the server's decoder is the record loop. -/
theorem serverDecode_follows :
    Follows (serverDecode H info) id Decoded.out serverRecordStep (fun _ => True)
      fun l t => HasBit 4 l ∧ l.recvBuffer = t.2 where
  next {l t seg} hl _ hnone := by
    obtain ⟨hbit, hbuf⟩ := hl
    have hcall : serverDecode H info l seg = serverDecodeStreaming l seg := by
      simp only [serverDecode, hbit.1, hbit.2, if_true, if_false]
    have ht : ((), l.recvBuffer) = t := Prod.ext rfl hbuf
    simp only [id_eq] at hnone
    simp only [hcall, serverDecodeStreaming, ht, hnone, if_true, id_eq]
    exact ⟨⟨hbit, trivial⟩, trivial⟩

/-- With bit 8 set the client's decoder is the record loop. -/
theorem clientDecode_follows :
    Follows (clientDecode H info) id Prod.fst clientRecordStep (fun _ => True)
      fun l t => l.handshakeStatus &&& 8 = 8 ∧ l.recvBuffer = t.2 where
  next {l t seg} hl _ hnone := by
    obtain ⟨hbit, hbuf⟩ := hl
    have ht : ((), l.recvBuffer) = t := Prod.ext rfl hbuf
    simp only [id_eq] at hnone
    simp only [clientDecode, hbit, clientDecodeStreaming, ht, hnone, if_true, id_eq]
    exact ⟨⟨trivial, trivial⟩, trivial⟩

/-- What an established client sends arrives at a server with bit 4 set. -/
theorem client_records_arrive {lc ls : LocalData} (hc : HasBit 4 lc) (hs : HasBit 4 ls)
    (hempty : ls.recvBuffer = []) (info' : ServerInfo) (calls : List (ClientDraws × Bytes))
    {segs : List Bytes} (hcut : segs.flatten = (run (clientCall H info) lc calls).2.flatten) :
    Arrives (serverDecode H info') Decoded.out ls segs (calls.map Prod.snd).flatten := by
  rw [(clientCall_run_established H info hc calls).2] at hcut
  rw [← clientSentPieces_flatten lc.sendId]
  exact serverRecordStep_recordLoop.run_delivers (serverDecode_follows H info') hs hempty
    (clientSentPieces_fits lc.sendId calls) hcut

/-- What a server with bit 8 set sends arrives at a client with bit 8 set. -/
theorem server_records_arrive {ls lc : LocalData} (hs : HasBit 8 ls)
    (hc : lc.handshakeStatus &&& 8 = 8) (hempty : lc.recvBuffer = []) (info' : ServerInfo)
    (calls : List (ServerDraws × Bytes)) {segs : List Bytes}
    (hcut : segs.flatten = (run (serverCall H info) ls calls).2.flatten) :
    Arrives (clientDecode H info') Prod.fst lc segs (calls.map Prod.snd).flatten := by
  rw [serverCall_run_answered hs.1 hs.2 calls] at hcut
  rw [← sentPieces_flatten]
  exact clientRecordStep_recordLoop.run_delivers (clientDecode_follows H info') hc hempty
    (sentPieces_fits calls) hcut

/-- In the data phase both directions deliver every payload, whatever the sizes of the records and
however the bytes are cut.  `info` belongs to the client and `info'` to the server. -/
theorem data_phase_delivers (info' : ServerInfo) :
    (∀ (lc ls : LocalData) (calls : List (ClientDraws × Bytes)) (segs : List Bytes),
      HasBit 4 lc → HasBit 4 ls → ls.recvBuffer = [] →
      segs.flatten = (run (clientCall H info) lc calls).2.flatten →
      Arrives (serverDecode H info') Decoded.out ls segs (calls.map Prod.snd).flatten) ∧
    ∀ (ls lc : LocalData) (calls : List (ServerDraws × Bytes)) (segs : List Bytes),
      HasBit 8 ls → lc.handshakeStatus &&& 8 = 8 → lc.recvBuffer = [] →
      segs.flatten = (run (serverCall H info') ls calls).2.flatten →
      Arrives (clientDecode H info) Prod.fst lc segs (calls.map Prod.snd).flatten := by
  constructor
  · intro lc ls calls segs hc hs hempty hcut
    exact client_records_arrive H info hc hs hempty info' calls hcut
  · intro ls lc calls segs hs hc hempty hcut
    exact server_records_arrive H info' hs hc hempty info calls hcut

end Data

/-- Three bytes of client data, delivered one byte at a time and then all the rest, and two bytes of
server data in one segment. -/
theorem data_phase_delivers_sample :
    let client := { localDataInit with handshakeStatus := 15 }
    let server := { localDataInit with handshakeStatus := 13 }
    Arrives (serverDecode hmacSha1 sampleInfo) Decoded.out server
        [[0x17], [0x03], [0x03, 0x00, 0x03, 1, 2, 3]] [1, 2, 3] ∧
      Arrives (clientDecode hmacSha1 sampleInfo) Prod.fst client
        [[0x17, 0x03, 0x03, 0x00, 0x02, 4, 5]] [4, 5] := by
  intro client server
  have h := data_phase_delivers hmacSha1 sampleInfo sampleInfo
  refine ⟨h.1 client server [(sampleDraws, [1, 2, 3])] _ ?_ ?_ rfl ?_,
    h.2 server client [(sampleServerDraws, [4, 5])] _ ?_ ?_ rfl ?_⟩
  all_goals decide

/-! ## The client's encoder from its first call on -/

section Encoder

variable (H : Mac 20) (info : ServerInfo) (fastauth : Bool)

/-- A client with this status and queue. -/
def clientAt (status : BitVec 32) (queue : List Bytes) : LocalData :=
  { localDataInit with handshakeStatus := status, dataSentBuffer := queue, fastauth := fastauth }

/-- A client before its first call. -/
def freshClient : LocalData := clientAt fastauth 0 []

/-- A call that writes the queue out, unless it is the first one. -/
def Flushes (c : ClientDraws × Bytes) : Prop := c.2 = [] ∨ fastauth = true

instance (c : ClientDraws × Bytes) : Decidable (Flushes fastauth c) :=
  inferInstanceAs (Decidable (_ ∨ _))

/-- Behind the ClientHello. -/
def Greeted (l : LocalData) : Prop :=
  ∃ status queue, l = clientAt fastauth status queue ∧ (status = 1 ∨ status = 3 ∨ status = 7)

/-- The ClientHello, made by the first call. -/
def helloBlock : List (ClientDraws × Bytes) → Bytes
  | [] => []
  | c :: _ => clientHello H info c.1

/-- The Finished block, made by the second call. -/
def finishBlock : List (ClientDraws × Bytes) → List Bytes
  | _ :: c :: _ => [clientFinish H info c.1]
  | _ => []

/-- Some call after the first one wrote the queue out. -/
def Flushed (calls : List (ClientDraws × Bytes)) : Prop := ∃ c ∈ calls.tail, Flushes fastauth c

instance (calls : List (ClientDraws × Bytes)) : Decidable (Flushed fastauth calls) :=
  inferInstanceAs (Decidable (∃ c ∈ calls.tail, Flushes fastauth c))

/-- The inputs that make a record of their own while the handshake lasts. -/
def submitted (calls : List (ClientDraws × Bytes)) : List Bytes :=
  (calls.map Prod.snd).filter (· ≠ [])

@[simp] theorem submitted_nil : submitted [] = [] := rfl

theorem submitted_snoc (calls : List (ClientDraws × Bytes)) (c : ClientDraws × Bytes) :
    submitted (calls ++ [c]) = submitted calls ++ if c.2 = [] then [] else [c.2] := by
  by_cases h : c.2 = [] <;> simp [submitted, h]

theorem submitted_flatten (calls : List (ClientDraws × Bytes)) :
    (submitted calls).flatten = (calls.map Prod.snd).flatten := by
  induction calls with
  | nil => rfl
  | cons c calls ih =>
      by_cases h : c.2 = []
      · simpa [submitted, h] using ih
      · simpa [submitted, h] using ih

theorem submitted_fits {calls : List (ClientDraws × Bytes)}
    (hlen : ∀ c ∈ calls, c.2.length < 65536) : ∀ piece ∈ submitted calls, Fits piece := by
  intro piece hp
  simp only [submitted, List.mem_filter, List.mem_map, decide_eq_true_eq] at hp
  obtain ⟨⟨c, hc, rfl⟩, hne⟩ := hp
  exact ⟨hne, hlen c hc⟩

/-- Where the encoder stands after `calls`, with `out` written so far. -/
inductive Progress : List (ClientDraws × Bytes) → LocalData → Bytes → Prop
  | fresh : Progress [] (freshClient fastauth) []
  | greeted (c : ClientDraws × Bytes) :
      Progress [c] (clientAt fastauth 1 ((submitted [c]).map packData)) (clientHello H info c.1)
  | finishing (c c' : ClientDraws × Bytes) (calls : List (ClientDraws × Bytes))
      (hno : ¬ Flushed fastauth (c :: c' :: calls)) :
      Progress (c :: c' :: calls)
        (clientAt fastauth 3
          (clientFinish H info c'.1 :: (submitted (c :: c' :: calls)).map packData))
        (clientHello H info c.1)
  | finished (c c' : ClientDraws × Bytes) (calls : List (ClientDraws × Bytes)) (status : BitVec 32)
      (sent : List Bytes) (hflush : Flushed fastauth (c :: c' :: calls))
      (hstatus : status = 7 ∨ status = 3 ∧ fastauth = true)
      (hsent : sent.flatten = ((c :: c' :: calls).map Prod.snd).flatten)
      (hfit : ∀ piece ∈ sent, Fits piece) :
      Progress (c :: c' :: calls) (clientAt fastauth status [])
        (clientHello H info c.1 ++ clientFinish H info c'.1 ++ recordStream sent)

/-- The queue as a call between ClientHello and completion leaves it before it flushes. -/
def queueAfter (status : BitVec 32) (queue : List Bytes) (c : ClientDraws × Bytes) : List Bytes :=
  (if status = 1 then [clientFinish H info c.1] else []) ++ queue ++
    (if c.2 = [] then [] else [packData c.2])

/-- A call between ClientHello and completion. -/
theorem clientCall_handshake {status : BitVec 32} (hstatus : status = 1 ∨ status = 3)
    (queue : List Bytes) (c : ClientDraws × Bytes) :
    clientCall H info (clientAt fastauth status queue) c =
      if c.2 = [] then (clientAt fastauth 7 [], (queueAfter H info status queue c).flatten)
      else if fastauth = true then
        (clientAt fastauth 3 [], (queueAfter H info status queue c).flatten)
      else (clientAt fastauth 3 (queueAfter H info status queue c), []) := by
  obtain ⟨d, buf⟩ := c
  by_cases hbuf : buf = []
  · rcases hstatus with h | h <;> simp [clientCall, clientEncode, clientAt, queueAfter, h, hbuf]
  · have hpos : 0 < buf.length := List.length_pos_iff.2 hbuf
    by_cases hfast : fastauth = true
    · rcases hstatus with h | h <;>
        simp [clientCall, clientEncode, clientAt, queueAfter, h, hbuf, hpos, hfast]
    · rcases hstatus with h | h <;>
        simp [clientCall, clientEncode, clientAt, queueAfter, h, hbuf, hpos, hfast]

/-- The first call. -/
theorem clientCall_fresh (c : ClientDraws × Bytes) :
    clientCall H info (freshClient fastauth) c =
      (clientAt fastauth 1 ((submitted [c]).map packData), clientHello H info c.1) := by
  by_cases hbuf : c.2 = []
  · simp [clientCall, clientEncode, freshClient, clientAt, localDataInit, submitted, hbuf]
  · have hpos : 0 < c.2.length := List.length_pos_iff.2 hbuf
    simp [clientCall, clientEncode, freshClient, clientAt, localDataInit, submitted, hbuf, hpos]

theorem Progress.snoc_fresh (c : ClientDraws × Bytes) :
    Progress H info fastauth [c] (clientCall H info (freshClient fastauth) c).1
      (clientCall H info (freshClient fastauth) c).2 := by
  rw [clientCall_fresh]
  exact .greeted c

variable {H info fastauth}

/-- One more call while everything submitted so far is queued: it stays queued behind the Finished
block, or all of it is written. -/
theorem Progress.snoc_queue {c c' x : ClientDraws × Bytes} {calls : List (ClientDraws × Bytes)}
    {status : BitVec 32} {queue : List Bytes} (hstatus : status = 1 ∨ status = 3)
    (hqueue : queueAfter H info status queue x =
      clientFinish H info c'.1 :: (submitted (c :: c' :: calls)).map packData)
    (hx : x ∈ c' :: calls) (hearlier : ∀ y ∈ c' :: calls, y = x ∨ ¬ Flushes fastauth y)
    (hlen : ∀ y ∈ c :: c' :: calls, y.2.length < 65536) :
    Progress H info fastauth (c :: c' :: calls)
      (clientCall H info (clientAt fastauth status queue) x).1
      (clientHello H info c.1 ++ (clientCall H info (clientAt fastauth status queue) x).2) := by
  have hflat : (queueAfter H info status queue x).flatten =
      clientFinish H info c'.1 ++ recordStream (submitted (c :: c' :: calls)) := by
    rw [hqueue, List.flatten_cons]
    rfl
  rw [clientCall_handshake H info fastauth hstatus]
  by_cases hempty : x.2 = []
  · rw [if_pos hempty, hflat, ← List.append_assoc]
    exact .finished c c' calls 7 _ ⟨x, hx, Or.inl hempty⟩ (Or.inl rfl) (submitted_flatten _)
      (submitted_fits hlen)
  · by_cases hfa : fastauth = true
    · rw [if_neg hempty, if_pos hfa, hflat, ← List.append_assoc]
      exact .finished c c' calls 3 _ ⟨x, hx, Or.inr hfa⟩ (Or.inr ⟨rfl, hfa⟩) (submitted_flatten _)
        (submitted_fits hlen)
    · rw [if_neg hempty, if_neg hfa, hqueue, List.append_nil]
      refine .finishing c c' calls ?_
      rintro ⟨y, hy, hflush⟩
      rcases hearlier y hy with rfl | hno
      · exact hflush.elim hempty hfa
      · exact hno hflush

/-- One more call after the Finished block was written: it writes records for its input and nothing
else. -/
theorem clientCall_finished {status : BitVec 32} (hstatus : status = 7 ∨ status = 3 ∧ fastauth = true)
    {x : ClientDraws × Bytes} (hlen : x.2.length < 65536) :
    ∃ status' pieces, (status' = 7 ∨ status' = 3 ∧ fastauth = true) ∧ pieces.flatten = x.2 ∧
      (∀ piece ∈ pieces, Fits piece) ∧
      clientCall H info (clientAt fastauth status []) x =
        (clientAt fastauth status' [], recordStream pieces) := by
  rcases hstatus with rfl | ⟨rfl, hfa⟩
  · have hbit : HasBit 4 (clientAt fastauth 7 []) := by
      constructor
      · change (7 : BitVec 32) ≠ -1
        decide
      · change (7 : BitVec 32) &&& 4 = 4
        decide
    exact ⟨7, clientPieces 0 x.1.split x.2, Or.inl rfl, clientPieces_flatten _ _ _,
      clientPieces_fits _ _ _, clientCall_established H info hbit x⟩
  · rw [clientCall_handshake H info fastauth (Or.inr rfl)]
    by_cases hempty : x.2 = []
    · refine ⟨7, [], Or.inl rfl, hempty.symm, by simp, ?_⟩
      simp [queueAfter, hempty]
    · refine ⟨3, [x.2], Or.inr ⟨rfl, hfa⟩, by simp, ?_, ?_⟩
      · intro piece hp
        rw [List.mem_singleton.1 hp]
        exact ⟨hempty, hlen⟩
      · simp [queueAfter, hempty, hfa]

/-- What one call does to the progress of the encoder. -/
theorem Progress.snoc {calls : List (ClientDraws × Bytes)} {l : LocalData} {out : Bytes}
    (h : Progress H info fastauth calls l out) (x : ClientDraws × Bytes)
    (hlen : ∀ c ∈ calls ++ [x], c.2.length < 65536) :
    Progress H info fastauth (calls ++ [x]) (clientCall H info l x).1
      (out ++ (clientCall H info l x).2) := by
  -- hello, queueing, finished: the three phases, and the call that leads on
  cases h with
  | fresh => exact Progress.snoc_fresh H info fastauth x
  | greeted c =>
      refine Progress.snoc_queue (Or.inl rfl) ?_ (by simp) (by simp) hlen
      have hsub : submitted [c, x] = submitted [c] ++ if x.2 = [] then [] else [x.2] :=
        submitted_snoc [c] x
      by_cases hempty : x.2 = [] <;> simp [queueAfter, hsub, hempty]
  | finishing c c' calls hno =>
      refine Progress.snoc_queue (Or.inr rfl) ?_ (by simp) ?_ hlen
      · have hsub : submitted (c :: c' :: (calls ++ [x])) =
            submitted (c :: c' :: calls) ++ if x.2 = [] then [] else [x.2] :=
          submitted_snoc (c :: c' :: calls) x
        by_cases hempty : x.2 = [] <;> simp [queueAfter, hsub, hempty]
      · intro y hy
        rcases List.mem_append.1 (show y ∈ (c' :: calls) ++ [x] from hy) with hy | hy
        · exact Or.inr fun hflush => hno ⟨y, hy, hflush⟩
        · exact Or.inl (List.mem_singleton.1 hy)
  | finished c c' calls status sent hflush hstatus hsent hfit =>
      obtain ⟨status', pieces, hstatus', hpieces, hfit', hcall⟩ :=
        clientCall_finished hstatus (hlen x (by simp))
      rw [hcall, List.append_assoc _ (recordStream sent), ← recordStream_append]
      obtain ⟨y, hy, hfl⟩ := hflush
      refine .finished c c' (calls ++ [x]) status' _ ⟨y, List.mem_append_left [x] hy, hfl⟩ hstatus'
        ?_ ?_
      · rw [List.flatten_append, hsent, hpieces]
        simp
      · intro piece hp
        rcases List.mem_append.1 hp with h | h
        · exact hfit piece h
        · exact hfit' piece h

theorem progress_run {calls : List (ClientDraws × Bytes)}
    (hlen : ∀ c ∈ calls, c.2.length < 65536) :
    Progress H info fastauth calls (run (clientCall H info) (freshClient fastauth) calls).1
      (run (clientCall H info) (freshClient fastauth) calls).2.flatten := by
  induction calls using List.reverseRecOn with
  | nil => exact .fresh
  | append_singleton calls x ih =>
      have h := ih fun c hc => hlen c (List.mem_append_left [x] hc)
      rw [run_append, List.flatten_append]
      simpa [run_cons] using h.snoc x hlen

theorem Greeted.call {l : LocalData} (h : Greeted fastauth l) (c : ClientDraws × Bytes) :
    Greeted fastauth (clientCall H info l c).1 := by
  obtain ⟨status, queue, rfl, hstatus⟩ := h
  by_cases hdone : status = 7
  · have hbit : HasBit 4 (clientAt fastauth status queue) := by
      rw [hdone]
      exact ⟨(by decide : (7 : BitVec 32) ≠ -1), (by decide : (7 : BitVec 32) &&& 4 = 4)⟩
    rw [clientCall_established H info hbit c]
    exact ⟨status, queue, rfl, hstatus⟩
  · have hearly : status = 1 ∨ status = 3 := by tauto
    rw [clientCall_handshake H info fastauth hearly queue c]
    split_ifs
    · exact ⟨7, [], rfl, .inr (.inr rfl)⟩
    · exact ⟨3, [], rfl, .inr (.inl rfl)⟩
    · exact ⟨3, _, rfl, .inr (.inl rfl)⟩

/-- No call behind the ClientHello can leave its arrays. -/
theorem Greeted.checked {l : LocalData} (h : Greeted fastauth l) (c : ClientDraws × Bytes) :
    clientCallChecked H info l c = some (clientCall H info l c) := by
  obtain ⟨status, queue, rfl, hstatus⟩ := h
  refine if_neg fun hhello => ?_
  have hnot : ¬ status &&& 3 = 0 := by
    rcases hstatus with rfl | rfl | rfl
    · decide
    · decide
    · decide
  exact hnot hhello.2.1

/-- The calls stay inside their arrays when the ClientHello does. -/
theorem clientCallChecked_run {calls : List (ClientDraws × Bytes)}
    (hroom : ∀ c ∈ calls.head?, HelloRoom info c.1) :
    runChecked (clientCallChecked H info) (freshClient fastauth) calls =
      some (run (clientCall H info) (freshClient fastauth) calls) := by
  refine runChecked_of_along (P := fun l c => clientCallChecked H info l c = some (clientCall H info l c))
    (fun _ _ hcall => hcall) ?_
  cases calls with
  | nil => trivial
  | cons c calls =>
      have hfirst : clientCallChecked H info (freshClient fastauth) c =
          some (clientCall H info (freshClient fastauth) c) := if_neg fun h => h.2.2 (hroom c rfl)
      have hgreeted : Greeted fastauth (clientCall H info (freshClient fastauth) c).1 := by
        rw [clientCall_fresh]
        exact ⟨1, _, rfl, .inl rfl⟩
      exact ⟨hfirst, along_of_invariant (fun l c h => h.call c) (fun l c h => h.checked c) hgreeted calls⟩

theorem rdBe16_packData {piece : Bytes} (hfit : Fits piece) :
    rdBe16 (packData piece) 3 = piece.length :=
  (packData_head (t := []) hfit rfl (by simp)).2.2

variable (H info fastauth)

/-- Over any calls of the client's encoder whose ClientHello stays inside its arrays, its output is the ClientHello, the Finished block, and
then data records.  The Finished block is written as soon as a call after the first one is empty or
made with `fastauth`; until then it is the head of the queue and no record is written.  What the
records carry, followed by what is queued, is the input in order, and every length field is right. -/
theorem client_encode_no_loss (calls : List (ClientDraws × Bytes))
    (hlen : ∀ c ∈ calls, c.2.length < 65536) (hroom : ∀ c ∈ calls.head?, HelloRoom info c.1) :
    ∃ (r : LocalData × List Bytes) (sent queued : List Bytes),
      runChecked (clientCallChecked H info) (freshClient fastauth) calls = some r ∧
      r.2.flatten = helloBlock H info calls ++
        (if Flushed fastauth calls then finishBlock H info calls else []).flatten ++
        recordStream sent ∧
      r.1.dataSentBuffer =
        (if Flushed fastauth calls then [] else finishBlock H info calls) ++ queued.map packData ∧
      (sent ++ queued).flatten = (calls.map Prod.snd).flatten ∧
      (¬ Flushed fastauth calls → sent = []) ∧
      ∀ piece ∈ sent ++ queued, rdBe16 (packData piece) 3 = piece.length := by
  have hprogress : Progress H info fastauth calls _ _ := progress_run hlen
  have hrun : runChecked (clientCallChecked H info) (freshClient fastauth) calls =
      some (run (clientCall H info) (freshClient fastauth) calls) := clientCallChecked_run hroom
  generalize run (clientCall H info) (freshClient fastauth) calls = r at hprogress hrun
  refine ⟨r, ?_⟩
  simp only [hrun, true_and]
  generalize r.1 = l at hprogress ⊢
  generalize r.2.flatten = out at hprogress ⊢
  have hfits := submitted_fits hlen
  -- what is queued in a phase is what was submitted and not sent
  cases hprogress with
  | fresh => exact ⟨[], [], by simp [helloBlock, finishBlock], by simp [finishBlock]; rfl, rfl, by simp, by simp⟩
  | greeted c =>
      have hno : ¬ Flushed fastauth [c] := by simp [Flushed]
      refine ⟨[], submitted [c], ?_, ?_, submitted_flatten _, by simp, ?_⟩
      · simp [helloBlock, hno]
      · simp [hno, finishBlock, clientAt]
      · exact fun piece hp => rdBe16_packData (hfits piece hp)
  | finishing c c' calls hno =>
      refine ⟨[], submitted (c :: c' :: calls), ?_, ?_, submitted_flatten _, by simp, ?_⟩
      · simp [helloBlock, hno]
      · simp [hno, finishBlock, clientAt]
      · exact fun piece hp => rdBe16_packData (hfits piece hp)
  | finished c c' calls status sent hflush hstatus hsent hfit =>
      refine ⟨sent, [], ?_, ?_, ?_, fun hno => absurd hflush hno, ?_⟩
      · simp [helloBlock, hflush, finishBlock]
      · simp [hflush, clientAt]
      · rw [List.append_nil, hsent]
      · rw [List.append_nil]
        exact fun piece hp => rdBe16_packData (hfit piece hp)

end Encoder

/-- Data before and during the handshake, its completion, and data after it. -/
theorem client_encode_no_loss_sample :
    let calls := [(sampleDraws, [1, 2]), (sampleDraws, [3]), (sampleDraws, []), (sampleDraws, [4])]
    ∃ (r : LocalData × List Bytes) (sent queued : List Bytes),
      runChecked (clientCallChecked hmacSha1 sampleInfo) (freshClient false) calls = some r ∧
      r.2.flatten = clientHello hmacSha1 sampleInfo sampleDraws ++
        clientFinish hmacSha1 sampleInfo sampleDraws ++ recordStream sent ∧
      r.1.dataSentBuffer = queued.map packData ∧ (sent ++ queued).flatten = [1, 2, 3, 4] := by
  intro calls
  have hflushed : Flushed false calls := by decide
  have hlen : ∀ c ∈ calls, c.2.length < 65536 := by decide
  have hroom : ∀ c ∈ calls.head?, HelloRoom sampleInfo c.1 := by
    intro c hc
    obtain rfl := Option.some.inj hc
    decide
  obtain ⟨r, sent, queued, hrun, hout, hqueue, hdata, -⟩ :=
    client_encode_no_loss hmacSha1 sampleInfo false calls hlen hroom
  rw [if_pos hflushed] at hout hqueue
  refine ⟨r, sent, queued, hrun, ?_, hqueue, hdata⟩
  simpa [helloBlock, finishBlock, calls] using hout

/-- A client that has made one call, with one byte of data, has written no Finished block. -/
theorem client_encode_finish_not_written :
    let r := run (clientCall hmacSha1 sampleInfo) (freshClient false) [(sampleDraws, [1])]
    ¬ ∃ d before after, r.2.flatten = before ++ clientFinish hmacSha1 sampleInfo d ++ after := by
  intro r
  rintro ⟨d, before, after, h⟩
  have hhead : [0x14, 0x03, 0x03, 0x00, 0x01, 0x01] <+: clientFinish hmacSha1 sampleInfo d := by
    rw [clientFinish_eq, finishData, List.append_assoc]
    exact List.prefix_append _ _
  have hinfix : [0x14, 0x03, 0x03, 0x00, 0x01, 0x01] <:+: r.2.flatten := by
    rw [h]
    exact (hhead.isInfix).trans (List.infix_append _ _ _)
  have hnot : ¬ [0x14, 0x03, 0x03, 0x00, 0x01, 0x01] <:+: r.2.flatten := by decide +kernel
  exact hnot hinfix

end Tls12TicketAuth
end Obfs
end SsrNative
