import SsrNative.Client.Dispatcher
import SsrNative.Obfs.Tls12Stream

/-!
# Pipeline — the layers of the client's cipher

`tunnel_cipher_client_encrypt` and `tunnel_cipher_client_decrypt` of `ssr_executive.c` put a
protocol, a cipher and an obfuscation one behind the other.  The protocol and the cipher are
parameters here, and so is an obfuscation that never answers by itself (`Inner`); tls1.2_ticket, which
queues what is sent until the server has answered, is the model of `Obfs.Tls12Ticket`.

After the module's first call the queue holds what was sent (`Greeted`), and when the server's answer
was accepted everything is on the wire (`Established`).
-/

namespace SsrNative
namespace Client

open Lib.Framing
open Lib.Segments
open Obfs.Tls12TicketAuth

/-! ## The layers -/

/-- A protocol and a cipher.  What is sent does not depend on what was received. -/
structure Inner (α β : Type*) where
  create : Bytes → α × β
  encrypt : α → Bytes → α × Option Bytes
  decrypt : α → β → Bytes → β × Option Bytes
  needFeedback : Bool

/-- A tls1.2_ticket plugin, with the random choices of its calls. -/
structure Tls where
  mac : Mac 20
  info : ServerInfo
  fastauth : Bool
  draws : ℕ → ClientDraws

structure Pipeline (α β : Type*) where
  inner : Inner α β
  tls : Option Tls

/-- `struct tunnel_cipher_ctx`; `encodes` counts the calls of `client_encode`. -/
structure PipelineState (α β : Type*) where
  sendHalf : α
  recvHalf : β
  obfs : LocalData
  encodes : ℕ

namespace Pipeline

variable {α β : Type*} (p : Pipeline α β)

def create (targetAddress : Bytes) : PipelineState α β where
  sendHalf := (p.inner.create targetAddress).1
  recvHalf := (p.inner.create targetAddress).2
  obfs := freshClient (p.tls.elim false Tls.fastauth)
  encodes := 0

/-- `client_encode` of the obfuscation. -/
def obfsEncode (s : PipelineState α β) (buf : Bytes) : PipelineState α β × Bytes :=
  match p.tls with
  | none => (s, buf)
  | some o =>
      let r := clientEncode o.mac o.info (o.draws s.encodes) s.obfs buf
      ({ s with obfs := r.1, encodes := s.encodes + 1 }, r.2)

/-- `tunnel_cipher_client_encrypt`. -/
def clientEncrypt (s : PipelineState α β) (buf : Bytes) : PipelineState α β × Option Bytes :=
  let r := p.inner.encrypt s.sendHalf buf
  let s := { s with sendHalf := r.1 }
  match r.2 with
  | none => (s, none)
  | some out =>
      let q := p.obfsEncode s out
      (q.1, some q.2)

/-- The cipher and the protocol of `tunnel_cipher_client_decrypt`. -/
def decryptInner (s : PipelineState α β) (buf : Bytes) (feedback : Option Bytes) :
    PipelineState α β × Decrypted :=
  let r := p.inner.decrypt s.sendHalf s.recvHalf buf
  ({ s with recvHalf := r.1 }, ⟨r.2, feedback⟩)

/-- `tunnel_cipher_client_decrypt`. -/
def clientDecrypt (s : PipelineState α β) (buf : Bytes) : PipelineState α β × Decrypted :=
  match p.tls with
  | none => p.decryptInner s buf none
  | some o =>
      let r := clientDecode o.mac o.info s.obfs buf
      let s := { s with obfs := r.1 }
      match r.2.1 with
      | none => (s, ⟨none, none⟩)
      | some out =>
          if r.2.2 = true then
            let q := p.obfsEncode s []
            p.decryptInner q.1 out (some q.2)
          else p.decryptInner s out none

/-- The pipeline as the dispatcher sees it. -/
def cipher : Cipher (PipelineState α β) where
  create := p.create
  needFeedback _ := p.inner.needFeedback || p.tls.isSome
  encrypt := p.clientEncrypt
  decrypt := p.clientDecrypt

/-! ## What was sent -/

/-- The record that an input makes while the handshake lasts. -/
def queued (sealed : Bytes) : List Bytes := if sealed = [] then [] else [sealed]

/-- Behind the first call: `written` has gone out, and the rest of `sealed` is in the queue. -/
def Greeted (sealed : Bytes) (s : PipelineState α β) (written : Bytes) : Prop :=
  match p.tls with
  | none => written = sealed
  | some o =>
      s.obfs = clientAt o.fastauth 1 ((queued sealed).map packData) ∧ s.encodes = 1 ∧
        written = clientHello o.mac o.info (o.draws 0)

/-- Behind the answer of the server: everything has gone out, and nothing is queued. -/
def Established (sealed : Bytes) (s : PipelineState α β) (written : Bytes) : Prop :=
  match p.tls with
  | none => written = sealed
  | some o =>
      HasBit 4 s.obfs ∧ HasBit 8 s.obfs ∧ s.obfs.dataSentBuffer = [] ∧
        ∃ sent : List Bytes, sent.flatten = sealed ∧
          written = clientHello o.mac o.info (o.draws 0) ++ clientFinish o.mac o.info (o.draws 1) ++
            recordStream sent

/-- `inputs` were all sealed, one after the other, and together gave `out`. -/
structure Sealed (targetAddress : Bytes) (inputs : List Bytes) (s : PipelineState α β)
    (out : Bytes) : Prop where
  sendHalf_eq : s.sendHalf = (run p.inner.encrypt (p.inner.create targetAddress).1 inputs).1
  ok : ∀ o ∈ (run p.inner.encrypt (p.inner.create targetAddress).1 inputs).2, o ≠ none
  out_eq : delivered (run p.inner.encrypt (p.inner.create targetAddress).1 inputs).2 = out

/-- The beginning of a record. -/
def Unfinished (rest : Bytes) : Prop := ∃ piece l, Fits piece ∧ l ≠ [] ∧ rest ++ l = packData piece

/-- What the client can make something of in its feedback stage: the whole answer of the server and
nothing for the application.  Without tls1.2_ticket the answer is what decrypts to nothing. -/
def WholeAnswer (s : PipelineState α β) (data : Bytes) : Prop :=
  match p.tls with
  | none => (p.inner.decrypt s.sendHalf s.recvHalf data).2 = some []
  | some o => ∃ (d : ServerDraws) (pieces : List Bytes) (rest : Bytes),
      data = serverHello o.mac o.info o.info.gData.localClientId d ++ (recordStream pieces ++ rest) ∧
        (∀ piece ∈ pieces, Fits piece) ∧ Unfinished rest ∧
        (p.inner.decrypt s.sendHalf s.recvHalf pieces.flatten).2 = some []

section Sending

variable {p} {targetAddress : Bytes} {inputs : List Bytes} {s : PipelineState α β}
  {sealed written : Bytes}

theorem Sealed.nil (targetAddress : Bytes) :
    p.Sealed targetAddress [] (p.create targetAddress) [] :=
  ⟨rfl, by simp, rfl⟩

/-- One more input. -/
theorem Sealed.snoc (h : p.Sealed targetAddress inputs s sealed) {buf out : Bytes}
    (hout : (p.inner.encrypt s.sendHalf buf).2 = some out) {s' : PipelineState α β}
    (hs' : s'.sendHalf = (p.inner.encrypt s.sendHalf buf).1) :
    p.Sealed targetAddress (inputs ++ [buf]) s' (sealed ++ out) := by
  obtain ⟨hhalf, hok, hinnered⟩ := h
  rw [hhalf] at hout hs'
  refine ⟨?_, ?_, ?_⟩
  · rw [run_append, hs']
    rfl
  · intro o ho
    rw [run_append, List.mem_append] at ho
    rcases ho with ho | ho
    · exact hok o ho
    · rw [run_cons, run_nil, List.mem_singleton] at ho
      rw [ho, hout]
      exact Option.some_ne_none out
  · simp only [run_append, delivered, List.flatMap_append] at hinnered ⊢
    rw [hinnered]
    simp [run_cons, hout]

theorem Sealed.of_sendHalf (h : p.Sealed targetAddress inputs s sealed) {s' : PipelineState α β}
    (hs' : s'.sendHalf = s.sendHalf) : p.Sealed targetAddress inputs s' sealed :=
  ⟨hs'.trans h.sendHalf_eq, h.ok, h.out_eq⟩

/-- What `tunnel_cipher_client_encrypt` does when it succeeds. -/
theorem clientEncrypt_some {buf out : Bytes} (h : (p.clientEncrypt s buf).2 = some out) :
    ∃ sealed', (p.inner.encrypt s.sendHalf buf).2 = some sealed' ∧
      (p.obfsEncode { s with sendHalf := (p.inner.encrypt s.sendHalf buf).1 } sealed').2 = out ∧
      (p.clientEncrypt s buf).1 =
        (p.obfsEncode { s with sendHalf := (p.inner.encrypt s.sendHalf buf).1 } sealed').1 := by
  unfold clientEncrypt at h ⊢
  cases hinner : (p.inner.encrypt s.sendHalf buf).2 with
  | none => simp [hinner] at h
  | some sealed' =>
      simp only [hinner, Option.some.injEq] at h ⊢
      exact ⟨sealed', rfl, h, rfl⟩

theorem obfsEncode_halves (s : PipelineState α β) (buf : Bytes) :
    (p.obfsEncode s buf).1.sendHalf = s.sendHalf ∧ (p.obfsEncode s buf).1.recvHalf = s.recvHalf := by
  unfold obfsEncode
  cases p.tls with
  | none => exact ⟨rfl, rfl⟩
  | some o => exact ⟨rfl, rfl⟩

/-- The first call. -/
theorem obfsEncode_fresh (a : α) (buf : Bytes) :
    p.Greeted buf (p.obfsEncode { p.create targetAddress with sendHalf := a } buf).1
      (p.obfsEncode { p.create targetAddress with sendHalf := a } buf).2 := by
  unfold Greeted obfsEncode create
  cases htls : p.tls with
  | none => rfl
  | some o =>
      dsimp only
      have hcall : clientEncode o.mac o.info (o.draws 0) (freshClient o.fastauth) buf =
          (clientAt o.fastauth 1 ((queued buf).map packData), clientHello o.mac o.info (o.draws 0)) := by
        by_cases hbuf : buf = []
        · simp [clientEncode, freshClient, clientAt, localDataInit, queued, hbuf]
        · have hpos : 0 < buf.length := List.length_pos_iff.2 hbuf
          simp [clientEncode, freshClient, clientAt, localDataInit, queued, hbuf, hpos]
      rw [Option.elim_some, hcall]
      exact ⟨rfl, rfl, rfl⟩

/-- A call behind the answer of the server. -/
theorem Established.encode (h : p.Established sealed s written) (a : α) (buf : Bytes) :
    p.Established (sealed ++ buf) (p.obfsEncode { s with sendHalf := a } buf).1
      (written ++ (p.obfsEncode { s with sendHalf := a } buf).2) := by
  unfold Established at h ⊢
  unfold obfsEncode
  cases htls : p.tls with
  | none =>
      rw [htls] at h
      exact congrArg (· ++ buf) h
  | some o =>
      rw [htls] at h
      obtain ⟨h4, h8, hqueue, sent, hsent, hwritten⟩ := h
      have hcall : clientEncode o.mac o.info (o.draws s.encodes) s.obfs buf =
          (s.obfs, recordStream (clientPieces s.obfs.sendId (o.draws s.encodes).split buf)) :=
        clientCall_established o.mac o.info h4 (o.draws s.encodes, buf)
      dsimp only
      rw [hcall]
      refine ⟨h4, h8, hqueue, sent ++ clientPieces s.obfs.sendId (o.draws s.encodes).split buf, ?_, ?_⟩
      · rw [List.flatten_append, hsent, clientPieces_flatten]
      · rw [hwritten, recordStream_append]
        simp only [List.append_assoc]

end Sending

/-! ## The answer of the server -/

section Answer

variable {p} {s : PipelineState α β} {sealed written data : Bytes}

/-- The record loop takes the complete records and keeps the rest. -/
theorem drain_records {pieces : List Bytes} {rest : Bytes} (hfit : ∀ piece ∈ pieces, Fits piece)
    (hrest : Unfinished rest) {fuel : ℕ} (hfuel : pieces.length < fuel) (acc : Bytes) :
    drain clientRecordStep fuel () (recordStream pieces ++ rest) acc =
      ⟨(), rest, acc ++ pieces.flatten, none⟩ := by
  induction pieces generalizing fuel acc with
  | nil =>
      obtain ⟨piece, l, hpiece, hl, hcat⟩ := hrest
      obtain ⟨n, rfl⟩ : ∃ n, fuel = n + 1 := ⟨fuel - 1, by simp at hfuel; omega⟩
      have hwait := clientRecordStep_recordLoop.wait piece rest l hpiece hcat hl
      rw [recordStream_nil, List.nil_append, drain_more hwait]
      simp
  | cons piece pieces ih =>
      obtain ⟨n, rfl⟩ : ∃ n, fuel = n + 1 := ⟨fuel - 1, by simp at hfuel; omega⟩
      have hfull := clientRecordStep_recordLoop.full piece (recordStream pieces ++ rest)
        (hfit piece (by simp))
      rw [recordStream_cons, List.append_assoc, drain_took hfull,
        List.drop_left' (packData_length piece)]
      rw [ih (fun x hx => hfit x (List.mem_cons_of_mem _ hx)) (by simpa using hfuel)]
      simp

theorem length_le_recordStream (pieces : List Bytes) :
    pieces.length ≤ (recordStream pieces).length := by
  induction pieces with
  | nil => exact Nat.le_refl 0
  | cons piece pieces ih =>
      rw [recordStream_cons, List.length_append, packData_length, List.length_cons]
      omega

/-- The call that sends the Finished block, and everything that was queued. -/
theorem clientEncode_flush (H : Mac 20) (info : ServerInfo) (d : ClientDraws) {l : LocalData}
    (hl : l.handshakeStatus = 9) :
    clientEncode H info d l [] =
      ({ l with handshakeStatus := 15, dataSentBuffer := [] },
        clientFinish H info d ++ l.dataSentBuffer.flatten) := by
  simp [clientEncode, hl]

/-- What the decoder makes of the whole answer: the complete records behind it, or nothing when the
tag happens to be right over all of them. -/
theorem clientDecode_answer (o : Tls) {l : LocalData} (hl : AwaitsHello l []) {d : ServerDraws}
    {pieces : List Bytes} {rest : Bytes} (hfit : ∀ piece ∈ pieces, Fits piece)
    (hrest : Unfinished rest)
    (hdata : data =
      serverHello o.mac o.info o.info.gData.localClientId d ++ (recordStream pieces ++ rest)) :
    ∃ recv out, (out = [] ∨ out = pieces.flatten) ∧
      clientDecode o.mac o.info l data = (helloSeen l recv, some out, true) := by
  have hge := serverHello_length_ge o.mac o.info o.info.gData.localClientId (by simp) d
  have hcat : [] ++ data =
      serverHello o.mac o.info o.info.gData.localClientId d ++ (recordStream pieces ++ rest) := hdata
  have hlen : data.length = _ := congrArg List.length hdata
  rw [List.length_append] at hlen
  by_cases htag : TagAt o.mac o.info ([] ++ data) ([] ++ data).length
  · have hcat' : ([] ++ data) ++ [] = _ := (List.append_nil _).trans hcat
    have hcall := clientDecode_tag hl hcat' (by rw [List.nil_append]; omega) htag
    exact ⟨[], [], Or.inl rfl, hcall⟩
  · have hhead : recordStream pieces ++ rest = [] ∨
        (recordStream pieces ++ rest).head? = some 0x17 := by
      obtain ⟨piece, l', -, -, hpiece⟩ := hrest
      have hstart : (recordStream pieces ++ rest) ++ l' = recordStream (pieces ++ [piece]) := by
        rw [recordStream_append, recordStream_cons, recordStream_nil, List.append_nil,
          List.append_assoc, hpiece]
      exact head_recordStream hstart
    have hcall := clientDecode_complete hl hcat hhead fun _ => htag
    have hfuel : pieces.length < (recordStream pieces ++ rest).length + 1 := by
      have hle := length_le_recordStream pieces
      rw [List.length_append]
      omega
    have hloop := drain_records hfit hrest hfuel []
    refine ⟨rest, pieces.flatten, Or.inr rfl, ?_⟩
    rw [hcall]
    simp only [clientDecodeStreaming, helloSeen, feed, List.append_nil, hloop, List.nil_append,
      if_true]

/-- The answer of the server: it is read without an error and without data, and what is sent in
return empties the queue. -/
theorem Greeted.answer (h : p.Greeted sealed s written)
    (hnil : (p.inner.decrypt s.sendHalf s.recvHalf []).2 = some []) (hwhole : p.WholeAnswer s data) :
    (p.clientDecrypt s data).2.buf = some [] ∧
      (p.clientDecrypt s data).1.sendHalf = s.sendHalf ∧
      p.Established sealed (p.clientDecrypt s data).1
        (written ++ (p.clientDecrypt s data).2.feedback.getD []) := by
  unfold Greeted at h
  unfold WholeAnswer at hwhole
  unfold Established clientDecrypt
  -- without TLS nothing was held back; with it the answer releases what was queued
  cases htls : p.tls with
  | none =>
      rw [htls] at h hwhole
      refine ⟨hwhole, rfl, ?_⟩
      change written ++ [] = sealed
      rw [List.append_nil, h]
  | some o =>
      rw [htls] at h hwhole
      obtain ⟨hobfs, hencodes, hwritten⟩ := h
      obtain ⟨d, pieces, rest, hdata, hfit, hrest, hplain⟩ := hwhole
      have hl : AwaitsHello s.obfs [] := by
        have hbit : (1 : BitVec 32) &&& 8 = 0 := by decide
        rw [hobfs]
        exact ⟨hbit, rfl⟩
      obtain ⟨recv, out, hout, hdecode⟩ := clientDecode_answer o hl hfit hrest hdata
      have hstatus : (helloSeen s.obfs recv).handshakeStatus = 9 := by
        have hor : (1 : BitVec 32) ||| 8 = 9 := by decide
        rw [hobfs]
        exact hor
      -- the hello may bring no payload yet, or all of a silent one
      have hempty : (p.inner.decrypt s.sendHalf s.recvHalf out).2 = some [] := by
        rcases hout with rfl | rfl
        · exact hnil
        · exact hplain
      have hqueue : (helloSeen s.obfs recv).dataSentBuffer = (queued sealed).map packData := by
        rw [hobfs]
        rfl
      dsimp only
      rw [hdecode]
      simp only [if_true, obfsEncode, htls, decryptInner, hencodes,
        clientEncode_flush o.mac o.info (o.draws 1) hstatus, Option.getD_some]
      have h4 : (15 : BitVec 32) ≠ -1 ∧ (15 : BitVec 32) &&& 4 = 4 := by decide
      have h8 : (15 : BitVec 32) ≠ -1 ∧ (15 : BitVec 32) &&& 8 = 8 := by decide
      refine ⟨hempty, trivial, h4, h8, trivial, queued sealed, ?_, ?_⟩
      · unfold queued
        split_ifs with hs
        · exact hs.symm
        · simp
      · rw [hwritten, hqueue, List.append_assoc]
        rfl

/-- While the connection is established the decoder only looks at the data. -/
theorem Established.decrypt (h : p.Established sealed s written) (data : Bytes) :
    (p.clientDecrypt s data).2.feedback = none ∧
      (p.clientDecrypt s data).1.sendHalf = s.sendHalf ∧
      p.Established sealed (p.clientDecrypt s data).1 written := by
  unfold Established at h ⊢
  unfold clientDecrypt
  cases htls : p.tls with
  | none =>
      rw [htls] at h
      exact ⟨rfl, rfl, h⟩
  | some o =>
      rw [htls] at h
      obtain ⟨h4, h8, hqueue, hsent⟩ := h
      have hcall : clientDecode o.mac o.info s.obfs data =
          ((clientDecodeStreaming s.obfs data).1, (clientDecodeStreaming s.obfs data).2, false) := by
        simp only [clientDecode, h8.2, if_true]
      dsimp only
      rw [hcall]
      cases (clientDecodeStreaming s.obfs data).2 with
      | none => exact ⟨rfl, rfl, h4, h8, hqueue, hsent⟩
      | some out => exact ⟨rfl, rfl, h4, h8, hqueue, hsent⟩

end Answer

end Pipeline

end Client
end SsrNative
