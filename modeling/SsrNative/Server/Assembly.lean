import SsrNative.CipherPair
import SsrNative.Websocket
import SsrNative.Server.Pipeline

/-!
# Server assembly — websocket frames from a client over TLS

`extract_data_from_assembled_websocket_frame` collects what a client sends over TLS and decrypts the
payload of every complete frame.  It stops when the frame reader finds nothing, without asking why, and
it has no result for a failure: bytes that no frame starts with stay in the cache for good
(`assembly_iff`).
-/

namespace SsrNative
namespace Server

open Bytes
open Websocket
open Lib.Segments
open Lib.Delimited

/-- The pipeline of a tunnel over TLS: `config_ssrot_revision` has set `origin` and `plain`. -/
def overTlsEnv (recv send : CipherPair) : ServerEnv Unit Unit (recv.Receiver × send.Sender) where
  obfs := plainObfs
  protocol := none
  ivLen := 0
  ssEncrypt c buf :=
    let r := send.ssEncrypt c.2 buf
    ((c.1, r.1), r.2)
  ssDecrypt c buf :=
    let r := recv.ssDecrypt c.1 buf
    ((r.1, c.2), r.2)

/-- The part of `struct server_ctx` that the assembly of frames works on. -/
structure AssemblyCtx (κ : Type*) where
  cipher : TunnelCipher Unit Unit κ
  clientDeliveryCache : Bytes
  udpRelay : Bool
  udpRecvDeque : List (Option Bytes)

section Assembly

variable {recv send : CipherPair}

/-- `tunnel_cipher_server_decrypt` for a frame. -/
def decryptPayload (c : TunnelCipher Unit Unit (recv.Receiver × send.Sender)) (payload : Bytes) :
    TunnelCipher Unit Unit (recv.Receiver × send.Sender) × ServerDecrypted :=
  tunnelCipherServerDecrypt (overTlsEnv recv send) (fun _ => 0) c payload

/-- The loop over the complete frames; `buf` is what is returned. -/
def assembleLoop : ℕ → AssemblyCtx (recv.Receiver × send.Sender) → Bytes →
    AssemblyCtx (recv.Receiver × send.Sender) × Bytes
  | 0, ctx, buf => (ctx, buf)
  | fuel + 1, ctx, buf =>
      let cache := ctx.clientDeliveryCache
      match websocketRetrievePayload cache ⟨WS_OPCODE_BINARY, false, false, 0, 0, 0⟩ with
      | (none, _) => (ctx, buf)
      | (some payload, info) =>
          let r := decryptPayload ctx.cipher payload
          -- a failed decryption gives a null pointer, which the queue takes and `buf` does not feel
          let deque :=
            if ctx.udpRelay then ctx.udpRecvDeque ++ [r.2.ret] else ctx.udpRecvDeque
          let ctx := { ctx with
            cipher := r.1
            clientDeliveryCache := shortenedTo cache info.frameSize (subSize cache.length info.frameSize)
            udpRecvDeque := deque }
          assembleLoop fuel ctx (buf ++ r.2.ret.getD [])

/-- `extract_data_from_assembled_websocket_frame`; the buffer that it returns is never null. -/
def extractDataFromAssembledWebsocketFrame (ctx : AssemblyCtx (recv.Receiver × send.Sender))
    (src : Bytes) : AssemblyCtx (recv.Receiver × send.Sender) × Bytes :=
  let ctx := { ctx with clientDeliveryCache := ctx.clientDeliveryCache ++ src }
  assembleLoop (ctx.clientDeliveryCache.length + 1) ctx []

/-- What a read on the incoming socket leads to: the result of `tunnel_extract_data`, without which the
tunnel is shut down, and with a relay the entries of the queue, which `tunnel_udp_streaming` sends. -/
structure Extracted where
  buf : Option Bytes
  datagrams : List (Option Bytes)

/-- A read on the incoming socket while the tunnel is streaming. -/
def incomingRead (ctx : AssemblyCtx (recv.Receiver × send.Sender)) (src : Bytes) :
    AssemblyCtx (recv.Receiver × send.Sender) × Extracted :=
  let r := extractDataFromAssembledWebsocketFrame ctx src
  ({ r.1 with udpRecvDeque := [] }, ⟨some r.2, r.1.udpRecvDeque⟩)

/-! ## The frames of a stream -/

/-- What the server makes of a frame. -/
def takeFrame (c : TunnelCipher Unit Unit (recv.Receiver × send.Sender)) (frame : Bytes) :
    TunnelCipher Unit Unit (recv.Receiver × send.Sender) × Option Bytes :=
  let r := decryptPayload c (framePayload frame)
  (r.1, r.2.ret)

/-- Over TLS there is nothing to send back, and an empty payload is passed by. -/
theorem decryptPayload_eq (c : TunnelCipher Unit Unit (recv.Receiver × send.Sender))
    (payload : Bytes) :
    decryptPayload c payload =
      let q := if 0 < payload.length then recv.ssDecrypt c.cipher.1 payload
        else (c.cipher.1, some payload)
      ({ c with cipher := (q.1, c.cipher.2) }, ⟨q.2, none, none⟩) := by
  unfold decryptPayload tunnelCipherServerDecrypt
  by_cases hpos : 0 < payload.length
  · simp only [overTlsEnv, plainObfs, hpos, Bool.false_eq_true, if_false, and_true, if_true]
    cases hdec : (recv.ssDecrypt c.cipher.1 payload).2 with
    | none => rfl
    | some plain => rfl
  · simp only [overTlsEnv, plainObfs, hpos, Bool.false_eq_true, if_false, and_false]
    rfl

theorem assembleLoop_spec {fuel : ℕ} (ctx : AssemblyCtx (recv.Receiver × send.Sender))
    (hfuel : ctx.clientDeliveryCache.length < fuel) (buf : Bytes) :
    ∃ fs, wsFrames.Splits ctx.clientDeliveryCache fs
        (assembleLoop fuel ctx buf).1.clientDeliveryCache ∧
      (assembleLoop fuel ctx buf).1.cipher = (run takeFrame ctx.cipher fs).1 ∧
      (assembleLoop fuel ctx buf).1.udpRelay = ctx.udpRelay ∧
      (assembleLoop fuel ctx buf).1.udpRecvDeque = ctx.udpRecvDeque ++
        (if ctx.udpRelay then (run takeFrame ctx.cipher fs).2 else []) ∧
      (assembleLoop fuel ctx buf).2 = buf ++ delivered (run takeFrame ctx.cipher fs).2 := by
  -- on the fuel: every pass takes a frame off the cache, and every frame has a byte
  induction fuel generalizing ctx buf with
  | zero => omega
  | succ fuel ih =>
      rw [assembleLoop]
      cases hsize : wsFrames.size ctx.clientDeliveryCache with
      | none =>
          -- no complete frame at the front: the loop ends
          have hnone := retrieve_of_size_none hsize ⟨WS_OPCODE_BINARY, false, false, 0, 0, 0⟩
          generalize websocketRetrievePayload ctx.clientDeliveryCache _ = p at hnone
          obtain ⟨payload, info⟩ := p
          cases hnone
          exact ⟨[], Delimiter.Splits.nil hsize, rfl, rfl, by simp, by simp⟩
      | some n =>
          obtain ⟨hread, hlen⟩ := retrieve_of_size_some hsize ⟨WS_OPCODE_BINARY, false, false, 0, 0, 0⟩
          have hle := wsFrames.size_le hsize
          have hpos := wsFrames.size_pos hsize
          have hinfo : (frameInfo ctx.clientDeliveryCache).frameSize = n := hlen
          rw [hread]
          dsimp only
          rw [hinfo, shortenedTo_drop hle]
          generalize hctx : ({ ctx with
            cipher := (decryptPayload ctx.cipher (framePayload (ctx.clientDeliveryCache.take n))).1
            clientDeliveryCache := ctx.clientDeliveryCache.drop n
            udpRecvDeque := if ctx.udpRelay = true then ctx.udpRecvDeque ++
              [(decryptPayload ctx.cipher (framePayload (ctx.clientDeliveryCache.take n))).2.ret]
              else ctx.udpRecvDeque } : AssemblyCtx (recv.Receiver × send.Sender)) = ctx'
          -- what one pass does to each of the four fields
          have hcache : ctx'.clientDeliveryCache = ctx.clientDeliveryCache.drop n := by rw [← hctx]
          have hcipher : ctx'.cipher =
              (takeFrame ctx.cipher (ctx.clientDeliveryCache.take n)).1 := by rw [← hctx]; rfl
          have hrelay : ctx'.udpRelay = ctx.udpRelay := by rw [← hctx]
          have hdeque : ctx'.udpRecvDeque = if ctx.udpRelay = true then ctx.udpRecvDeque ++
              [(takeFrame ctx.cipher (ctx.clientDeliveryCache.take n)).2] else ctx.udpRecvDeque := by
            rw [← hctx]
            rfl
          obtain ⟨fs, hsplit, hc, hr, hd, hb⟩ := ih ctx'
            (by rw [hcache, List.length_drop]; omega)
            (buf ++ (takeFrame ctx.cipher (ctx.clientDeliveryCache.take n)).2.getD [])
          rw [hcache] at hsplit
          rw [hcipher] at hc hb hd
          refine ⟨ctx.clientDeliveryCache.take n :: fs, Delimiter.Splits.cons hsize hsplit, hc,
            hr.trans hrelay, ?_, ?_⟩
          · refine hd.trans ?_
            rw [hdeque, hrelay, run_cons]
            by_cases hudp : ctx.udpRelay = true
            · rw [if_pos hudp, if_pos hudp, if_pos hudp, List.append_assoc, List.singleton_append]
            · rw [if_neg hudp, if_neg hudp, if_neg hudp]
          · rw [run_cons, delivered_cons, ← List.append_assoc]
            exact hb

/-- Between two reads. -/
structure Idle (udp : Bool) (ctx : AssemblyCtx (recv.Receiver × send.Sender)) : Prop where
  udpRelay : ctx.udpRelay = udp
  udpRecvDeque : ctx.udpRecvDeque = []

/-- The results of the frames of a read, and what the read leads to. -/
def Yields (udp : Bool) (rs : List (Option Bytes)) (o : Extracted) : Prop :=
  o.buf = some (delivered rs) ∧ o.datagrams = if udp then rs else []

theorem incomingRead_receives (udp : Bool) :
    Delimiter.Receives wsFrames (Idle udp) (fun _ => True) (@incomingRead recv send)
      AssemblyCtx.clientDeliveryCache AssemblyCtx.cipher takeFrame (Yields udp) where
  next ctx src fs rest h hsplit _ := by
    obtain ⟨cipher, cache, relay, deque⟩ := ctx
    obtain ⟨rfl, rfl⟩ := h
    obtain ⟨gs, hgs, hc, hr, hd, hb⟩ := assembleLoop_spec
      (⟨cipher, cache ++ src, relay, []⟩ : AssemblyCtx (recv.Receiver × send.Sender))
      (Nat.lt_succ_self _) []
    obtain ⟨rfl, rfl⟩ := hsplit.unique hgs
    rw [List.nil_append] at hd hb
    exact ⟨⟨hr, rfl⟩, rfl, hc.symm, congrArg some hb, hd⟩

/-! ## What arrives -/

/-- The frames that a client sends: each payload is encrypted and put into a frame with a mask. -/
def sentFrames : recv.Sender → List ((ℕ → UInt8) × Bytes) → List Bytes
  | _, [] => []
  | s, p :: ps =>
      let r := recv.ssEncrypt s p.2
      clientFrame p.1 (r.2.getD []) :: sentFrames r.1 ps

/-- The payloads can be encrypted, and come to less than four gigabytes each. -/
def Sendable : recv.Sender → List ((ℕ → UInt8) × Bytes) → Prop
  | _, [] => True
  | s, p :: ps =>
      recv.Fits p.2 ∧ ((recv.ssEncrypt s p.2).2.getD []).length < 4294967296 ∧
        Sendable (recv.ssEncrypt s p.2).1 ps

/-- The server reads a client's frames one by one. -/
theorem run_takeFrame {s : recv.Sender} {c : TunnelCipher Unit Unit (recv.Receiver × send.Sender)}
    {ps : List ((ℕ → UInt8) × Bytes)} (hsync : recv.Synced s c.cipher.1) (hsend : Sendable s ps) :
    (∀ f ∈ sentFrames s ps, WellFormed f) ∧
      (run takeFrame c (sentFrames s ps)).2 = ps.map fun p => some p.2 := by
  induction ps generalizing s c with
  | nil => exact ⟨by simp [sentFrames], rfl⟩
  | cons p ps ih =>
      obtain ⟨hfits, hlen, hrest⟩ := hsend
      obtain ⟨out, henc, hdec, hsync'⟩ := recv.decrypt_encrypt hsync hfits
      rw [henc, Option.getD_some] at hlen
      obtain ⟨hform, hpayload⟩ := clientFrame_spec p.1 hlen
      have htake : takeFrame c (clientFrame p.1 out) =
          ({ c with cipher := ((if 0 < out.length then recv.ssDecrypt c.cipher.1 out
            else (c.cipher.1, some out)).1, c.cipher.2) }, some p.2) := by
        rw [takeFrame, hpayload, decryptPayload_eq]
        dsimp only
        rw [hdec]
      have hnext := ih (c := (takeFrame c (clientFrame p.1 out)).1) (by rw [htake]; exact hsync') hrest
      rw [sentFrames, henc, Option.getD_some]
      constructor
      · intro f hf
        rcases List.mem_cons.1 hf with rfl | hf
        · exact hform
        · exact hnext.1 f hf
      · rw [run_cons, hnext.2, htake, List.map_cons]

/-- Every frame can be decrypted. -/
def Decrypts (c : TunnelCipher Unit Unit (recv.Receiver × send.Sender)) (fs : List Bytes) : Prop :=
  ∀ o ∈ (run takeFrame c fs).2, o ≠ none

/-- A stream of frames that can be decrypted, with at most the beginning of one behind them. -/
def Intact (c : TunnelCipher Unit Unit (recv.Receiver × send.Sender)) (stream : Bytes) : Prop :=
  ∃ fs rest, stream = fs.flatten ++ rest ∧ (∀ f ∈ fs, WellFormed f) ∧ Begins rest ∧ Decrypts c fs

/-- Behind some reads: a failure was reported, or the bytes left over wait for the rest of a frame and
every frame in front of them was decrypted. -/
def Handled (udp : Bool) (c : TunnelCipher Unit Unit (recv.Receiver × send.Sender))
    (chunks : List Bytes) : Prop :=
  let r := run incomingRead ⟨c, [], udp, []⟩ chunks
  (∃ o ∈ r.2, o.buf = none) ∨
    Begins r.1.clientDeliveryCache ∧
      ∃ fs, wsFrames.Splits chunks.flatten fs r.1.clientDeliveryCache ∧ Decrypts c fs

section Reads

variable {udp : Bool} {c : TunnelCipher Unit Unit (recv.Receiver × send.Sender)}

theorem incomingRead_run (udp : Bool) (c : TunnelCipher Unit Unit (recv.Receiver × send.Sender))
    (chunks : List Bytes) :
    ∃ fs rss,
      wsFrames.Splits chunks.flatten fs (run incomingRead ⟨c, [], udp, []⟩ chunks).1.clientDeliveryCache ∧
      (run takeFrame c fs).2 = rss.flatten ∧
      List.Forall₂ (Yields udp) rss (run incomingRead ⟨c, [], udp, []⟩ chunks).2 := by
  obtain ⟨fs, rest, hsplit⟩ := Delimiter.exists_splits (D := wsFrames) chunks.flatten
  obtain ⟨rss, -, hcarry, hrun, hall⟩ := (@incomingRead_receives recv send udp).run_splits
    (s := ⟨c, [], udp, []⟩) ⟨rfl, rfl⟩ Delimiter.size_nil hsplit fun _ _ => trivial
  refine ⟨fs, rss, ?_, congrArg Prod.snd hrun, hall⟩
  rw [hcarry]
  exact hsplit

theorem yields_collect {rss : List (List (Option Bytes))} {outs : List Extracted}
    (h : List.Forall₂ (Yields udp) rss outs) :
    (∀ o ∈ outs, o.buf ≠ none) ∧ delivered (outs.map Extracted.buf) = delivered rss.flatten ∧
      outs.flatMap Extracted.datagrams = if udp then rss.flatten else [] := by
  induction h with
  | nil =>
      refine ⟨by simp, rfl, ?_⟩
      cases udp <;> rfl
  | @cons rs o rss outs hout _ ih =>
      obtain ⟨hbuf, hdatagrams⟩ := hout
      obtain ⟨hsome, hcat, hall⟩ := ih
      refine ⟨?_, ?_, ?_⟩
      · intro o' ho'
        rcases List.mem_cons.1 ho' with rfl | ho'
        · rw [hbuf]
          exact Option.some_ne_none _
        · exact hsome o' ho'
      · rw [List.map_cons, delivered_cons, hcat, hbuf, List.flatten_cons, delivered_append]
        rfl
      · rw [List.flatMap_cons, hall, hdatagrams, List.flatten_cons]
        cases udp <;> simp

/-- No read reports a failure. -/
theorem handled_iff (udp : Bool) (c : TunnelCipher Unit Unit (recv.Receiver × send.Sender))
    (chunks : List Bytes) : Handled udp c chunks ↔ Intact c chunks.flatten := by
  obtain ⟨fs, rss, hsplit, -, hall⟩ := incomingRead_run udp c chunks
  have hsome := (yields_collect hall).1
  unfold Handled Intact
  constructor
  · rintro (⟨o, ho, hnone⟩ | ⟨hbegins, gs, hgs, hdec⟩)
    · exact absurd hnone (hsome o ho)
    · exact ⟨gs, _, hgs.eq, fun f hf => (isFrame_iff f).1 (hgs.frames f hf), hbegins, hdec⟩
  · rintro ⟨gs, rest, hcat, hform, hbegins, hdec⟩
    have hgs : wsFrames.Splits chunks.flatten gs rest :=
      ⟨hcat, fun f hf => (isFrame_iff f).2 (hform f hf), hbegins.size_none⟩
    obtain ⟨rfl, hrest⟩ := hsplit.unique hgs
    dsimp only
    rw [hrest]
    exact .inr ⟨hbegins, fs, hgs, hdec⟩

end Reads

/-- A client's frames come through however they are cut: what is returned is the plain text, the relay
gets one datagram a frame, and nothing is left over.  Of any other stream the reads are right as long
as it is intact; nothing else is ever reported. -/
theorem assembly_iff (recv send : CipherPair) (udp : Bool) (s : recv.Sender)
    (c : TunnelCipher Unit Unit (recv.Receiver × send.Sender)) (ps : List ((ℕ → UInt8) × Bytes))
    (chunks stream : List Bytes) (hsync : recv.Synced s c.cipher.1) (hsend : Sendable s ps)
    (hcut : chunks.flatten = (sentFrames s ps).flatten) :
    (delivered ((run incomingRead ⟨c, [], udp, []⟩ chunks).2.map Extracted.buf) =
          (ps.map Prod.snd).flatten ∧
        (run incomingRead ⟨c, [], udp, []⟩ chunks).2.flatMap Extracted.datagrams =
          (if udp then ps.map fun p => some p.2 else []) ∧
        (run incomingRead ⟨c, [], udp, []⟩ chunks).1.clientDeliveryCache = []) ∧
      (Handled udp c stream ↔ Intact c stream.flatten) := by
  refine ⟨?_, handled_iff udp c stream⟩
  obtain ⟨fs, rss, hsplit, hrun, hall⟩ := incomingRead_run udp c chunks
  obtain ⟨hform, htake⟩ := run_takeFrame hsync hsend
  have hframes := Delimiter.Splits.of_frames (D := wsFrames) fun f hf => (isFrame_iff f).2 (hform f hf)
  rw [hcut] at hsplit
  obtain ⟨rfl, hcache⟩ := hsplit.unique hframes
  obtain ⟨-, hcat, hdatagrams⟩ := yields_collect hall
  rw [htake] at hrun
  refine ⟨?_, ?_, hcache⟩
  · rw [hcat, ← hrun]
    exact delivered_map_some Prod.snd ps
  · rw [hdatagrams, ← hrun]

end Assembly

/-! ## Two streams -/

/-- rc4-md5 with a short key. -/
def samplePair : CipherPair := streamPair (rc4Md5 [1, 2, 3]) (by decide) (List.replicate 16 7) rfl

def freshCipher : TunnelCipher Unit Unit (samplePair.Receiver × samplePair.Sender) :=
  ⟨(), (), ((([] : IvCache), (⟨none⟩ : EncCtx (rc4Md5 [1, 2, 3]))), (⟨none⟩ : EncCtx (rc4Md5 [1, 2, 3]))),
    RecvIv.zeroed⟩

def freshSender : samplePair.Sender := (⟨none⟩ : EncCtx (rc4Md5 [1, 2, 3]))

def samplePayloads : List ((ℕ → UInt8) × Bytes) := [(fun _ => 9, [1, 2, 3]), (fun _ => 5, [4])]

theorem samplePayloads_sendable : Sendable freshSender samplePayloads := by
  refine ⟨trivial, ?_, trivial, ?_, trivial⟩
  · have hlen : ((samplePair.ssEncrypt freshSender [1, 2, 3]).2.getD []).length = 16 + 3 := by
      simp [samplePair, streamPair, freshSender, ssEncrypt, run_snd_length]
    exact lt_of_eq_of_lt hlen (by decide)
  · have hlen : ((samplePair.ssEncrypt (samplePair.ssEncrypt freshSender [1, 2, 3]).1
        [4]).2.getD []).length = 1 := by
      simp [samplePair, streamPair, freshSender, ssEncrypt, run_snd_length]
    exact lt_of_eq_of_lt hlen (by decide)

/-- Two frames, cut inside the header of the first and joined behind it. -/
theorem assembly_iff_sample :
    delivered ((run incomingRead ⟨freshCipher, [], true, []⟩
      [(sentFrames freshSender samplePayloads).flatten.take 1,
        (sentFrames freshSender samplePayloads).flatten.drop 1]).2.map Extracted.buf) =
      [1, 2, 3, 4] := by
  have hcut : [(sentFrames freshSender samplePayloads).flatten.take 1,
      (sentFrames freshSender samplePayloads).flatten.drop 1].flatten =
      (sentFrames freshSender samplePayloads).flatten := by
    rw [List.flatten_cons, List.flatten_cons, List.flatten_nil, List.append_nil, List.take_append_drop]
  have hfresh : IvFresh (rc4Md5 [1, 2, 3]) [] (List.replicate 16 7) := fun _ => List.not_mem_nil
  have h := assembly_iff samplePair samplePair true freshSender freshCipher samplePayloads _ []
    (.inl ⟨rfl, rfl, hfresh⟩) samplePayloads_sendable hcut
  exact h.1.1

/-- A frame with a reserved bit: it stays in the cache, and the server is given an empty buffer. -/
theorem reserved_bit_not_reported : ¬ Handled false freshCipher [[0xC2, 0x80, 0, 0, 0, 0]] := by
  rw [handled_iff]
  rintro ⟨fs, rest, hcat, hform, hbegins, -⟩
  cases fs with
  | nil =>
      rw [List.flatten_nil, List.nil_append] at hcat
      subst hcat
      exact ((begins_iff _).1 hbegins).1 (by decide)
  | cons f fs =>
      have hbad : Malformed [0xC2, 0x80, 0, 0, 0, 0] := by decide
      have hsize : wsFrames.size [0xC2, 0x80, 0, 0, 0, 0] = none := by
        rw [wsFrames_size, if_pos (Or.inl hbad)]
      have hframe := ((isFrame_iff f).2 (hform f List.mem_cons_self)).size_append (fs.flatten ++ rest)
      rw [← List.append_assoc, ← List.flatten_cons, ← hcat] at hframe
      exact absurd (hsize.symm.trans hframe) (by simp)

end Server
end SsrNative
