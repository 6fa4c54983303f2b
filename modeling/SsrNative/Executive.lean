import SsrNative.Encrypt
import SsrNative.Obfs.Tls12Server
import SsrNative.Obfs.Tls12Records

/-!
# Executive — the cipher pipeline of a tunnel

`ssr_executive.c` chains protocol plugin, cipher and obfuscation.  Modelled here is the pipeline
with the tls1.2_ticket obfuscation, a stream cipher and the protocol `origin`, which has no plugin.
-/

namespace SsrNative

open Bytes
open Lib.Segments
open Obfs.Tls12TicketAuth

/-- `struct tunnel_cipher_ctx` with the parts of its environment that calls change. -/
structure TunnelCipherCtx (C : StreamCipher) where
  obfs : LocalData
  eCtx : EncCtx C
  dCtx : EncCtx C
  ivCache : IvCache

/-- What `tunnel_cipher_server_decrypt` returns, with `*obfs_receipt`. -/
structure ServerDecrypted where
  ret : Option Bytes
  obfsReceipt : Option Bytes

section Server

variable (C : StreamCipher) (H : Mac 20) (info : ServerInfo)

def tunnelCipherServerDecrypt (d : ServerDraws) (tc : TunnelCipherCtx C) (buf : Bytes) :
    TunnelCipherCtx C × ServerDecrypted :=
  let r := serverDecode H info tc.obfs buf
  let tc := { tc with obfs := r.1 }
  match r.2.out with
  | none => (tc, ⟨none, none⟩)
  | some ret =>
      if r.2.needFeedback = true then
        let e := serverEncode H info d tc.obfs []
        -- `buffer_reset(ret)`: whatever was decoded in this call is dropped
        ({ tc with obfs := e.1 }, ⟨some [], some e.2⟩)
      else if r.2.needDecrypt = true ∧ 0 < ret.length then
        let q := ssDecrypt C tc.ivCache tc.dCtx ret
        ({ tc with ivCache := q.1, dCtx := q.2.1 }, ⟨q.2.2, none⟩)
      else (tc, ⟨some ret, none⟩)

/-- One call with the random choices it makes. -/
def serverDecryptCall (tc : TunnelCipherCtx C) (c : ServerDraws × Bytes) :
    TunnelCipherCtx C × ServerDecrypted := tunnelCipherServerDecrypt C H info c.1 tc c.2

/-- `tunnel_cipher_client_encrypt`; `iv` is the IV of the encryption context. -/
def tunnelCipherClientEncrypt (iv : Bytes) (d : ClientDraws) (tc : TunnelCipherCtx C) (buf : Bytes) :
    TunnelCipherCtx C × Bytes :=
  let r := ssEncrypt C iv tc.eCtx buf
  let q := clientEncode H info d tc.obfs r.2
  ({ tc with eCtx := r.1, obfs := q.1 }, q.2)

/-- One call with the random choices it makes. -/
def clientEncryptCall (iv : Bytes) (tc : TunnelCipherCtx C) (c : ClientDraws × Bytes) :
    TunnelCipherCtx C × Bytes := tunnelCipherClientEncrypt C H info iv c.1 tc c.2

/-! ## Decrypting a sequence of chunks -/

/-- The decryption part of the pipeline: an empty chunk is passed by. -/
def decryptChunk (x : IvCache × EncCtx C) (chunk : Bytes) : (IvCache × EncCtx C) × Option Bytes :=
  if 0 < chunk.length then
    let q := ssDecrypt C x.1 x.2 chunk
    ((q.1, q.2.1), q.2.2)
  else (x, some [])

variable {C}

theorem decryptChunk_run_started (cache : IvCache) {s : C.State} {plain : Bytes}
    {chunks : List Bytes} (h : chunks.flatten = (run C.enc s plain).2) :
    (∀ r ∈ (run (decryptChunk C) (cache, ⟨some s⟩) chunks).2, r ≠ none) ∧
      delivered (run (decryptChunk C) (cache, ⟨some s⟩) chunks).2 = plain := by
  induction chunks generalizing s plain with
  | nil =>
      have hlen := congrArg List.length h
      rw [run_snd_length] at hlen
      have hplain : plain = [] := List.eq_nil_of_length_eq_zero hlen.symm
      simp [hplain]
  | cons chunk chunks ih =>
      rw [List.flatten_cons] at h
      rcases run_enc_split h.symm with ⟨x, y, rfl, hx, hy⟩
      have hcall : decryptChunk C (cache, ⟨some s⟩) chunk =
          ((cache, ⟨some (run C.enc s x).1⟩), some x) := by
        by_cases hpos : 0 < chunk.length
        · simp only [decryptChunk, hpos, if_true]
          rw [← hx, ssDecrypt_started]
        · have hchunk : chunk = [] := by simpa using hpos
          have hlen : (run C.enc s x).2.length = 0 := by rw [hx, hchunk, List.length_nil]
          rw [run_snd_length] at hlen
          have hx0 : x = [] := List.eq_nil_of_length_eq_zero hlen
          subst hx0
          simp [decryptChunk, hchunk]
      have hrec := ih hy.symm
      rw [run_cons, hcall]
      refine ⟨?_, ?_⟩
      · intro r hr
        rcases List.mem_cons.1 hr with rfl | hr
        · simp
        · exact hrec.1 r hr
      · rw [delivered_cons, hrec.2, Option.getD_some]

/-- The IV is in the first chunk that is not empty. -/
def IvFirst (ivLen : ℕ) : List Bytes → Prop
  | [] => True
  | chunk :: chunks => (chunk = [] ∧ IvFirst ivLen chunks) ∨ (chunk ≠ [] ∧ ivLen ≤ chunk.length)

theorem cipherText_eq_nil_iff {iv payload : Bytes} : cipherText C iv payload = [] ↔ payload = [] := by
  by_cases h : payload = []
  · simp [cipherText, h]
  · have hne : (run C.enc (C.setIv iv) payload).2 ≠ [] := by
      rw [← List.length_pos_iff, run_snd_length]
      exact List.length_pos_iff.2 h
    simp [cipherText, h, hne]

theorem cipherText_length {iv payload : Bytes} (hiv : iv.length = C.ivLen) (h : payload ≠ []) :
    (cipherText C iv payload).length = C.ivLen + payload.length := by
  simp [cipherText, h, run_snd_length, hiv]

/-- The first chunk that is not empty splits into the IV and a part of the cipher text. -/
theorem cipherText_split {iv payload chunk rest : Bytes} (hiv : iv.length = C.ivLen)
    (h : chunk ++ rest = cipherText C iv payload) (hne : chunk ≠ []) (hlen : C.ivLen ≤ chunk.length) :
    ∃ x y, payload = x ++ y ∧ chunk = iv ++ (run C.enc (C.setIv iv) x).2 ∧
      rest = (run C.enc (run C.enc (C.setIv iv) x).1 y).2 := by
  have hpayload : payload ≠ [] := by
    intro hnil
    rw [cipherText_eq_nil_iff.2 hnil] at h
    exact hne (List.append_eq_nil_iff.1 h).1
  rw [cipherText, if_neg hpayload] at h
  obtain ⟨body, rfl⟩ : iv <+: chunk :=
    List.prefix_of_prefix_length_le ⟨_, rfl⟩ ⟨rest, h⟩ (by omega)
  rw [List.append_assoc] at h
  rcases run_enc_split (List.append_cancel_left h).symm with ⟨x, y, hxy, hx, hy⟩
  exact ⟨x, y, hxy, by rw [hx], hy.symm⟩

/-- With a fresh IV every cut of the cipher text that keeps the IV together is decrypted. -/
theorem decryptChunk_run_fresh {cache : IvCache} {iv payload : Bytes} {chunks : List Bytes}
    (hiv : iv.length = C.ivLen) (hfresh : IvFresh C cache iv) (hfirst : IvFirst C.ivLen chunks)
    (h : chunks.flatten = cipherText C iv payload) :
    (∀ r ∈ (run (decryptChunk C) (cache, ⟨none⟩) chunks).2, r ≠ none) ∧
      delivered (run (decryptChunk C) (cache, ⟨none⟩) chunks).2 = payload := by
  induction chunks with
  | nil =>
      have hnil : payload = [] := cipherText_eq_nil_iff.1 h.symm
      simp [hnil]
  | cons chunk chunks ih =>
      rw [List.flatten_cons] at h
      rcases hfirst with ⟨rfl, hfirst⟩ | ⟨hne, hlen⟩
      · -- an empty chunk changes nothing
        have hcall : decryptChunk C (cache, ⟨none⟩) [] = ((cache, ⟨none⟩), some []) := by
          simp [decryptChunk]
        have hrec := ih hfirst h
        rw [run_cons, hcall]
        refine ⟨?_, by rw [delivered_cons, hrec.2]; rfl⟩
        intro r hr
        rcases List.mem_cons.1 hr with rfl | hr
        · simp
        · exact hrec.1 r hr
      · -- the first chunk with bytes has the whole IV
        rcases cipherText_split hiv h hne hlen with ⟨x, y, rfl, hx, hy⟩
        rcases ssDecrypt_first hiv hfresh x with ⟨cache', hdec⟩
        have hcall : decryptChunk C (cache, ⟨none⟩) chunk =
            ((cache', ⟨some (run C.enc (C.setIv iv) x).1⟩), some x) := by
          simp only [decryptChunk, List.length_pos_iff.2 hne, if_true]
          rw [hx, hdec]
        have hrec := decryptChunk_run_started cache' hy
        rw [run_cons, hcall]
        refine ⟨?_, by rw [delivered_cons, hrec.2]; rfl⟩
        intro r hr
        rcases List.mem_cons.1 hr with rfl | hr
        · simp
        · exact hrec.1 r hr

/-- A repeated IV is refused. -/
theorem decryptChunk_run_repeated {cache : IvCache} {iv payload : Bytes} {chunks : List Bytes}
    (hiv : iv.length = C.ivLen) (hseen : ¬ IvFresh C cache iv) (hfirst : IvFirst C.ivLen chunks)
    (h : chunks.flatten = cipherText C iv payload) (hpayload : payload ≠ []) :
    none ∈ (run (decryptChunk C) (cache, ⟨none⟩) chunks).2 := by
  induction chunks with
  | nil => exact absurd (cipherText_eq_nil_iff.1 h.symm) hpayload
  | cons chunk chunks ih =>
      rw [List.flatten_cons] at h
      rcases hfirst with ⟨rfl, hfirst⟩ | ⟨hne, hlen⟩
      · have hcall : decryptChunk C (cache, ⟨none⟩) [] = ((cache, ⟨none⟩), some []) := by
          simp [decryptChunk]
        rw [run_cons, hcall]
        exact List.mem_cons_of_mem _ (ih hfirst h)
      · rcases cipherText_split hiv h hne hlen with ⟨x, y, rfl, hx, hy⟩
        have hcall : (decryptChunk C (cache, ⟨none⟩) chunk).2 = none := by
          simp only [decryptChunk, List.length_pos_iff.2 hne, if_true]
          rw [hx]
          exact ssDecrypt_repeated hiv hseen
        rw [run_cons, hcall]
        exact List.mem_cons_self

theorem decryptChunk_run_nil {x : IvCache × EncCtx C} {chunks : List Bytes}
    (h : chunks.flatten = []) :
    (∀ r ∈ (run (decryptChunk C) x chunks).2, r ≠ none) ∧
      delivered (run (decryptChunk C) x chunks).2 = [] := by
  induction chunks with
  | nil => simp
  | cons chunk chunks ih =>
      rw [List.flatten_cons, List.append_eq_nil_iff] at h
      have hcall : decryptChunk C x chunk = (x, some []) := by simp [decryptChunk, h.1]
      have hrec := ih h.2
      rw [run_cons, hcall]
      refine ⟨?_, by rw [delivered_cons, hrec.2]; rfl⟩
      intro r hr
      rcases List.mem_cons.1 hr with rfl | hr
      · simp
      · exact hrec.1 r hr

/-- What was decrypted is shorter than what came in by the length of the IV. -/
theorem decryptChunk_run_length {x : IvCache × EncCtx C} {chunks : List Bytes}
    (hall : ∀ r ∈ (run (decryptChunk C) x chunks).2, r ≠ none) :
    (delivered (run (decryptChunk C) x chunks).2).length +
        (if x.2.state.isNone ∧ chunks.flatten ≠ [] then C.ivLen else 0) =
      chunks.flatten.length := by
  induction chunks generalizing x with
  | nil => simp
  | cons chunk chunks ih =>
      rw [run_cons] at hall ⊢
      have hrec := ih fun r hr => hall r (List.mem_cons_of_mem _ hr)
      by_cases hchunk : chunk = []
      · have hcall : decryptChunk C x chunk = (x, some []) := by simp [decryptChunk, hchunk]
        rw [hcall] at hrec ⊢
        simpa [hchunk] using hrec
      · have hpos : 0 < chunk.length := List.length_pos_iff.2 hchunk
        have hcall : decryptChunk C x chunk =
            (((ssDecrypt C x.1 x.2 chunk).1, (ssDecrypt C x.1 x.2 chunk).2.1),
              (ssDecrypt C x.1 x.2 chunk).2.2) := by
          simp only [decryptChunk, hpos, if_true]
        have hsome := hall _ List.mem_cons_self
        rw [hcall] at hrec hsome ⊢
        obtain ⟨plain, hplain⟩ : ∃ plain, (ssDecrypt C x.1 x.2 chunk).2.2 = some plain :=
          Option.ne_none_iff_exists'.1 hsome
        have hlen := ssDecrypt_length hplain
        have hstarted : (ssDecrypt C x.1 x.2 chunk).2.1.state.isNone = false := by
          rw [← Option.not_isSome, hlen.2]
          rfl
        have hne : ¬ chunk ++ chunks.flatten = [] := by simp [hchunk]
        simp only [hstarted, Bool.false_eq_true, false_and, if_false, Nat.add_zero] at hrec
        simp only [hne, ne_eq, not_false_eq_true, and_true, delivered_cons, hplain,
          Option.getD_some, List.length_append, List.flatten_cons, hrec]
        have hfirst := hlen.1
        omega

/-! ## The pipeline after the handshake -/

/-- The obfuscation has finished its handshake and holds no partial record. -/
def Streaming (l : LocalData) : Prop :=
  l.handshakeStatus ≠ -1 ∧ l.handshakeStatus &&& 4 = 4 ∧ l.recvBuffer = []

theorem serverDecodeStreaming_records {l : LocalData} {pieces : List Bytes} {p seg : Bytes}
    (hp : l.recvBuffer = p) (h : p ++ seg = recordStream pieces)
    (hfit : ∀ piece ∈ pieces, Fits piece) :
    serverDecodeStreaming l seg =
      ({ l with recvBuffer := [] }, ⟨some pieces.flatten, true, false⟩) := by
  have hstream : p ++ [seg].flatten = recordStream pieces := by simpa using h
  rcases serverRecordStep_recordLoop.feed_run hfit hstream (by simp) with ⟨outs, hrun, hall, hout⟩
  rw [run_cons, run_nil] at hrun
  have hstate : (Lib.Framing.feed serverRecordStep ((), p) seg).1 = ((), []) :=
    congrArg Prod.fst hrun
  have houts : [(Lib.Framing.feed serverRecordStep ((), p) seg).2] = outs := congrArg Prod.snd hrun
  have hstop : (Lib.Framing.feed serverRecordStep ((), p) seg).2.2 = none :=
    hall _ (by rw [← houts]; exact List.mem_cons_self)
  have hfirst : (Lib.Framing.feed serverRecordStep ((), p) seg).2.1 = pieces.flatten := by
    rw [← hout, ← houts]
    simp
  simp only [serverDecodeStreaming, hp, hstate, hstop, hfirst, if_true]

variable {H info}

/-- What the pipeline does with decoded data. -/
theorem tunnelCipherServerDecrypt_data {d : ServerDraws} {tc : TunnelCipherCtx C} {l : LocalData}
    {seg chunk : Bytes} (h : serverDecode H info tc.obfs seg = (l, ⟨some chunk, true, false⟩)) :
    tunnelCipherServerDecrypt C H info d tc seg =
      ({ tc with
          obfs := l
          ivCache := (decryptChunk C (tc.ivCache, tc.dCtx) chunk).1.1
          dCtx := (decryptChunk C (tc.ivCache, tc.dCtx) chunk).1.2 },
        ⟨(decryptChunk C (tc.ivCache, tc.dCtx) chunk).2, none⟩) := by
  by_cases hpos : 0 < chunk.length
  · simp [tunnelCipherServerDecrypt, h, decryptChunk, hpos]
  · have hnil : chunk = [] := by simpa using hpos
    simp [tunnelCipherServerDecrypt, h, decryptChunk, hnil]

theorem serverDecode_streaming {l : LocalData} (hl : Streaming l) {pieces : List Bytes}
    (hfit : ∀ piece ∈ pieces, Fits piece) :
    serverDecode H info l (recordStream pieces) = (l, ⟨some pieces.flatten, true, false⟩) := by
  have hrecv : ({ l with recvBuffer := [] } : LocalData) = l := by
    rw [← hl.2.2]
  have hstream := serverDecodeStreaming_records hl.2.2 (List.nil_append (recordStream pieces)) hfit
  simp only [serverDecode, hl.1, hl.2.1, if_false, if_true, hstream, hrecv]

/-- After the handshake the pipeline decrypts one chunk per call. -/
theorem serverDecrypt_run_streaming {tc : TunnelCipherCtx C} (htc : Streaming tc.obfs)
    {calls : List (ServerDraws × List Bytes)} (hfit : ∀ c ∈ calls, ∀ piece ∈ c.2, Fits piece) :
    (run (serverDecryptCall C H info) tc (calls.map fun c => (c.1, recordStream c.2))).2 =
      (run (decryptChunk C) (tc.ivCache, tc.dCtx) (calls.map fun c => c.2.flatten)).2.map
        (fun r => ⟨r, none⟩) := by
  induction calls generalizing tc with
  | nil => rfl
  | cons c calls ih =>
      have hdec : serverDecode H info tc.obfs (recordStream c.2) = _ :=
        serverDecode_streaming htc (hfit c (by simp))
      simp only [List.map_cons, run_cons, serverDecryptCall, tunnelCipherServerDecrypt_data hdec]
      congr 1
      exact ih htc fun c' hc' => hfit c' (List.mem_cons_of_mem _ hc')

/-! ## Coalesced blocks -/

/-- The pieces carry the client's payload, with the IV inside the first of them. -/
structure Carries (C : StreamCipher) (iv : Bytes) (pieces : List Bytes) (payload : Bytes) :
    Prop where
  fits : ∀ piece ∈ pieces, Fits piece
  flatten_eq : pieces.flatten = cipherText C iv payload
  iv_first : ∀ piece ∈ pieces.head?, C.ivLen ≤ piece.length

/-- The blocks a client emits: ClientHello, Finished, data records. -/
def clientBlocks (H : Mac 20) (info : ServerInfo) (d d' : ClientDraws) (pieces : List Bytes) :
    List Bytes :=
  clientHello H info d :: clientFinish H info d' :: pieces.map packData

/-- A new connection on the server. -/
def tunnelCipherCreate (C : StreamCipher) (cache : IvCache) : TunnelCipherCtx C :=
  ⟨localDataInit, ⟨none⟩, ⟨none⟩, cache⟩

/-- No call returns `NULL`, the calls return the payload, and one of them produces the receipt. -/
structure InboundOk (C : StreamCipher) (H : Mac 20) (info : ServerInfo) (tc : TunnelCipherCtx C)
    (calls : List (ServerDraws × Bytes)) (payload : Bytes) : Prop where
  no_null : ∀ q ∈ (run (serverDecryptCall C H info) tc calls).2, q.ret ≠ none
  payload_eq : delivered ((run (serverDecryptCall C H info) tc calls).2.map ServerDecrypted.ret) =
    payload
  one_receipt : (run (serverDecryptCall C H info) tc calls).2.countP (·.obfsReceipt.isSome) = 1

/-- Whole records in groups are groups of pieces. -/
theorem exists_piece_groups {calls : List (ServerDraws × List Bytes)} {pieces : List Bytes}
    (h : (calls.map Prod.snd).flatten = pieces.map packData) :
    ∃ groups : List (ServerDraws × List Bytes),
      calls = groups.map (fun c => (c.1, c.2.map packData)) ∧
        (groups.map Prod.snd).flatten = pieces := by
  induction calls generalizing pieces with
  | nil =>
      refine ⟨[], rfl, ?_⟩
      simpa [eq_comm] using h
  | cons c calls ih =>
      rw [List.map_cons, List.flatten_cons] at h
      rcases List.append_eq_map_iff.1 h with ⟨ps, qs, rfl, hps, hqs⟩
      rcases ih hqs.symm with ⟨groups, rfl, rfl⟩
      refine ⟨(c.1, ps) :: groups, ?_, by simp⟩
      simp [hps]

/-- The first call of a connection answers with the receipt and drops what it decoded. -/
theorem serverDecryptCall_first {d : ServerDraws} {tc : TunnelCipherCtx C} {l : LocalData}
    {seg out : Bytes} {f : Bool} (h : serverDecode H info tc.obfs seg = (l, ⟨some out, f, true⟩)) :
    serverDecryptCall C H info tc (d, seg) =
      ({ tc with obfs := (serverEncode H info d l []).1 },
        ⟨some [], some (serverEncode H info d l []).2⟩) := by
  simp [serverDecryptCall, tunnelCipherServerDecrypt, h]

/-- A receipt in the first call and none later. -/
theorem inboundOk_cons_receipt {tc tc' : TunnelCipherCtx C} {c : ServerDraws × Bytes}
    {calls : List (ServerDraws × Bytes)} {payload receipt : Bytes} {outs : List (Option Bytes)}
    (hfirst : serverDecryptCall C H info tc c = (tc', ⟨some [], some receipt⟩))
    (hrest : (run (serverDecryptCall C H info) tc' calls).2 = outs.map fun r => ⟨r, none⟩) :
    InboundOk C H info tc (c :: calls) payload ↔
      (∀ r ∈ outs, r ≠ none) ∧ delivered outs = payload := by
  have hrun : (run (serverDecryptCall C H info) tc (c :: calls)).2 =
      ⟨some [], some receipt⟩ :: outs.map fun r => ⟨r, none⟩ := by
    rw [run_cons, hfirst, hrest]
  constructor
  · rintro ⟨h1, h2, -⟩
    rw [hrun] at h1 h2
    refine ⟨fun r hr => ?_, ?_⟩
    · exact h1 ⟨r, none⟩ (List.mem_cons_of_mem _ (List.mem_map.2 ⟨r, hr, rfl⟩))
    · simpa [Function.comp_def] using h2
  · rintro ⟨h1, h2⟩
    refine ⟨?_, ?_, ?_⟩
    · rw [hrun]
      intro q hq
      rcases List.mem_cons.1 hq with rfl | hq
      · simp
      · rcases List.mem_map.1 hq with ⟨r, hr, rfl⟩
        exact h1 r hr
    · rw [hrun]
      simpa [Function.comp_def] using h2
    · rw [hrun]
      simp [List.countP_map, Function.comp_def]

theorem ivFirst_of_groups {n : ℕ} {groups : List (List Bytes)}
    (hfit : ∀ piece ∈ groups.flatten, Fits piece)
    (hfirst : ∀ piece ∈ groups.flatten.head?, n ≤ piece.length) :
    IvFirst n (groups.map List.flatten) := by
  induction groups with
  | nil => trivial
  | cons g groups ih =>
      cases g with
      | nil => exact Or.inl ⟨rfl, ih hfit hfirst⟩
      | cons piece g =>
          have hpiece : Fits piece := hfit piece (by simp)
          have hlen : n ≤ piece.length := hfirst piece (by simp)
          refine Or.inr ⟨?_, ?_⟩
          · simp [hpiece.1]
          · simp only [List.flatten_cons, List.length_append]
            omega

/-- The decryption run succeeds exactly when nothing was lost and the IV is accepted. -/
theorem decryptChunk_run_iff {cache : IvCache} {iv payload : Bytes} (lost : List Bytes)
    {pieces : List Bytes} {groups : List (List Bytes)} (hiv : iv.length = C.ivLen) (hcarry : Carries C iv pieces payload)
    (h : lost ++ groups.flatten = pieces) :
    ((∀ r ∈ (run (decryptChunk C) (cache, ⟨none⟩) (groups.map List.flatten)).2, r ≠ none) ∧
        delivered (run (decryptChunk C) (cache, ⟨none⟩) (groups.map List.flatten)).2 = payload) ↔
      payload = [] ∨ (IvFresh C cache iv ∧ lost = []) := by
  have hflat : (groups.map List.flatten).flatten = groups.flatten.flatten := by
    rw [List.flatten_flatten]
  by_cases hpayload : payload = []
  · -- without payload there are no pieces at all
    have hpieces : pieces = [] := by
      refine eq_nil_of_flatten_eq_nil (fun piece hp => (hcarry.fits piece hp).1) ?_
      rw [hcarry.flatten_eq, cipherText_eq_nil_iff.2 hpayload]
    rw [hpieces, List.append_eq_nil_iff] at h
    have hchunks : (groups.map List.flatten).flatten = [] := by rw [hflat, h.2, List.flatten_nil]
    refine iff_of_true ?_ (Or.inl hpayload)
    rw [hpayload]
    exact decryptChunk_run_nil hchunks
  · have hlen := cipherText_length hiv hpayload
    rw [← hcarry.flatten_eq, ← h, List.flatten_append, List.length_append, ← hflat] at hlen
    by_cases hlost : lost = []
    · -- nothing was lost: only the IV decides
      subst hlost
      rw [List.nil_append] at h
      have hchunks : (groups.map List.flatten).flatten = cipherText C iv payload := by
        rw [hflat, h, hcarry.flatten_eq]
      have hfirst : IvFirst C.ivLen (groups.map List.flatten) :=
        ivFirst_of_groups (by rw [h]; exact hcarry.fits) (by rw [h]; exact hcarry.iv_first)
      by_cases hfresh : IvFresh C cache iv
      · exact iff_of_true (decryptChunk_run_fresh hiv hfresh hfirst hchunks)
          (Or.inr ⟨hfresh, rfl⟩)
      · refine iff_of_false (fun hall => ?_) (fun hor => ?_)
        · exact hall.1 none (decryptChunk_run_repeated hiv hfresh hfirst hchunks hpayload) rfl
        · rcases hor with hnil | hok
          · exact hpayload hnil
          · exact hfresh hok.1
    · -- a piece was lost: too few bytes come out
      refine iff_of_false (fun hall => ?_) (fun hor => ?_)
      · have hlost_len : 0 < lost.flatten.length := by
          rw [List.length_pos_iff]
          intro hnil
          exact hlost (eq_nil_of_flatten_eq_nil
            (fun piece hp => (hcarry.fits piece (by rw [← h]; simp [hp])).1) hnil)
        have hout := decryptChunk_run_length hall.1
        rw [hall.2] at hout
        have hpos := List.length_pos_iff.2 hpayload
        by_cases hrest : (groups.map List.flatten).flatten = []
        · simp only [hrest, ne_eq, not_true_eq_false, and_false, if_false, List.length_nil] at hout
          omega
        · simp only [hrest, ne_eq, not_false_eq_true, Option.isNone_none, and_self, if_true] at hout
          omega
      · rcases hor with hnil | hok
        · exact hpayload hnil
        · exact hlost hok.2

theorem recordStream_eq_flatten (pieces : List Bytes) :
    (pieces.map packData).flatten = recordStream pieces := rfl

/-- After the handshake the client emits records that carry its cipher text. -/
theorem clientEncrypt_run_records {iv : Bytes} {tc : TunnelCipherCtx C} {s : C.State}
    (hctx : tc.eCtx = ⟨some s⟩) (hne : tc.obfs.handshakeStatus ≠ -1)
    (h4 : tc.obfs.handshakeStatus &&& 4 = 4) (calls : List (ClientDraws × Bytes)) :
    ∃ pieces, (∀ piece ∈ pieces, Fits piece) ∧
      pieces.flatten = (run C.enc s (calls.map Prod.snd).flatten).2 ∧
      (run (clientEncryptCall C H info iv) tc calls).2.flatten = recordStream pieces := by
  induction calls generalizing tc s with
  | nil => exact ⟨[], by simp, by simp, rfl⟩
  | cons c calls ih =>
      have hcall : clientEncryptCall C H info iv tc c =
          ({ tc with eCtx := ⟨some (run C.enc s c.2).1⟩ },
            recordStream (clientPieces tc.obfs.sendId c.1.split (run C.enc s c.2).2)) := by
        simp only [clientEncryptCall, tunnelCipherClientEncrypt, hctx, ssEncrypt, clientEncode, hne,
          h4, if_false, if_true]
        rfl
      have hctx' : ({ tc with eCtx := ⟨some (run C.enc s c.2).1⟩ } : TunnelCipherCtx C).eCtx =
          ⟨some (run C.enc s c.2).1⟩ := rfl
      rcases ih hctx' hne h4 with ⟨pieces, hfit, hflat, hrun⟩
      refine ⟨clientPieces tc.obfs.sendId c.1.split (run C.enc s c.2).2 ++ pieces, ?_, ?_, ?_⟩
      · intro piece hp
        rcases List.mem_append.1 hp with hp | hp
        · exact clientPieces_fits _ _ _ piece hp
        · exact hfit piece hp
      · simp [clientPieces_flatten, hflat, run_append]
      · rw [run_cons, hcall, List.flatten_cons, hrun, recordStream_append]

/-- The server's obfuscation state once the receipt is out and Finished is awaited. -/
def receiptSent (info : ServerInfo) : LocalData := { finishPending info [] with handshakeStatus := 9 }

/-- The server's obfuscation state once the receipt is out and the handshake is complete. -/
def answered (info : ServerInfo) : LocalData := { established info [] with handshakeStatus := 13 }

theorem streaming_answered : Streaming (answered info) := by
  refine ⟨?_, ?_, rfl⟩ <;> simp [answered]

/-- The ClientHello alone. -/
theorem serverDecode_hello_alone {d : ClientDraws}
    (hfit : (helloMessage H info d).length < 65536) :
    serverDecode H info localDataInit (clientHello H info d) =
      (finishPending info [], ⟨some [], false, true⟩) := by
  have hfull : [] ++ clientHello H info d = clientHello H info d ++ [] := by simp
  exact serverDecode_hello_full hfull hfit

/-- The whole handshake in one piece, with records behind it: their data is decoded in the same call
that asks for the receipt. -/
theorem serverDecode_handshake {d d' : ClientDraws} {pieces : List Bytes}
    (hfit : (helloMessage H info d).length < 65536) (hpieces : ∀ piece ∈ pieces, Fits piece) :
    serverDecode H info localDataInit
        (clientHello H info d ++ (clientFinish H info d' ++ recordStream pieces)) =
      (established info [], ⟨some pieces.flatten, true, true⟩) := by
  have hfull : [] ++ (clientHello H info d ++ (clientFinish H info d' ++ recordStream pieces)) =
      clientHello H info d ++ (clientFinish H info d' ++ recordStream pieces) := by simp
  have hhello := serverDecode_hello_full hfull hfit
  have hlen : 11 ≤ (clientFinish H info d' ++ recordStream pieces).length := by
    rw [List.length_append, clientFinish_length]
    omega
  have hfin : (clientFinish H info d' ++ recordStream pieces) ++ [] =
      clientFinish H info d' ++ recordStream pieces := List.append_nil _
  have hrecv : (finishPending info (clientFinish H info d' ++ recordStream pieces)).recvBuffer =
      clientFinish H info d' ++ recordStream pieces := rfl
  have hrecords := serverDecodeStreaming_records (l := { finishPending info
      (clientFinish H info d' ++ recordStream pieces) with
        recvBuffer := recordStream pieces
        handshakeStatus := 1 ||| 4 }) rfl (List.append_nil _) hpieces
  rw [if_pos hlen, serverDecodeFinish_full hrecv rfl (by simp [finishPending]) hfin] at hhello
  have hstatus : (finishPending info
      (clientFinish H info d' ++ recordStream pieces)).handshakeStatus = 1 := rfl
  rw [hstatus, hrecords] at hhello
  exact hhello

/-- Finished and records in one piece, after the receipt. -/
theorem serverDecode_finish_records {d' : ClientDraws} {pieces : List Bytes}
    (hpieces : ∀ piece ∈ pieces, Fits piece) :
    serverDecode H info (receiptSent info) (clientFinish H info d' ++ recordStream pieces) =
      (answered info, ⟨some pieces.flatten, true, false⟩) := by
  have hfin : [] ++ (clientFinish H info d' ++ recordStream pieces) =
      clientFinish H info d' ++ recordStream pieces := List.nil_append _
  have hdecode : serverDecode H info (receiptSent info)
      (clientFinish H info d' ++ recordStream pieces) =
        serverDecodeFinish H info (receiptSent info)
          (clientFinish H info d' ++ recordStream pieces) := by
    simp [serverDecode, receiptSent]
  have hrecords := serverDecodeStreaming_records (l := { receiptSent info with
        recvBuffer := recordStream pieces
        handshakeStatus := 9 ||| 4 }) rfl (List.append_nil _) hpieces
  rw [hdecode, serverDecodeFinish_full rfl rfl (by simp [receiptSent]) hfin]
  exact hrecords

theorem serverEncode_finishPending (d : ServerDraws) :
    (serverEncode H info d (finishPending info []) []).1 = receiptSent info := by
  simp [serverEncode, finishPending, receiptSent]

theorem serverEncode_established (d : ServerDraws) :
    (serverEncode H info d (established info []) []).1 = answered info := by
  simp [serverEncode, established, answered]

theorem segments_of_groups (groups : List (ServerDraws × List Bytes)) :
    (groups.map fun c => (c.1, c.2.map packData)).map (fun c => (c.1, c.2.flatten)) =
      groups.map fun c => (c.1, recordStream c.2) := by
  simp [Function.comp_def, recordStream]

section Coalescing

variable {cache : IvCache} {iv payload : Bytes} {d d' : ClientDraws} {d₁ d₂ : ServerDraws}
  {ps : List Bytes} {groups : List (ServerDraws × List Bytes)}

theorem groups_fit (h : ∀ piece ∈ ps ++ (groups.map Prod.snd).flatten, Fits piece) :
    (∀ piece ∈ ps, Fits piece) ∧ ∀ c ∈ groups, ∀ piece ∈ c.2, Fits piece := by
  refine ⟨fun piece hp => h piece (List.mem_append_left _ hp), fun c hc piece hp => ?_⟩
  refine h piece (List.mem_append_right _ (List.mem_flatten.2 ⟨c.2, ?_, hp⟩))
  exact List.mem_map.2 ⟨c, hc, rfl⟩

/-- The ClientHello in a segment of its own: nothing is lost. -/
theorem inboundOk_hello_alone (hiv : iv.length = C.ivLen)
    (hfit : (helloMessage H info d).length < 65536)
    (hcarry : Carries C iv (ps ++ (groups.map Prod.snd).flatten) payload) :
    InboundOk C H info (tunnelCipherCreate C cache)
        ((d₁, clientHello H info d) :: (d₂, clientFinish H info d' ++ recordStream ps) ::
          groups.map fun c => (c.1, recordStream c.2)) payload ↔
      payload = [] ∨ IvFresh C cache iv := by
  rcases groups_fit hcarry.fits with ⟨hps, hgroups⟩
  have hfirst : serverDecryptCall C H info (tunnelCipherCreate C cache) (d₁, clientHello H info d) =
      (⟨receiptSent info, ⟨none⟩, ⟨none⟩, cache⟩,
        ⟨some [], some (serverEncode H info d₁ (finishPending info []) []).2⟩) := by
    have hdec : serverDecode H info (tunnelCipherCreate C cache).obfs (clientHello H info d) = _ :=
      serverDecode_hello_alone hfit
    rw [serverDecryptCall_first hdec, serverEncode_finishPending]
    rfl
  have hsecond : serverDecode H info (receiptSent info) (clientFinish H info d' ++ recordStream ps) =
      (answered info, ⟨some ps.flatten, true, false⟩) := serverDecode_finish_records hps
  have hrest : (run (serverDecryptCall C H info) ⟨receiptSent info, ⟨none⟩, ⟨none⟩, cache⟩
      ((d₂, clientFinish H info d' ++ recordStream ps) ::
        groups.map fun c => (c.1, recordStream c.2))).2 =
      (run (decryptChunk C) (cache, ⟨none⟩) ((ps :: groups.map Prod.snd).map List.flatten)).2.map
        (fun r => ⟨r, none⟩) := by
    have hcall : serverDecryptCall C H info ⟨receiptSent info, ⟨none⟩, ⟨none⟩, cache⟩
        (d₂, clientFinish H info d' ++ recordStream ps) = _ :=
      tunnelCipherServerDecrypt_data hsecond
    rw [run_cons, hcall, serverDecrypt_run_streaming streaming_answered hgroups]
    simp [run_cons, Function.comp_def]
  rw [inboundOk_cons_receipt hfirst hrest, decryptChunk_run_iff [] hiv hcarry (by simp)]
  simp

/-- Finished together with the ClientHello: the records in the same segment are lost. -/
theorem inboundOk_with_finish (hiv : iv.length = C.ivLen)
    (hfit : (helloMessage H info d).length < 65536)
    (hcarry : Carries C iv (ps ++ (groups.map Prod.snd).flatten) payload) :
    InboundOk C H info (tunnelCipherCreate C cache)
        ((d₁, clientHello H info d ++ (clientFinish H info d' ++ recordStream ps)) ::
          groups.map fun c => (c.1, recordStream c.2)) payload ↔
      payload = [] ∨ (IvFresh C cache iv ∧ ps = []) := by
  rcases groups_fit hcarry.fits with ⟨hps, hgroups⟩
  have hfirst : serverDecryptCall C H info (tunnelCipherCreate C cache)
      (d₁, clientHello H info d ++ (clientFinish H info d' ++ recordStream ps)) =
      (⟨answered info, ⟨none⟩, ⟨none⟩, cache⟩,
        ⟨some [], some (serverEncode H info d₁ (established info []) []).2⟩) := by
    have hdec : serverDecode H info (tunnelCipherCreate C cache).obfs
        (clientHello H info d ++ (clientFinish H info d' ++ recordStream ps)) = _ :=
      serverDecode_handshake hfit hps
    rw [serverDecryptCall_first hdec, serverEncode_established]
    rfl
  have hrest : (run (serverDecryptCall C H info) ⟨answered info, ⟨none⟩, ⟨none⟩, cache⟩
      (groups.map fun c => (c.1, recordStream c.2))).2 =
      (run (decryptChunk C) (cache, ⟨none⟩) ((groups.map Prod.snd).map List.flatten)).2.map
        (fun r => ⟨r, none⟩) := by
    rw [serverDecrypt_run_streaming streaming_answered hgroups]
    simp [Function.comp_def]
  rw [inboundOk_cons_receipt hfirst hrest, decryptChunk_run_iff ps hiv hcarry rfl]

end Coalescing

/-- Coalescing: what a server makes of a client's blocks, in whatever groups they arrive. -/
theorem inbound_coalescing_iff {cache : IvCache} {iv payload : Bytes} {pieces : List Bytes}
    {d d' : ClientDraws} (hiv : iv.length = C.ivLen)
    (hfit : HelloFits H info d) (hcarry : Carries C iv pieces payload)
    (calls : List (ServerDraws × List Bytes)) (hne : ∀ c ∈ calls, c.2 ≠ [])
    (hblocks : (calls.map Prod.snd).flatten = clientBlocks H info d d' pieces) :
    InboundOk C H info (tunnelCipherCreate C cache) (calls.map fun c => (c.1, c.2.flatten)) payload ↔
      payload = [] ∨ (IvFresh C cache iv ∧ ∀ c ∈ calls.head?, c.2.length ≤ 2) := by
  cases calls with
  | nil => simp [clientBlocks] at hblocks
  | cons c calls =>
      rcases c with ⟨d₁, g⟩
      cases g with
      | nil => exact absurd rfl (hne (d₁, []) (by simp))
      | cons b g =>
          rw [List.map_cons, List.flatten_cons, clientBlocks, List.cons_append, List.cons.injEq]
            at hblocks
          rcases hblocks with ⟨rfl, hblocks⟩
          cases g with
          | nil =>
              -- the ClientHello comes alone; Finished is the first block of the next group
              cases calls with
              | nil => simp at hblocks
              | cons c calls =>
                  rcases c with ⟨d₂, g⟩
                  cases g with
                  | nil => exact absurd rfl (hne (d₂, []) (by simp))
                  | cons b g =>
                      rw [List.nil_append, List.map_cons, List.flatten_cons, List.cons_append,
                        List.cons.injEq] at hblocks
                      rcases hblocks with ⟨rfl, hblocks⟩
                      rcases List.append_eq_map_iff.1 hblocks with ⟨ps, qs, rfl, rfl, hqs⟩
                      rcases exists_piece_groups hqs.symm with ⟨groups, rfl, rfl⟩
                      rw [List.map_cons, List.map_cons, segments_of_groups]
                      simpa [recordStream_eq_flatten] using inboundOk_hello_alone hiv hfit.message hcarry
          | cons b g =>
              -- Finished comes with the ClientHello, and so may data
              rw [List.cons_append, List.cons.injEq] at hblocks
              rcases hblocks with ⟨rfl, hblocks⟩
              rcases List.append_eq_map_iff.1 hblocks with ⟨ps, qs, rfl, rfl, hqs⟩
              rcases exists_piece_groups hqs.symm with ⟨groups, rfl, rfl⟩
              rw [List.map_cons, segments_of_groups]
              simpa [recordStream_eq_flatten] using inboundOk_with_finish hiv hfit.message hcarry

end Server

/-! ## A sample connection -/

def sampleCipher : StreamCipher := rc4Md5 [0x6b, 0x65, 0x79]

def sampleIv : Bytes := (List.range 16).map UInt8.ofNat

/-- The record payload for the plain text `1, 2, 3`. -/
def samplePiece : Bytes := cipherText sampleCipher sampleIv [1, 2, 3]

theorem sample_carries : Carries sampleCipher sampleIv [samplePiece] [1, 2, 3] := by
  have hiv : sampleIv.length = sampleCipher.ivLen := by simp [sampleIv, sampleCipher, rc4Md5]
  have hlen : samplePiece.length = 19 := cipherText_length hiv (by simp)
  refine ⟨?_, by simp [samplePiece], ?_⟩
  · intro piece hp
    rw [List.mem_singleton] at hp
    subst hp
    exact ⟨List.length_pos_iff.1 (by omega), by omega⟩
  · intro piece hp
    simp only [List.head?_cons, Option.mem_def, Option.some.injEq] at hp
    subst hp
    rw [hlen]
    decide

/-- With the ClientHello in a segment of its own, the sample payload arrives. -/
theorem inbound_coalescing_hello_alone :
    InboundOk sampleCipher hmacSha1 sampleInfo (tunnelCipherCreate sampleCipher [])
      [(sampleServerDraws, clientHello hmacSha1 sampleInfo sampleDraws),
        (sampleServerDraws, clientFinish hmacSha1 sampleInfo sampleDraws ++ packData samplePiece)]
      [1, 2, 3] := by
  have hiv : sampleIv.length = sampleCipher.ivLen := by simp [sampleIv, sampleCipher, rc4Md5]
  let calls := [(sampleServerDraws, [clientHello hmacSha1 sampleInfo sampleDraws]),
    (sampleServerDraws, [clientFinish hmacSha1 sampleInfo sampleDraws, packData samplePiece])]
  have hblocks : (calls.map Prod.snd).flatten =
      clientBlocks hmacSha1 sampleInfo sampleDraws sampleDraws [samplePiece] := rfl
  have hok := (inbound_coalescing_iff hiv sample_helloFits sample_carries calls (by simp [calls]) hblocks).2
    (Or.inr ⟨fun _ => List.not_mem_nil, by simp [calls]⟩)
  simpa [calls] using hok

/-- Everything in one segment: the payload is lost. -/
theorem inbound_coalescing_loses_payload :
    Carries sampleCipher sampleIv [samplePiece] [1, 2, 3] ∧
      ¬ InboundOk sampleCipher hmacSha1 sampleInfo (tunnelCipherCreate sampleCipher [])
        [(sampleServerDraws,
          (clientBlocks hmacSha1 sampleInfo sampleDraws sampleDraws [samplePiece]).flatten)]
        [1, 2, 3] := by
  refine ⟨sample_carries, fun hok => ?_⟩
  have hiv : sampleIv.length = sampleCipher.ivLen := by simp [sampleIv, sampleCipher, rc4Md5]
  have hcarry : Carries sampleCipher sampleIv
      ([samplePiece] ++ (([] : List (ServerDraws × List Bytes)).map Prod.snd).flatten) [1, 2, 3] :=
    sample_carries
  have hor := (inboundOk_with_finish hiv sample_helloFits.message hcarry).1 (by simpa [clientBlocks] using hok)
  simp at hor

end SsrNative
