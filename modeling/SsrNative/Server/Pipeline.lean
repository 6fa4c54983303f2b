import Mathlib.Data.List.Induction
import SsrNative.Executive

/-!
# Server pipeline — the layers of the server's cipher, with a protocol plugin

`tunnel_cipher_server_encrypt` and `tunnel_cipher_server_decrypt` of `ssr_executive.c` put an
obfuscation, a cipher and a protocol plugin one behind the other.  The three are parameters here;
`Executive` has the instance with tls1.2_ticket and without a plugin.

In front of the cipher the source copies the client's IV to `recv_iv` of the plugin.  Whether this
was done before is told by the first byte of `recv_iv`, so it goes well when that byte is not zero
or nothing comes later (`recvIv_captured_iff`).
-/

namespace SsrNative
namespace Server

open Bytes
open Lib.Segments
open Obfs.Tls12TicketAuth (Decoded ServerInfo ServerDraws)

/-! ## The layers -/

/-- `recv_iv` and `recv_iv_len` of `struct server_info_t`. -/
structure RecvIv where
  recvIv : Bytes
  recvIvLen : ℕ

/-- After `calloc`. -/
def RecvIv.zeroed : RecvIv := ⟨List.replicate 256 0, 0⟩

/-- An obfuscation. -/
structure ServerObfs (σ : Type*) where
  serverDecode : σ → Bytes → σ × Decoded
  serverEncode : σ → Bytes → σ × Bytes

/-- No obfuscation: `plain`. -/
def plainObfs : ServerObfs Unit where
  serverDecode _ buf := ((), ⟨some buf, true, false⟩)
  serverEncode _ buf := ((), buf)

/-- A protocol plugin.  `server_post_decrypt` gives a buffer and asks for feedback or not; a call that
is missing in a plugin hands its buffer on. -/
structure ServerProtocol (π : Type*) where
  serverPreEncrypt : π → Bytes → π × Option Bytes
  serverPostDecrypt : RecvIv → π → Bytes → π × Option Bytes × Bool

/-- The plugins and the cipher; `protocol` is `none` for `origin`. -/
structure ServerEnv (σ π κ : Type*) where
  obfs : ServerObfs σ
  protocol : Option (ServerProtocol π)
  ivLen : ℕ
  ssEncrypt : κ → Bytes → κ × Option Bytes
  ssDecrypt : κ → Bytes → κ × Option Bytes

/-- `struct tunnel_cipher_ctx`. -/
structure TunnelCipher (σ π κ : Type*) where
  obfs : σ
  protocol : π
  cipher : κ
  recvIv : RecvIv

/-- What `tunnel_cipher_server_decrypt` returns, with `*obfs_receipt` and `*proto_confirm`. -/
structure ServerDecrypted where
  ret : Option Bytes
  obfsReceipt : Option Bytes
  protoConfirm : Option Bytes

section Calls

variable {σ π κ : Type*} (env : ServerEnv σ π κ)

def tunnelCipherServerEncrypt (tc : TunnelCipher σ π κ) (buf : Bytes) :
    TunnelCipher σ π κ × Option Bytes :=
  let p :=
    match env.protocol with
    | none => (tc.protocol, some buf)
    | some protocol => protocol.serverPreEncrypt tc.protocol buf
  let tc := { tc with protocol := p.1 }
  match p.2 with
  | none => (tc, none)
  | some ret =>
      let r := env.ssEncrypt tc.cipher ret
      let tc := { tc with cipher := r.1 }
      match r.2 with
      | none => (tc, none)
      | some ret =>
          let o := env.obfs.serverEncode tc.obfs ret
          ({ tc with obfs := o.1 }, some o.2)

/-- The bytes that `memmove(recv_iv, data(ret), iv_len)` copies; `behind` is what lies in memory
behind `ret`. -/
def copied (ivLen : ℕ) (behind : ℕ → UInt8) (ret : Bytes) : Bytes :=
  (ret ++ (List.range ivLen).map behind).take ivLen

/-- The copy of the IV; `none` when the source takes it for made. -/
def captureIv (ivLen : ℕ) (behind : ℕ → UInt8) (r : RecvIv) (ret : Bytes) : Option RecvIv :=
  if byteAt r.recvIv 0 = 0 then some ⟨copied ivLen behind ret ++ r.recvIv.drop ivLen, ivLen⟩
  else none

/-- The protocol plugin, and what it wants to confirm. -/
def postDecrypt (tc : TunnelCipher σ π κ) (ret : Bytes) : TunnelCipher σ π κ × ServerDecrypted :=
  match env.protocol with
  | none => (tc, ⟨some ret, none, none⟩)
  | some protocol =>
      let p := protocol.serverPostDecrypt tc.recvIv tc.protocol ret
      let tc := { tc with protocol := p.1 }
      if p.2.2 = true then
        let e := tunnelCipherServerEncrypt env tc []
        (e.1, ⟨p.2.1, none, e.2⟩)
      else (tc, ⟨p.2.1, none, none⟩)

/-- `tunnel_cipher_server_decrypt`; `behind` is what lies in memory behind the decoded data. -/
def tunnelCipherServerDecrypt (behind : ℕ → UInt8) (tc : TunnelCipher σ π κ) (buf : Bytes) :
    TunnelCipher σ π κ × ServerDecrypted :=
  let r := env.obfs.serverDecode tc.obfs buf
  let tc := { tc with obfs := r.1 }
  match r.2.out with
  | none => (tc, ⟨none, none, none⟩)
  | some ret =>
      if r.2.needFeedback = true then
        let e := env.obfs.serverEncode tc.obfs []
        -- `buffer_reset(ret)`
        ({ tc with obfs := e.1 }, ⟨some [], some e.2, none⟩)
      else if r.2.needDecrypt = true ∧ 0 < ret.length then
        let recvIv :=
          if env.protocol.isSome then (captureIv env.ivLen behind tc.recvIv ret).getD tc.recvIv
          else tc.recvIv
        let q := env.ssDecrypt tc.cipher ret
        let tc := { tc with recvIv := recvIv, cipher := q.1 }
        match q.2 with
        | none => (tc, ⟨none, none, none⟩)
        | some ret => postDecrypt env tc ret
      else postDecrypt env tc ret

/-- One call, with what lies in memory behind the decoded data. -/
def serverDecryptCall (tc : TunnelCipher σ π κ) (call : (ℕ → UInt8) × Bytes) :
    TunnelCipher σ π κ × ServerDecrypted := tunnelCipherServerDecrypt env call.1 tc call.2

/-- The pipeline after some calls. -/
def after (tc : TunnelCipher σ π κ) (calls : List ((ℕ → UInt8) × Bytes)) : TunnelCipher σ π κ :=
  (run (serverDecryptCall env) tc calls).1

/-- What a call hands to the cipher. -/
def decodedSegment (tc : TunnelCipher σ π κ) (call : (ℕ → UInt8) × Bytes) : Option Bytes :=
  let r := env.obfs.serverDecode tc.obfs call.2
  match r.2.out with
  | none => none
  | some ret =>
      if r.2.needFeedback = false ∧ r.2.needDecrypt = true ∧ 0 < ret.length then some ret else none

/-- What the calls of a run hand to the cipher. -/
def decodedSegments : TunnelCipher σ π κ → List ((ℕ → UInt8) × Bytes) → List Bytes
  | _, [] => []
  | tc, call :: calls =>
      (decodedSegment env tc call).toList ++
        decodedSegments (serverDecryptCall env tc call).1 calls

end Calls

/-! ## The instance of `Executive` -/

section Executive

variable (C : StreamCipher) (H : Mac 20) (info : ServerInfo) (iv : Bytes)
  (d : ServerDraws)

/-- tls1.2_ticket and a stream cipher, without a plugin; `d` are the draws of the call. -/
def tlsEnv : ServerEnv Obfs.Tls12TicketAuth.LocalData Unit (IvCache × EncCtx C × EncCtx C) where
  obfs := ⟨Obfs.Tls12TicketAuth.serverDecode H info, Obfs.Tls12TicketAuth.serverEncode H info d⟩
  protocol := none
  ivLen := C.ivLen
  ssEncrypt c buf :=
    let r := ssEncrypt C iv c.2.1 buf
    ((c.1, r.1, c.2.2), some r.2)
  ssDecrypt c buf :=
    let r := ssDecrypt C c.1 c.2.2 buf
    ((r.1, c.2.1, r.2.1), r.2.2)

def ofCtx (recvIv : RecvIv) (tc : TunnelCipherCtx C) :
    TunnelCipher Obfs.Tls12TicketAuth.LocalData Unit (IvCache × EncCtx C × EncCtx C) :=
  ⟨tc.obfs, (), (tc.ivCache, tc.eCtx, tc.dCtx), recvIv⟩

theorem tunnelCipherServerDecrypt_executive (behind : ℕ → UInt8) (recvIv : RecvIv)
    (tc : TunnelCipherCtx C) (buf : Bytes) :
    tunnelCipherServerDecrypt (tlsEnv C H info iv d) behind (ofCtx C recvIv tc) buf =
      (ofCtx C recvIv (SsrNative.tunnelCipherServerDecrypt C H info d tc buf).1,
        ⟨(SsrNative.tunnelCipherServerDecrypt C H info d tc buf).2.ret,
          (SsrNative.tunnelCipherServerDecrypt C H info d tc buf).2.obfsReceipt, none⟩) := by
  unfold tunnelCipherServerDecrypt SsrNative.tunnelCipherServerDecrypt
  simp only [tlsEnv, ofCtx]
  cases hout : (Obfs.Tls12TicketAuth.serverDecode H info tc.obfs buf).2.out with
  | none => rfl
  | some ret =>
      dsimp only
      by_cases hfeedback : (Obfs.Tls12TicketAuth.serverDecode H info tc.obfs buf).2.needFeedback = true
      · simp only [hfeedback, if_true]
      · simp only [hfeedback]
        by_cases hseg : (Obfs.Tls12TicketAuth.serverDecode H info tc.obfs buf).2.needDecrypt = true ∧
          0 < ret.length
        · simp only [hseg, and_self, if_true]
          cases (ssDecrypt C tc.ivCache tc.dCtx ret).2.2 with
          | none => rfl
          | some plain => rfl
        · simp only [hseg, if_false]
          rfl

end Executive

/-! ## The client's IV -/

section Capture

variable {σ π κ : Type*} {env : ServerEnv σ π κ} {tc : TunnelCipher σ π κ}
  {call : (ℕ → UInt8) × Bytes} {calls : List ((ℕ → UInt8) × Bytes)} {ivLen : ℕ}
  {behind : ℕ → UInt8} {r : RecvIv} {ret seg : Bytes}

theorem after_append (tc : TunnelCipher σ π κ) (calls more : List ((ℕ → UInt8) × Bytes)) :
    after env tc (calls ++ more) = after env (after env tc calls) more := by
  rw [after, run_append]
  rfl

theorem decodedSegments_append (tc : TunnelCipher σ π κ) (calls more : List ((ℕ → UInt8) × Bytes)) :
    decodedSegments env tc (calls ++ more) =
      decodedSegments env tc calls ++ decodedSegments env (after env tc calls) more := by
  induction calls generalizing tc with
  | nil => rfl
  | cons call calls ih =>
      rw [List.cons_append, decodedSegments, decodedSegments, ih, List.append_assoc]
      rfl

theorem encrypt_recvIv (tc : TunnelCipher σ π κ) (buf : Bytes) :
    (tunnelCipherServerEncrypt env tc buf).1.recvIv = tc.recvIv := by
  unfold tunnelCipherServerEncrypt
  extract_lets p u
  cases p.2 with
  | none => rfl
  | some ret =>
      dsimp only
      cases (env.ssEncrypt u.cipher ret).2 with
      | none => rfl
      | some ret => rfl

theorem postDecrypt_recvIv (tc : TunnelCipher σ π κ) (ret : Bytes) :
    (postDecrypt env tc ret).1.recvIv = tc.recvIv := by
  unfold postDecrypt
  cases env.protocol with
  | none => rfl
  | some protocol =>
      dsimp only
      split_ifs
      · rw [encrypt_recvIv]
      · rfl

/-- Only a segment that goes to the cipher can change `recv_iv`. -/
theorem recvIv_call (hprotocol : env.protocol.isSome = true) (tc : TunnelCipher σ π κ)
    (call : (ℕ → UInt8) × Bytes) :
    (serverDecryptCall env tc call).1.recvIv =
      match decodedSegment env tc call with
      | none => tc.recvIv
      | some seg => (captureIv env.ivLen call.1 tc.recvIv seg).getD tc.recvIv := by
  unfold serverDecryptCall tunnelCipherServerDecrypt decodedSegment
  dsimp only
  cases hout : (env.obfs.serverDecode tc.obfs call.2).2.out with
  | none => rfl
  | some ret =>
      dsimp only
      by_cases hfeedback : (env.obfs.serverDecode tc.obfs call.2).2.needFeedback = true
      · rw [if_pos hfeedback, if_neg (fun h => by rw [hfeedback] at h; cases h.1)]
      · have hfalse : (env.obfs.serverDecode tc.obfs call.2).2.needFeedback = false :=
          Bool.eq_false_iff.2 hfeedback
        rw [if_neg hfeedback]
        by_cases hseg : (env.obfs.serverDecode tc.obfs call.2).2.needDecrypt = true ∧ 0 < ret.length
        · rw [if_pos hprotocol, if_pos hseg, if_pos ⟨hfalse, hseg⟩]
          dsimp only
          cases (env.ssDecrypt tc.cipher ret).2 with
          | none => rfl
          | some plain => rw [postDecrypt_recvIv]
        · rw [if_neg hseg, if_neg (fun h => hseg h.2), postDecrypt_recvIv]

/-- Where the first segment of a run comes from. -/
theorem decodedSegments_cons {segs : List Bytes} (h : decodedSegments env tc calls = seg :: segs) :
    ∃ before call behindCalls, calls = before ++ call :: behindCalls ∧
      decodedSegments env tc before = [] ∧
      decodedSegment env (after env tc before) call = some seg ∧
      decodedSegments env (after env tc (before ++ [call])) behindCalls = segs := by
  induction calls generalizing tc with
  | nil => cases h
  | cons call calls ih =>
      rw [decodedSegments] at h
      cases hcall : decodedSegment env tc call with
      | none =>
          rw [hcall] at h
          obtain ⟨before, call', rest, rfl, hbefore, hseg, hsegs⟩ := ih h
          refine ⟨call :: before, call', rest, rfl, ?_, hseg, hsegs⟩
          rw [decodedSegments, hcall, hbefore]
          rfl
      | some seg' =>
          rw [hcall] at h
          obtain ⟨rfl, rfl⟩ := List.cons.inj h
          exact ⟨[], call, calls, rfl, rfl, hcall, rfl⟩

theorem copied_of_le (h : ivLen ≤ seg.length) : copied ivLen behind seg = seg.take ivLen :=
  List.take_append_of_le_length h

theorem captureIv_zeroed : captureIv ivLen behind RecvIv.zeroed seg =
    some ⟨copied ivLen behind seg ++ RecvIv.zeroed.recvIv.drop ivLen, ivLen⟩ := if_pos rfl

theorem decodedSegment_ne_nil (h : decodedSegment env tc call = some seg) : seg ≠ [] := by
  unfold decodedSegment at h
  dsimp only at h
  cases hout : (env.obfs.serverDecode tc.obfs call.2).2.out with
  | none => rw [hout] at h; cases h
  | some ret =>
      rw [hout] at h
      dsimp only at h
      split_ifs at h with hseg
      cases h
      exact List.length_pos_iff.1 hseg.2.2

/-- Calls that hand nothing to the cipher leave `recv_iv` alone. -/
theorem recvIv_quiet (hprotocol : env.protocol.isSome = true)
    (hsegs : decodedSegments env tc calls = []) : (after env tc calls).recvIv = tc.recvIv := by
  induction calls generalizing tc with
  | nil => rfl
  | cons call calls ih =>
      rw [decodedSegments, List.append_eq_nil_iff] at hsegs
      have hcall : decodedSegment env tc call = none := by
        cases hcall : decodedSegment env tc call with
        | none => rfl
        | some seg =>
            rw [hcall] at hsegs
            cases hsegs.1
      have hrest := ih hsegs.2
      rw [recvIv_call hprotocol, hcall] at hrest
      exact hrest

/-- So do all calls once its first byte is not zero. -/
theorem recvIv_kept (hprotocol : env.protocol.isSome = true) (hbyte : byteAt tc.recvIv.recvIv 0 ≠ 0) :
    (after env tc calls).recvIv = tc.recvIv := by
  induction calls generalizing tc with
  | nil => rfl
  | cons call calls ih =>
      have hcall : (serverDecryptCall env tc call).1.recvIv = tc.recvIv := by
        rw [recvIv_call hprotocol]
        cases decodedSegment env tc call with
        | none => rfl
        | some seg => simp only [captureIv, if_neg hbyte, Option.getD_none]
      have hstart : byteAt (serverDecryptCall env tc call).1.recvIv.recvIv 0 ≠ 0 := by
        rw [hcall]
        exact hbyte
      have hrest := ih hstart
      rw [hcall] at hrest
      exact hrest

/-- What the first segment leaves in `recv_iv`. -/
def captured (ivLen : ℕ) (seg : Bytes) : RecvIv :=
  ⟨seg.take ivLen ++ RecvIv.zeroed.recvIv.drop ivLen, ivLen⟩

theorem byteAt_captured (hpos : 0 < ivLen) (hseg : seg ≠ []) :
    byteAt (captured ivLen seg).recvIv 0 = byteAt seg 0 := by
  obtain ⟨b, seg, rfl⟩ := List.exists_cons_of_ne_nil hseg
  obtain ⟨n, rfl⟩ : ∃ n, ivLen = n + 1 := ⟨ivLen - 1, by omega⟩
  rfl

theorem recvIv_first (hprotocol : env.protocol.isSome = true) (hfresh : tc.recvIv = RecvIv.zeroed)
    (hbefore : decodedSegments env tc calls = [])
    (hseg : decodedSegment env (after env tc calls) call = some seg) (hlen : env.ivLen ≤ seg.length) :
    (after env tc (calls ++ [call])).recvIv = captured env.ivLen seg := by
  have hzero := (recvIv_quiet hprotocol hbefore).trans hfresh
  have hcall : (after env tc (calls ++ [call])).recvIv =
      (serverDecryptCall env (after env tc calls) call).1.recvIv :=
    congrArg TunnelCipher.recvIv (after_append tc calls [call])
  rw [hcall, recvIv_call hprotocol, hseg, hzero]
  simp only [captureIv_zeroed, Option.getD_some, copied_of_le hlen, captured]

/-- `recv_iv` after calls the first of whose segments holds the IV. -/
theorem recvIv_after (hprotocol : env.protocol.isSome = true) (hpos : 0 < env.ivLen)
    (hfresh : tc.recvIv = RecvIv.zeroed) {segs : List Bytes}
    (hsegs : decodedSegments env tc calls = seg :: segs) (hlen : env.ivLen ≤ seg.length)
    (hor : byteAt seg 0 ≠ 0 ∨ segs = []) :
    (after env tc calls).recvIv = captured env.ivLen seg := by
  obtain ⟨before, call, more, rfl, hbefore, hseg, hmore⟩ := decodedSegments_cons hsegs
  have hfirst := recvIv_first hprotocol hfresh hbefore hseg hlen
  have hcat : after env tc (before ++ call :: more) = after env (after env tc (before ++ [call])) more := by
    rw [← after_append, List.append_assoc]
    rfl
  rw [hcat, ← hfirst]
  rcases hor with hbyte | rfl
  · refine recvIv_kept hprotocol ?_
    rw [hfirst, byteAt_captured hpos (decodedSegment_ne_nil hseg)]
    exact hbyte
  · exact recvIv_quiet hprotocol hmore

/-- From the first segment on `recv_iv` is the beginning of the decoded stream; it is copied from
decoded bytes only, and once. -/
structure CapturesIv (env : ServerEnv σ π κ) (tc : TunnelCipher σ π κ)
    (calls : List ((ℕ → UInt8) × Bytes)) : Prop where
  captured : ∀ before rest, calls = before ++ rest → decodedSegments env tc before ≠ [] →
    (after env tc before).recvIv.recvIv.take env.ivLen =
        (decodedSegments env tc calls).flatten.take env.ivLen ∧
      (after env tc before).recvIv.recvIvLen = env.ivLen
  inside : ∀ before call rest seg, calls = before ++ call :: rest →
    decodedSegment env (after env tc before) call = some seg →
    captureIv env.ivLen call.1 (after env tc before).recvIv seg ≠ none → env.ivLen ≤ seg.length
  once : ∀ before call rest seg, calls = before ++ call :: rest →
    decodedSegment env (after env tc before) call = some seg → decodedSegments env tc before ≠ [] →
    0 < env.ivLen → captureIv env.ivLen call.1 (after env tc before).recvIv seg = none

/-- The first segment holds the whole IV, and the IV does not start with zero or nothing follows. -/
def IvInFirst (ivLen : ℕ) : List Bytes → Prop
  | [] => True
  | seg :: rest => ivLen ≤ seg.length ∧ (byteAt seg 0 ≠ 0 ∨ rest = [])

theorem ivInFirst_of_capturesIv (hpos : 0 < env.ivLen) (hprotocol : env.protocol.isSome = true)
    (hfresh : tc.recvIv = RecvIv.zeroed) (h : CapturesIv env tc calls) :
    IvInFirst env.ivLen (decodedSegments env tc calls) := by
  cases hsegs : decodedSegments env tc calls with
  | nil => trivial
  | cons seg segs =>
      obtain ⟨before, call, more, rfl, hbefore, hseg, hmore⟩ := decodedSegments_cons hsegs
      have hlen : env.ivLen ≤ seg.length := by
        refine h.inside before call more seg rfl hseg ?_
        rw [recvIv_quiet hprotocol hbefore, hfresh, captureIv_zeroed]
        exact Option.some_ne_none _
      have hfirst := recvIv_first hprotocol hfresh hbefore hseg hlen
      refine ⟨hlen, or_iff_not_imp_right.2 fun hne => ?_⟩
      -- a second segment finds what the first has left
      cases segs with
      | nil => exact absurd rfl hne
      | cons seg' segs =>
          obtain ⟨between, call', rest, rfl, hbetween, hseg', -⟩ := decodedSegments_cons hmore
          rw [← after_append] at hseg'
          have hleft : (after env tc (before ++ [call] ++ between)).recvIv = captured env.ivLen seg := by
            rw [after_append, recvIv_quiet hprotocol hbetween, hfirst]
          have hone : decodedSegments env tc (before ++ [call] ++ between) ≠ [] := by
            rw [decodedSegments_append, decodedSegments_append, decodedSegments, hseg]
            simp
          have honce := h.once (before ++ [call] ++ between) call' rest seg' (by simp) hseg' hone hpos
          rw [hleft, captureIv] at honce
          intro hbyte
          rw [byteAt_captured hpos (decodedSegment_ne_nil hseg), if_pos hbyte] at honce
          cases honce

theorem capturesIv_of_ivInFirst (hpos : 0 < env.ivLen) (hprotocol : env.protocol.isSome = true)
    (hfresh : tc.recvIv = RecvIv.zeroed)
    (h : IvInFirst env.ivLen (decodedSegments env tc calls)) : CapturesIv env tc calls := by
  -- a segment that is not the first one is not copied
  have hlater : ∀ before call rest seg, calls = before ++ call :: rest →
      decodedSegment env (after env tc before) call = some seg → decodedSegments env tc before ≠ [] →
      captureIv env.ivLen call.1 (after env tc before).recvIv seg = none := by
    intro before call rest seg hcalls hseg hne
    obtain ⟨first, segs, hfirst⟩ := List.exists_cons_of_ne_nil hne
    rw [hcalls, decodedSegments_append, hfirst, decodedSegments, hseg] at h
    obtain ⟨hlen, hor⟩ := h
    have hbyte : byteAt first 0 ≠ 0 := hor.resolve_right (by simp)
    rw [recvIv_after hprotocol hpos hfresh hfirst hlen (Or.inl hbyte)]
    obtain ⟨_, _, _, -, -, hc, -⟩ := decodedSegments_cons hfirst
    refine if_neg ?_
    rw [byteAt_captured hpos (decodedSegment_ne_nil hc)]
    exact hbyte
  refine ⟨?_, ?_, ?_⟩
  · intro before rest hcalls hne
    obtain ⟨first, segs, hfirst⟩ := List.exists_cons_of_ne_nil hne
    rw [hcalls, decodedSegments_append, hfirst] at h ⊢
    obtain ⟨hlen, hor⟩ := h
    have hor' : byteAt first 0 ≠ 0 ∨ segs = [] :=
      hor.imp id fun hnil => (List.append_eq_nil_iff.1 hnil).1
    rw [recvIv_after hprotocol hpos hfresh hfirst hlen hor']
    refine ⟨?_, rfl⟩
    rw [List.cons_append, List.flatten_cons, List.take_append_of_le_length hlen, captured,
      List.take_append_of_le_length (by rw [List.length_take]; omega), List.take_take, min_self]
  · intro before call rest seg hcalls hseg hcopied
    by_cases hnil : decodedSegments env tc before = []
    · rw [hcalls, decodedSegments_append, hnil, decodedSegments, hseg] at h
      exact h.1
    · exact absurd (hlater before call rest seg hcalls hseg hnil) hcopied
  · intro before call rest seg hcalls hseg hne _
    exact hlater before call rest seg hcalls hseg hne

/-- Without an IV nothing is copied. -/
theorem recvIvLen_zero (hprotocol : env.protocol.isSome = true) (hzero : env.ivLen = 0)
    (hlen : tc.recvIv.recvIvLen = 0) : (after env tc calls).recvIv.recvIvLen = 0 := by
  refine run_invariant (P := fun u : TunnelCipher σ π κ => u.recvIv.recvIvLen = 0) ?_ hlen calls
  intro tc call htc
  rw [recvIv_call hprotocol]
  cases decodedSegment env tc call with
  | none => exact htc
  | some seg =>
      simp only [captureIv]
      split_ifs
      · exact hzero
      · exact htc

/-- The IV of the client is captured, from decoded bytes and once, exactly when the first segment
holds it and it does not start with zero or nothing follows. -/
theorem recvIv_captured_iff (env : ServerEnv σ π κ) (hprotocol : env.protocol.isSome = true)
    (tc : TunnelCipher σ π κ) (hfresh : tc.recvIv = RecvIv.zeroed)
    (calls : List ((ℕ → UInt8) × Bytes)) :
    CapturesIv env tc calls ↔ env.ivLen = 0 ∨ IvInFirst env.ivLen (decodedSegments env tc calls) := by
  rcases Nat.eq_zero_or_pos env.ivLen with hzero | hpos
  · refine ⟨fun _ => Or.inl hzero, fun _ => ⟨?_, ?_, ?_⟩⟩
    · intro before rest _ _
      rw [hzero, recvIvLen_zero hprotocol hzero (by rw [hfresh]; rfl)]
      exact ⟨rfl, rfl⟩
    · intro _ _ _ seg _ _ _
      rw [hzero]
      exact Nat.zero_le _
    · intro _ _ _ _ _ _ _ hpos
      rw [hzero] at hpos
      cases hpos
  · refine ⟨fun h => Or.inr (ivInFirst_of_capturesIv hpos hprotocol hfresh h), ?_⟩
    rintro (hzero | h)
    · rw [hzero] at hpos
      cases hpos
    · exact capturesIv_of_ivInFirst hpos hprotocol hfresh h

/-- rc4-md5 and a plugin that hands everything on. -/
def sampleEnv : ServerEnv Unit Unit (IvCache × EncCtx (rc4Md5 [1, 2, 3])) where
  obfs := plainObfs
  protocol := some ⟨fun _ buf => ((), some buf), fun _ _ buf => ((), some buf, false)⟩
  ivLen := 16
  ssEncrypt ctx buf := (ctx, some buf)
  ssDecrypt ctx buf :=
    let r := ssDecrypt (rc4Md5 [1, 2, 3]) ctx.1 ctx.2 buf
    ((r.1, r.2.1), r.2.2)

def sampleCipher : TunnelCipher Unit Unit (IvCache × EncCtx (rc4Md5 [1, 2, 3])) where
  obfs := ()
  protocol := ()
  cipher := ([], ⟨none⟩)
  recvIv := RecvIv.zeroed

/-- Two reads: an IV that starts with `b` and one byte, and three bytes more. -/
def sampleCalls (b : UInt8) : List ((ℕ → UInt8) × Bytes) :=
  [(fun _ => 0, b :: List.replicate 16 7), (fun _ => 0, [1, 2, 3])]

theorem sampleCalls_segments (b : UInt8) :
    decodedSegments sampleEnv sampleCipher (sampleCalls b) = [b :: List.replicate 16 7, [1, 2, 3]] :=
  rfl

theorem recvIv_captured_iff_sample : CapturesIv sampleEnv sampleCipher (sampleCalls 5) := by
  refine (recvIv_captured_iff sampleEnv rfl sampleCipher rfl (sampleCalls 5)).2 (Or.inr ?_)
  rw [sampleCalls_segments]
  exact ⟨by decide, Or.inl (by decide)⟩

/-- An IV that starts with zero is overwritten by the second segment, and by bytes behind it. -/
theorem zero_iv_overwritten : ¬CapturesIv sampleEnv sampleCipher (sampleCalls 0) := by
  intro h
  have hsome : decodedSegments sampleEnv sampleCipher (sampleCalls 0) ≠ [] := by
    rw [sampleCalls_segments]
    exact List.cons_ne_nil _ _
  have hiv := (h.captured (sampleCalls 0) [] (List.append_nil _).symm hsome).1
  rw [sampleCalls_segments] at hiv
  revert hiv
  decide

end Capture

end Server
end SsrNative
