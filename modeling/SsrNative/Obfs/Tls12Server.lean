import SsrNative.Obfs.Tls12Ticket

/-!
# Tls12Server — the server side of the tls1.2_ticket handshake

`server_decode` sees the client's byte stream in whatever pieces TCP delivers.  The results here
say what each phase does at every length of the accumulated input, and from that, exactly which
segmentations of ClientHello and Finished complete the handshake.
-/

namespace SsrNative
namespace Obfs
namespace Tls12TicketAuth

open Bytes
open Lib.Framing
open Lib.Segments

section Server

variable (H : Mac 20) (info : ServerInfo)

/-! ## The client's handshake bytes -/

/-- The ClientHello without its record header. -/
def helloMessage (d : ClientDraws) : Bytes :=
  [0x01, 0x00] ++ (be16 (tlsVersion ++ helloBody H info d).length ++
    (tlsVersion ++ helloBody H info d))

theorem clientHello_eq (d : ClientDraws) :
    clientHello H info d =
      [0x16, 0x03, 0x01] ++ (be16 (helloMessage H info d).length ++ helloMessage H info d) := by
  simp [clientHello, helloMessage]

theorem clientHello_length (d : ClientDraws) :
    (clientHello H info d).length = (helloMessage H info d).length + 5 := by
  simp [clientHello_eq]
  omega

/-- The Finished block up to its tag. -/
def finishData (d : ClientDraws) : Bytes :=
  [0x14, 0x03, 0x03, 0x00, 0x01, 0x01] ++ ([0x16, 0x03, 0x03] ++ (be16 32 ++
    randBytes d.finishBytes 22))

theorem clientFinish_eq (d : ClientDraws) :
    clientFinish H info d =
      finishData d ++ tag H info info.gData.localClientId (finishData d) := by
  simp [clientFinish, finishData]

@[simp] theorem finishData_length (d : ClientDraws) : (finishData d).length = 33 := by
  simp [finishData]

@[simp] theorem clientFinish_length (d : ClientDraws) : (clientFinish H info d).length = 43 := by
  simp [clientFinish_eq]

/-- The two handshake blocks are what `client_encode` emits: the ClientHello on the first call, and
on the first empty call after it the Finished block in front of the queued records.  That call
completes the client's side of the handshake. -/
theorem clientEncode_handshake (d d' : ClientDraws) (buf : Bytes) :
    (clientEncode H info d localDataInit buf).2 = clientHello H info d ∧
      (clientEncode H info d' (clientEncode H info d localDataInit buf).1 []).2 =
        clientFinish H info d' ++ (if 0 < buf.length then packData buf else []) ∧
      (clientEncode H info d' (clientEncode H info d localDataInit buf).1 []).1.handshakeStatus =
        7 := by
  by_cases h : 0 < buf.length
  · simp [clientEncode, localDataInit, h]
  · simp [clientEncode, localDataInit, h]

/-- The first call emits the ClientHello, or leaves its arrays. -/
theorem clientEncodeChecked_init (d : ClientDraws) (buf : Bytes) :
    clientEncodeChecked H info d localDataInit buf =
      if HelloRoom info d then some (clientEncode H info d localDataInit buf) else none := by
  unfold clientEncodeChecked
  by_cases hroom : HelloRoom info d
  · rw [if_neg fun h => h.2.2 hroom, if_pos hroom]
  · rw [if_pos ⟨by decide, by decide, hroom⟩, if_neg hroom]

/-- A ClientHello inside its arrays, with a message whose length its 16 bits can carry. -/
structure HelloFits (d : ClientDraws) : Prop extends HelloRoom info d where
  message : (helloMessage H info d).length < 65536

theorem helloMessage_length (d : ClientDraws) :
    (helloMessage H info d).length = 105 + (helloExtensions info d).length := by
  simp [helloMessage, helloBody, tlsVersion, tlsData0]
  omega

/-- What the checks see in a message of the right shape: only the tag can still be wrong. -/
theorem checkClientHello_message {old verify sid rest : Bytes} {n : ℕ} (hv : verify.length = 32)
    (hs : sid.length = 32) (hn : n = rest.length + 67) (hlt : n < 65536) :
    checkClientHello H info old
        ([0x01, 0x00] ++ (be16 n ++ (tlsVersion ++ (verify ++ ([32] ++ (sid ++ rest)))))) =
      (sid, tag H info sid (verify.take 22) == window verify 22 10) := by
  have hsize : rdBe16 (be16 n ++ (tlsVersion ++ (verify ++ ([32] ++ (sid ++ rest))))) 0 =
      subSize (be16 n ++ (tlsVersion ++ (verify ++ ([32] ++ (sid ++ rest))))).length 2 := by
    rw [rdBe16_be16_append, Nat.mod_eq_of_lt hlt, subSize_of_le (by simp)]
    simp [tlsVersion, hv, hs]
    omega
  have hlen : (byteAt ([32] ++ (sid ++ rest)) 0).toNat = 32 := by simp [byteAt]
  have hsid : window ([32] ++ (sid ++ rest)) 1 32 = sid := window_field (by rfl) hs
  have hhead : window ([0x01, 0x00] ++ (be16 n ++ (tlsVersion ++ (verify ++ ([32] ++
      (sid ++ rest)))))) 0 2 = [0x01, 0x00] := window_zero_append (by rfl)
  have hversion : window (tlsVersion ++ (verify ++ ([32] ++ (sid ++ rest)))) 0 2 = tlsVersion :=
    window_zero_append (by rfl)
  have hverify : window (verify ++ ([32] ++ (sid ++ rest))) 0 32 = verify :=
    window_zero_append hv
  simp only [checkClientHello, hhead, shortenedTo_append (a := [0x01, 0x00]) (n := 2) (by rfl),
    shortenedTo_append (be16_length n), hsize, hversion,
    shortenedTo_append (a := tlsVersion) (n := 2) (by rfl), hverify, shortenedTo_append hv, hlen,
    hsid]
  simp

/-- Below two bytes the subtraction of `size_t` values wraps past every 16-bit length. -/
theorem rdBe16_lt_subSize {b : Bytes} (hlen : b.length < 2) : rdBe16 b 0 < subSize b.length 2 := by
  have hrd := rdBe16_lt b 0
  simp only [subSize, Nat.not_le.2 hlen, if_false]
  omega

theorem checkClientHello_short (old : Bytes) {b : Bytes} (h : b.length < 2) :
    (checkClientHello H info old b).2 = false := by
  by_cases h0 : window b 0 2 = [0x01, 0x00]
  · have hne := Nat.ne_of_lt (rdBe16_lt_subSize h)
    simp [checkClientHello, h0, shortenedTo_of_length_lt h, hne]
  · simp [checkClientHello, h0]

theorem helloMessage_eq (d : ClientDraws) :
    helloMessage H info d =
      [0x01, 0x00] ++ (be16 ((tlsData0 ++ (be16 (helloExtensions info d).length ++
        helloExtensions info d)).length + 67) ++ (tlsVersion ++
          (packAuthData H info info.gData.localClientId d.time d.authBytes ++ ([32] ++
            (info.gData.localClientId ++ (tlsData0 ++ (be16 (helloExtensions info d).length ++
              helloExtensions info d))))))) := by
  have hlen : (tlsVersion ++ helloBody H info d).length =
      (tlsData0 ++ (be16 (helloExtensions info d).length ++ helloExtensions info d)).length + 67 := by
    simp only [helloBody, tlsVersion, List.length_append, packAuthData_length, be16_length,
      GlobalData.localClientId_length, List.length_cons, List.length_nil]
    omega
  rw [helloMessage, hlen]
  simp only [helloBody, List.append_assoc]

/-- The tag inside the authentication data is right. -/
theorem tag_packAuthData (clientId : Bytes) (time : ℕ) (rnd : ℕ → UInt8) :
    tag H info clientId ((packAuthData H info clientId time rnd).take 22) =
      window (packAuthData H info clientId time rnd) 22 10 := by
  have htake : (packAuthData H info clientId time rnd).take 22 = be32 time ++ randBytes rnd 18 := by
    simp only [packAuthData]
    rw [List.take_left' (by simp)]
  have hwin : window (packAuthData H info clientId time rnd) 22 10 =
      tag H info clientId (be32 time ++ randBytes rnd 18) := by
    have h : packAuthData H info clientId time rnd = (be32 time ++ randBytes rnd 18) ++
        (tag H info clientId (be32 time ++ randBytes rnd 18) ++ []) := by
      simp [packAuthData]
    rw [h, window_field (by simp) (by simp)]
  rw [htake, hwin]

/-- A ClientHello whose length fits its 16-bit field passes every check of the server, which then
knows the client's id. -/
theorem checkClientHello_helloMessage (d : ClientDraws) (old : Bytes)
    (hfit : (helloMessage H info d).length < 65536) :
    checkClientHello H info old (helloMessage H info d) = (info.gData.localClientId, true) := by
  rw [helloMessage_length] at hfit
  rw [helloMessage_eq, checkClientHello_message H info (by simp) (by simp) rfl
    (by simp [tlsData0]; omega), tag_packAuthData]
  simp

/-! ## The phases at every length of the input -/

/-- The server has `recv`, a part of a ClientHello. -/
def helloPending (recv : Bytes) : LocalData := { localDataInit with recvBuffer := recv }

/-- The server has accepted the ClientHello and has `recv` of what follows. -/
def finishPending (recv : Bytes) : LocalData :=
  { localDataInit with
    handshakeStatus := 1
    recvBuffer := recv
    clientId := info.gData.localClientId }

/-- The server has completed the handshake and has `recv` of the data records. -/
def established (recv : Bytes) : LocalData :=
  { localDataInit with
    handshakeStatus := 5
    recvBuffer := recv
    clientId := info.gData.localClientId }

theorem serverDecode_helloPending (p seg : Bytes) :
    serverDecode H info (helloPending p) seg = serverDecodeHello H info (helloPending p) seg := by
  simp [serverDecode, helloPending, localDataInit]

theorem serverDecode_finishPending (p seg : Bytes) :
    serverDecode H info (finishPending info p) seg =
      serverDecodeFinish H info (finishPending info p) seg := by
  simp [serverDecode, finishPending, localDataInit]

section Hello

variable {H info} {d : ClientDraws} {p seg r tail : Bytes}

theorem window_of_hello (h : (p ++ seg) ++ r = clientHello H info d ++ tail)
    (hlen : 3 ≤ (p ++ seg).length) : window (p ++ seg) 0 3 = [0x16, 0x03, 0x01] := by
  rw [← window_append_left (l := r) (by omega), h, clientHello_eq, List.append_assoc]
  exact window_zero_append (by rfl)

theorem rdBe16_of_hello (h : (p ++ seg) ++ r = clientHello H info d ++ tail)
    (hlen : 5 ≤ (p ++ seg).length) :
    rdBe16 (p ++ seg) 3 = (helloMessage H info d).length % 65536 := by
  rw [← rdBe16_append_left (l := r) (by omega), h, clientHello_eq, List.append_assoc,
    List.append_assoc]
  exact rdBe16_field (by rfl)

theorem serverDecode_hello_short (hlen : (p ++ seg).length < 3) :
    serverDecode H info (helloPending p) seg =
      (helloPending (p ++ seg), ⟨some [], false, false⟩) := by
  rw [serverDecode_helloPending, serverDecodeHello]
  simp only [helloPending, hlen, if_true]

/-- With exactly three or four bytes the length check wraps around, the checks run on bytes that
have not arrived, and the connection is given up. -/
theorem serverDecode_hello_wrap (h : (p ++ seg) ++ r = clientHello H info d ++ tail)
    (hlen : (p ++ seg).length = 3 ∨ (p ++ seg).length = 4) :
    (serverDecode H info (helloPending p) seg).1.handshakeStatus = -1 := by
  have hwin := window_of_hello h (by omega)
  have hcopy : shortenedTo (p ++ seg) 3 (subSize (p ++ seg).length 3) = (p ++ seg).drop 3 :=
    shortenedTo_drop (by omega)
  have hsmall : ((p ++ seg).drop 3).length < 2 := by simp only [List.length_drop]; omega
  have hpass : ¬ rdBe16 ((p ++ seg).drop 3) 0 > subSize ((p ++ seg).drop 3).length 2 :=
    Nat.not_lt.2 (Nat.le_of_lt (rdBe16_lt_subSize hsmall))
  have hcheck := fun old => checkClientHello_short H info old hsmall
  rw [serverDecode_helloPending, serverDecodeHello]
  simp only [helloPending, localDataInit, hwin, hcopy, hpass, shortenedTo_of_length_lt hsmall,
    hcheck, Nat.not_lt.2 (show 3 ≤ (p ++ seg).length by omega), if_false, if_true, ne_eq,
    not_true_eq_false, decodeErrorReturn]

theorem serverDecode_hello_wait (h : (p ++ seg) ++ r = clientHello H info d ++ tail)
    (hfit : (helloMessage H info d).length < 65536) (hlow : 5 ≤ (p ++ seg).length)
    (hlen : (p ++ seg).length < (clientHello H info d).length) :
    serverDecode H info (helloPending p) seg =
      (helloPending (p ++ seg), ⟨some [], false, false⟩) := by
  have hwin := window_of_hello h (by omega)
  have hcopy : shortenedTo (p ++ seg) 3 (subSize (p ++ seg).length 3) = (p ++ seg).drop 3 :=
    shortenedTo_drop (by omega)
  have hrd : rdBe16 ((p ++ seg).drop 3) 0 = (helloMessage H info d).length := by
    have h5 := rdBe16_of_hello h hlow
    rw [Nat.mod_eq_of_lt hfit] at h5
    rw [← h5]
    simp [rdBe16, byteAt]
  rw [clientHello_length] at hlen
  have hwait : (helloMessage H info d).length > subSize ((p ++ seg).drop 3).length 2 := by
    simp only [List.length_drop]
    rw [subSize_of_le (by omega)]
    omega
  rw [serverDecode_helloPending, serverDecodeHello]
  simp only [helloPending, hwin, hcopy, hrd, hwait, if_true, if_false, ne_eq, not_true_eq_false,
    Nat.not_lt.2 (show 3 ≤ (p ++ seg).length by omega)]

/-- The call that completes the ClientHello. -/
theorem serverDecode_hello_full {t : Bytes} (h : p ++ seg = clientHello H info d ++ t)
    (hfit : (helloMessage H info d).length < 65536) :
    serverDecode H info (helloPending p) seg =
      if 11 ≤ t.length then
        ((serverDecodeFinish H info (finishPending info t) []).1,
          ⟨(serverDecodeFinish H info (finishPending info t) []).2.out, true, true⟩)
      else (finishPending info t, ⟨some [], false, true⟩) := by
  have hlen : (p ++ seg).length = (helloMessage H info d).length + 5 + t.length := by
    rw [h, List.length_append, clientHello_length]
  have hall : (p ++ seg) ++ [] = clientHello H info d ++ t := by rw [List.append_nil, h]
  have hwin := window_of_hello hall (by omega)
  have hmsg : p ++ seg = [0x16, 0x03, 0x01] ++ (be16 (helloMessage H info d).length ++
      (helloMessage H info d ++ t)) := by
    rw [h, clientHello_eq]
    simp
  have hcopy : shortenedTo (p ++ seg) 3 (subSize (p ++ seg).length 3) =
      be16 (helloMessage H info d).length ++ (helloMessage H info d ++ t) := by
    rw [hmsg]
    exact shortenedTo_append (by rfl)
  have hrd : rdBe16 (be16 (helloMessage H info d).length ++ (helloMessage H info d ++ t)) 0 =
      (helloMessage H info d).length := by
    rw [rdBe16_be16_append, Nat.mod_eq_of_lt hfit]
  have hpass : ¬ (helloMessage H info d).length >
      subSize (be16 (helloMessage H info d).length ++ (helloMessage H info d ++ t)).length 2 := by
    rw [subSize_of_le (by simp)]
    simp
  have hbody : shortenedTo (be16 (helloMessage H info d).length ++ (helloMessage H info d ++ t)) 2
      (helloMessage H info d).length = helloMessage H info d := by
    rw [shortenedTo_inside (by simp), List.drop_left' (by simp), List.take_left' (by rfl)]
  have hrest : shortenedTo (p ++ seg) ((helloMessage H info d).length + 5)
      (subSize (p ++ seg).length ((helloMessage H info d).length + 5)) = t := by
    rw [h]
    exact shortenedTo_append (clientHello_length H info d)
  rw [serverDecode_helloPending, serverDecodeHello]
  simp only [helloPending, localDataInit, hwin, hcopy, hrd, hpass, hbody, hrest,
    checkClientHello_helloMessage H info d _ hfit,
    Nat.not_lt.2 (show 3 ≤ (p ++ seg).length by omega), if_false, ne_eq, not_true_eq_false,
    Bool.true_eq_false, finishPending]

end Hello

section Finish

variable {H info} {d : ClientDraws} {p seg r : Bytes}

theorem serverDecode_finish_short (hlen : (p ++ seg).length < 11) :
    (serverDecode H info (finishPending info p) seg).2.out = none := by
  rw [serverDecode_finishPending, serverDecodeFinish]
  simp only [finishPending, hlen, if_true]

/-- The fixed bytes of ChangeCipherSpec and Finished, as soon as eleven bytes are there. -/
theorem finish_head {q tail : Bytes} (h : q ++ r = clientFinish H info d ++ tail)
    (hlow : 11 ≤ q.length) :
    window q 0 6 = [0x14] ++ tlsVersion ++ [0x00, 0x01, 0x01] ∧
      window q 6 4 = [0x16] ++ tlsVersion ++ [0x00] ∧ rdBe16 q 9 = 32 := by
  have hq : q ++ r = [0x14, 0x03, 0x03, 0x00, 0x01, 0x01, 0x16, 0x03, 0x03, 0x00, 0x20] ++
      (randBytes d.finishBytes 22 ++ tag H info info.gData.localClientId (finishData d) ++ tail) := by
    rw [h, clientFinish_eq]
    simp [finishData, be16]
  refine ⟨?_, ?_, ?_⟩
  · rw [← window_append_left (l := r) (by omega), hq, window_append_left (by simp)]
    rfl
  · rw [← window_append_left (l := r) (by omega), hq, window_append_left (by simp)]
    rfl
  · rw [← rdBe16_append_left (l := r) (by omega), hq, rdBe16_append_left (by simp)]
    rfl

theorem serverDecodeFinish_wait {l : LocalData} {tail : Bytes} (hp : l.recvBuffer = p)
    (h : (p ++ seg) ++ r = clientFinish H info d ++ tail) (hlow : 11 ≤ (p ++ seg).length)
    (hlen : (p ++ seg).length < 43) :
    serverDecodeFinish H info l seg =
      ({ l with recvBuffer := p ++ seg }, ⟨some [], false, false⟩) := by
  rcases finish_head h hlow with ⟨h1, h2, h3⟩
  rw [serverDecodeFinish]
  simp only [hp, h1, h2, h3, Nat.not_lt.2 hlow, show (p ++ seg).length < 32 + 1 + 10 from hlen,
    ne_eq, not_true_eq_false, if_false, if_true]

theorem serverDecodeFinish_full {l : LocalData} {t : Bytes} (hp : l.recvBuffer = p)
    (hid : l.clientId = info.gData.localClientId) (hstatus : l.handshakeStatus ||| 4 ≠ -1)
    (h : p ++ seg = clientFinish H info d ++ t) :
    serverDecodeFinish H info l seg =
      serverDecodeStreaming
        { l with recvBuffer := t, handshakeStatus := l.handshakeStatus ||| 4 } [] := by
  have hlen : (p ++ seg).length = 43 + t.length := by simp [h]
  rcases finish_head (r := []) (by simpa using h) (show 11 ≤ (p ++ seg).length by omega) with
    ⟨h1, h2, h3⟩
  have hsplit : p ++ seg = finishData d ++ (tag H info info.gData.localClientId (finishData d) ++ t) := by
    rw [h, clientFinish_eq, List.append_assoc]
  have htake : (p ++ seg).take (32 + 1) = finishData d := by
    rw [hsplit, List.take_left' (by simp)]
  have htag : window (p ++ seg) (32 + 1) 10 = tag H info info.gData.localClientId (finishData d) := by
    rw [hsplit, window_field (by simp) (by simp)]
  have hdrop : (p ++ seg).drop (32 + 1 + OBFS_HMAC_SHA1_LEN) = t := by
    rw [h, List.drop_left' (by simp [OBFS_HMAC_SHA1_LEN])]
  rw [serverDecodeFinish]
  simp only [hp, hid, h1, h2, h3, htake, htag, hdrop, hstatus,
    Nat.not_lt.2 (show 11 ≤ (p ++ seg).length by omega),
    Nat.not_lt.2 (show 32 + 1 + 10 ≤ (p ++ seg).length by omega), ne_eq, not_true_eq_false, if_false]

/-- The Finished block alone, in the state the ClientHello leaves. -/
theorem serverDecodeFinish_finishPending (h : p ++ seg = clientFinish H info d) :
    serverDecodeFinish H info (finishPending info p) seg =
      (established info [], ⟨some [], true, false⟩) := by
  have hfull : p ++ seg = clientFinish H info d ++ [] := by rw [List.append_nil, h]
  have hrecv : (finishPending info p).recvBuffer = p := rfl
  rw [serverDecodeFinish_full hrecv rfl (by simp [finishPending]) hfull]
  simp only [finishPending, established, localDataInit]
  rfl

theorem serverDecodeFinish_finishPending_wait {tail : Bytes}
    (h : (p ++ seg) ++ r = clientFinish H info d ++ tail) (hlow : 11 ≤ (p ++ seg).length)
    (hlen : (p ++ seg).length < 43) :
    serverDecodeFinish H info (finishPending info p) seg =
      (finishPending info (p ++ seg), ⟨some [], false, false⟩) :=
  serverDecodeFinish_wait rfl h hlow hlen

end Finish

/-! ## The handshake over all segmentations -/

/-- A call that reports no failure: neither `NULL` nor the error buffer, and the connection is not
switched to pass-through. -/
def CallOk (q : LocalData × Decoded) : Prop :=
  q.2.out ≠ none ∧ q.2.out ≠ some decodeErrorBuffer ∧ q.1.handshakeStatus ≠ -1

/-- The handshake is complete, the client is known and nothing is left over. -/
def HandshakeDone (l : LocalData) : Prop :=
  l.handshakeStatus &&& 4 = 4 ∧ l.clientId = info.gData.localClientId ∧ l.recvBuffer = []

/-- From state `l`, no call on these segments fails and the last one completes the handshake. -/
def HandshakeRuns (l : LocalData) (segs : List Bytes) : Prop :=
  (∀ q ∈ (run (observe (serverDecode H info)) l segs).2, CallOk q) ∧
    HandshakeDone info (run (observe (serverDecode H info)) l segs).1

/-- The segments that `server_decode` copes with, as positions in the stream of `n` ClientHello
bytes and the Finished block: none ends after three or four bytes, and one that starts behind the
ClientHello ends at least eleven bytes behind it. -/
def HandshakeCut (n b e : ℕ) : Prop := e ≠ 3 ∧ e ≠ 4 ∧ (n ≤ b → n + 11 ≤ e)

instance (n b e : ℕ) : Decidable (HandshakeCut n b e) :=
  inferInstanceAs (Decidable (e ≠ 3 ∧ e ≠ 4 ∧ (n ≤ b → n + 11 ≤ e)))

variable {H info}

theorem handshakeRuns_cons (l : LocalData) (seg : Bytes) (segs : List Bytes) :
    HandshakeRuns H info l (seg :: segs) ↔
      CallOk (serverDecode H info l seg) ∧
        HandshakeRuns H info (serverDecode H info l seg).1 segs := by
  simp only [HandshakeRuns, run_cons, observe_fst, observe_snd, List.forall_mem_cons, and_assoc]

theorem callOk_pending {l : LocalData} {f g : Bool} (h : l.handshakeStatus ≠ -1) :
    CallOk (l, ⟨some [], f, g⟩) := by
  refine ⟨by simp, fun hc => ?_, h⟩
  have hlen := congrArg List.length (Option.some.inj hc)
  rw [decodeErrorBuffer, List.length_replicate] at hlen
  exact absurd hlen (by decide)

theorem handshakeRuns_established : HandshakeRuns H info (established info []) [] := by
  simp [HandshakeRuns, HandshakeDone, established]

/-- Behind the ClientHello: the run succeeds exactly when no segment leaves fewer than eleven
bytes of the Finished block. -/
theorem handshakeRuns_finish {d : ClientDraws} {n : ℕ} (hn : 4 ≤ n) (segs : List Bytes) (p : Bytes)
    (hne : ∀ s ∈ segs, s ≠ []) (h : p ++ segs.flatten = clientFinish H info d)
    (hp : p.length < 43) :
    HandshakeRuns H info (finishPending info p) segs ↔
      Spans (HandshakeCut n) (n + p.length) segs := by
  induction segs generalizing p with
  | nil =>
      have : p.length = 43 := by simpa using congrArg List.length h
      omega
  | cons seg segs ih =>
      have hlen := congrArg List.length h
      simp only [List.flatten_cons, List.length_append, clientFinish_length] at hlen
      have hsplit : (p ++ seg) ++ segs.flatten = clientFinish H info d ++ [] := by simpa using h
      rw [handshakeRuns_cons, spans_cons]
      by_cases hlow : (p ++ seg).length < 11
      · -- fewer than eleven bytes: the call returns NULL
        have hnone : (serverDecode H info (finishPending info p) seg).2.out = none :=
          serverDecode_finish_short hlow
        simp only [List.length_append] at hlow
        have hbad : ¬ HandshakeCut n (n + p.length) (n + p.length + seg.length) := by
          intro hcut
          have := hcut.2.2 (by omega)
          omega
        simp [CallOk, hnone, hbad]
      · have hcut : HandshakeCut n (n + p.length) (n + p.length + seg.length) := by
          simp only [List.length_append] at hlow
          refine ⟨by omega, by omega, fun _ => by omega⟩
        by_cases hfull : (p ++ seg).length < 43
        · -- the block is still incomplete: the call waits
          rw [serverDecode_finishPending, serverDecodeFinish_finishPending_wait hsplit (by omega) hfull]
          have hok : CallOk (finishPending info (p ++ seg), ⟨some [], false, false⟩) :=
            callOk_pending (by simp [finishPending])
          have hrec := ih (p ++ seg) (fun s hs => hne s (List.mem_cons_of_mem _ hs))
            (by simpa using h) hfull
          rw [List.length_append, ← Nat.add_assoc] at hrec
          simp [hok, hcut, hrec]
        · -- the block is complete, and with non-empty segments this is the last one
          simp only [List.length_append] at hfull
          have hsegs : segs = [] :=
            eq_nil_of_flatten_eq_nil (fun s hs => hne s (List.mem_cons_of_mem _ hs))
              (List.eq_nil_of_length_eq_zero (by omega))
          subst hsegs
          rw [serverDecode_finishPending, serverDecodeFinish_finishPending (by simpa using h)]
          have hok : CallOk (established info [], ⟨some [], true, false⟩) :=
            callOk_pending (by simp [established])
          simp [hok, hcut, handshakeRuns_established]

/-- The whole handshake, from inside the ClientHello on. -/
theorem handshakeRuns_hello {d d' : ClientDraws} (hfit : (helloMessage H info d).length < 65536)
    (segs : List Bytes) (p : Bytes) (hne : ∀ s ∈ segs, s ≠ [])
    (h : p ++ segs.flatten = clientHello H info d ++ clientFinish H info d')
    (hp : p.length < (clientHello H info d).length) :
    HandshakeRuns H info (helloPending p) segs ↔
      Spans (HandshakeCut (clientHello H info d).length) p.length segs := by
  have hpos : 4 ≤ (clientHello H info d).length := by rw [clientHello_length]; omega
  induction segs generalizing p with
  | nil =>
      have hlen := congrArg List.length h
      simp at hlen
      omega
  | cons seg segs ih =>
      have hsplit : (p ++ seg) ++ segs.flatten = clientHello H info d ++ clientFinish H info d' := by
        simpa using h
      have hne' : ∀ s ∈ segs, s ≠ [] := fun s hs => hne s (List.mem_cons_of_mem _ hs)
      have hseg : 0 < seg.length := List.length_pos_iff.2 (hne seg (by simp))
      rw [handshakeRuns_cons, spans_cons]
      by_cases hwrap : (p ++ seg).length = 3 ∨ (p ++ seg).length = 4
      · -- the length check wraps around and the connection is given up
        have hstatus := serverDecode_hello_wrap hsplit hwrap
        simp only [List.length_append] at hwrap
        have hbad : ¬ HandshakeCut (clientHello H info d).length p.length (p.length + seg.length) := by
          rintro ⟨h3, h4, -⟩
          omega
        simp [CallOk, hstatus, hbad]
      · have hcut : HandshakeCut (clientHello H info d).length p.length (p.length + seg.length) := by
          simp only [List.length_append] at hwrap
          exact ⟨by omega, by omega, fun hb => by omega⟩
        by_cases hpart : (p ++ seg).length < (clientHello H info d).length
        · -- the ClientHello is still incomplete: the call waits
          have hstep : serverDecode H info (helloPending p) seg =
              (helloPending (p ++ seg), ⟨some [], false, false⟩) := by
            by_cases hshort : (p ++ seg).length < 3
            · exact serverDecode_hello_short hshort
            · exact serverDecode_hello_wait hsplit hfit (by omega) hpart
          have hok : CallOk (helloPending (p ++ seg), ⟨some [], false, false⟩) :=
            callOk_pending (by simp [helloPending, localDataInit])
          have hrec := ih (p ++ seg) hne' hsplit hpart
          rw [List.length_append] at hrec
          rw [hstep]
          simp [hok, hcut, hrec]
        · -- the ClientHello is complete; `t` is what came behind it
          obtain ⟨t, ht⟩ : clientHello H info d <+: p ++ seg :=
            List.prefix_of_prefix_length_le ⟨clientFinish H info d', rfl⟩ ⟨segs.flatten, hsplit⟩
              (by omega)
          have hrest : t ++ segs.flatten = clientFinish H info d' := by
            rw [← ht, List.append_assoc] at hsplit
            exact List.append_cancel_left hsplit
          have hpos' : p.length + seg.length = (clientHello H info d).length + t.length := by
            simpa using (congrArg List.length ht).symm
          rw [serverDecode_hello_full ht.symm hfit, hpos']
          rw [hpos'] at hcut
          by_cases hlow : 11 ≤ t.length
          · rw [if_pos hlow]
            by_cases hfull : t.length < 43
            · have hok : CallOk (finishPending info t, ⟨some [], true, true⟩) :=
                callOk_pending (by simp [finishPending])
              have hrest' : (t ++ []) ++ segs.flatten = clientFinish H info d' ++ [] := by
                simpa using hrest
              rw [serverDecodeFinish_finishPending_wait hrest' (by simpa using hlow)
                (by simpa using hfull)]
              simpa [hok, hcut] using handshakeRuns_finish hpos segs t hne' hrest hfull
            · have hlen := congrArg List.length hrest
              simp only [List.length_append, clientFinish_length] at hlen
              have hsegs : segs = [] :=
                eq_nil_of_flatten_eq_nil hne' (List.eq_nil_of_length_eq_zero (by omega))
              subst hsegs
              have hok : CallOk (established info [], ⟨some [], true, true⟩) :=
                callOk_pending (by simp [established])
              rw [serverDecodeFinish_finishPending (d := d') (by simpa using hrest)]
              simp [hok, hcut, handshakeRuns_established]
          · rw [if_neg hlow]
            have hok : CallOk (finishPending info t, ⟨some [], false, true⟩) :=
              callOk_pending (by simp [finishPending])
            simpa [hok, hcut] using
              handshakeRuns_finish hpos segs t hne' hrest (by omega)

/-- Exactly the segmentations that `HandshakeCut` allows complete the handshake. -/
theorem server_handshake_segmentation_iff (d d' : ClientDraws)
    (hfit : HelloFits H info d) (segs : List Bytes)
    (hne : ∀ s ∈ segs, s ≠ [])
    (hcut : segs.flatten = clientHello H info d ++ clientFinish H info d') :
    HandshakeRuns H info localDataInit segs ↔
      Spans (HandshakeCut (clientHello H info d).length) 0 segs := by
  have hpos : 0 < (clientHello H info d).length := by rw [clientHello_length]; omega
  exact handshakeRuns_hello hfit.message segs [] hne hcut hpos

/-! ## A sample connection -/

theorem sample_helloMessage_length :
    (helloMessage hmacSha1 sampleInfo sampleDraws).length = 253 := by
  rw [helloMessage_length]
  decide +kernel

theorem sample_helloFits : HelloFits hmacSha1 sampleInfo sampleDraws where
  hosts := by decide
  ticket := by decide
  message := by
    rw [sample_helloMessage_length]
    decide

/-- Delivered block by block, the sample handshake completes. -/
theorem server_handshake_segmentation_blocks :
    HandshakeRuns hmacSha1 sampleInfo localDataInit
      [clientHello hmacSha1 sampleInfo sampleDraws, clientFinish hmacSha1 sampleInfo sampleDraws] := by
  have hlen : (clientHello hmacSha1 sampleInfo sampleDraws).length = 258 := by
    rw [clientHello_length, sample_helloMessage_length]
  have hne : ∀ s ∈ [clientHello hmacSha1 sampleInfo sampleDraws,
      clientFinish hmacSha1 sampleInfo sampleDraws], s ≠ [] := by
    simp [← List.length_pos_iff, hlen]
  refine (server_handshake_segmentation_iff sampleDraws sampleDraws sample_helloFits _ hne (by simp)).2 ?_
  simp [hlen, HandshakeCut]

/-- The same bytes with the first three in a segment of their own: the handshake fails. -/
theorem server_handshake_fails_after_three_bytes :
    let stream := clientHello hmacSha1 sampleInfo sampleDraws ++
      clientFinish hmacSha1 sampleInfo sampleDraws
    let segs := [stream.take 3, stream.drop 3]
    (∀ s ∈ segs, s ≠ []) ∧ segs.flatten = stream ∧
      ¬ HandshakeRuns hmacSha1 sampleInfo localDataInit segs := by
  intro stream segs
  have hlen : stream.length = 301 := by
    simp only [stream, List.length_append, clientHello_length, clientFinish_length,
      sample_helloMessage_length]
  refine ⟨by simp [segs, ← List.length_pos_iff, hlen], by simp [segs], fun hruns => ?_⟩
  have hsplit : ([] ++ stream.take 3) ++ stream.drop 3 =
      clientHello hmacSha1 sampleInfo sampleDraws ++
        clientFinish hmacSha1 sampleInfo sampleDraws := List.take_append_drop 3 stream
  have hwrap := serverDecode_hello_wrap hsplit (by simp [hlen])
  have hcall := ((handshakeRuns_cons (helloPending []) (stream.take 3) [stream.drop 3]).1 hruns).1
  exact hcall.2.2 hwrap

end Server

end Tls12TicketAuth
end Obfs
end SsrNative
