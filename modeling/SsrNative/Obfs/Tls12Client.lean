import SsrNative.Obfs.Tls12Records

/-!
# Tls12Client — the client side of the tls1.2_ticket handshake

`client_decode` first looks for the end of the server's answer: it tries its tag over everything
that has arrived, and if that does not match it walks over the handshake records.  The results here
say what it does at every length of the accumulated input, and from that, exactly which
segmentations of the server's stream deliver the payload.
-/

namespace SsrNative
namespace Obfs
namespace Tls12TicketAuth

open Bytes
open Lib.Framing
open Lib.Segments

/-! ## The walk over handshake records -/

/-- A record of the handshake: ChangeCipherSpec or a handshake message, with a right length. -/
structure HandshakeRecord where
  type : UInt8
  body : Bytes
  type_ok : type = 0x14 ∨ type = 0x16
  body_ne : body ≠ []
  body_lt : body.length < 65536

namespace HandshakeRecord

def bytes (r : HandshakeRecord) : Bytes := [r.type] ++ tlsVersion ++ be16 r.body.length ++ r.body

theorem bytes_eq (r : HandshakeRecord) :
    r.bytes = [r.type, 0x03, 0x03] ++ (be16 r.body.length ++ r.body) := by
  simp [bytes, tlsVersion]

@[simp] theorem bytes_length (r : HandshakeRecord) : r.bytes.length = r.body.length + 5 := by
  simp [bytes_eq]
  omega

theorem bytes_length_gt (r : HandshakeRecord) : 5 < r.bytes.length := by
  have := List.length_pos_iff.2 r.body_ne
  rw [bytes_length]
  omega

end HandshakeRecord

/-- The records one after the other. -/
def handshakeStream (rs : List HandshakeRecord) : Bytes := (rs.map HandshakeRecord.bytes).flatten

@[simp] theorem handshakeStream_nil : handshakeStream [] = [] := rfl

@[simp] theorem handshakeStream_cons (r : HandshakeRecord) (rs : List HandshakeRecord) :
    handshakeStream (r :: rs) = r.bytes ++ handshakeStream rs := rfl

section Walk

variable {a q l t : Bytes} {r : HandshakeRecord} {fuel : ℕ}

/-- The first byte of a record, as soon as it has arrived. -/
theorem byteAt_record (h : q ++ l = r.bytes ++ t) (hq : q ≠ []) :
    byteAt (a ++ q) a.length = r.type := by
  have hpos := List.length_pos_iff.2 hq
  rw [byteAt_append_right (Nat.le_refl _), Nat.sub_self, ← byteAt_append_left (l := l) hpos, h,
    HandshakeRecord.bytes_eq]
  rfl

/-- The length field of a record, as soon as its header has arrived. -/
theorem rdBe16_record (h : q ++ l = r.bytes ++ t) (hq : 5 ≤ q.length) :
    rdBe16 (a ++ q) (a.length + 3) = r.body.length := by
  rw [rdBe16_append_right (by omega), Nat.add_sub_cancel_left,
    ← rdBe16_append_left (l := l) (by omega), h, HandshakeRecord.bytes_eq, List.append_assoc,
    List.append_assoc, rdBe16_field (by rfl), Nat.mod_eq_of_lt r.body_lt]

theorem walkRecords_record :
    walkRecords (a ++ (r.bytes ++ t)) (fuel + 1) a.length =
      walkRecords (a ++ (r.bytes ++ t)) fuel (a ++ r.bytes).length := by
  have hgt := r.bytes_length_gt
  have hb : byteAt (a ++ (r.bytes ++ t)) a.length = r.type :=
    byteAt_record (List.append_nil _) (by simp [HandshakeRecord.bytes])
  have hrd : rdBe16 (a ++ (r.bytes ++ t)) (a.length + 3) = r.body.length :=
    rdBe16_record (List.append_nil _) (by simp only [List.length_append]; omega)
  have hin : a.length < (a ++ (r.bytes ++ t)).length := by
    simp only [List.length_append]
    omega
  have hhead : ¬ (a ++ (r.bytes ++ t)).length ≤ a.length + 5 := by
    simp only [List.length_append]
    omega
  have hbody : ¬ (a ++ (r.bytes ++ t)).length < (a ++ r.bytes).length := by
    simp only [List.length_append]
    omega
  have hnext : a.length + 5 + r.body.length = (a ++ r.bytes).length := by
    simp
    omega
  rw [walkRecords, if_pos ⟨hin, by rw [hb]; exact r.type_ok⟩, if_neg hhead]
  simp only [hrd, hnext, hbody, if_false]

/-- Inside a record the walk gives up. -/
theorem walkRecords_cut (h : q ++ l = r.bytes) (hq : q ≠ []) (hl : l ≠ []) :
    walkRecords (a ++ q) (fuel + 1) a.length = none := by
  have hb : byteAt (a ++ q) a.length = r.type := byteAt_record (t := []) (by simpa using h) hq
  have hin : a.length < (a ++ q).length := by simpa using List.length_pos_iff.2 hq
  rw [walkRecords, if_pos ⟨hin, by rw [hb]; exact r.type_ok⟩]
  by_cases hhead : (a ++ q).length ≤ a.length + 5
  · rw [if_pos hhead]
  · rw [List.length_append] at hhead
    have hrd : rdBe16 (a ++ q) (a.length + 3) = r.body.length :=
      rdBe16_record (t := []) (by simpa using h) (by omega)
    have hlen := congrArg List.length h
    have hpos := List.length_pos_iff.2 hl
    simp only [List.length_append, HandshakeRecord.bytes_length] at hlen
    simp only [List.length_append, hhead, hrd, if_false,
      show a.length + q.length < a.length + 5 + r.body.length by omega, if_true]

/-- The walk stops where the handshake ends, in front of nothing or of a data record. -/
theorem walkRecords_stop (ht : t = [] ∨ t.head? = some 0x17) :
    walkRecords (a ++ t) (fuel + 1) a.length = some a.length := by
  rw [walkRecords, if_neg]
  rintro ⟨hlt, htype⟩
  rcases ht with rfl | ht
  · simp at hlt
  · cases t with
    | nil => simp at ht
    | cons x t =>
        simp only [List.head?_cons, Option.some.injEq] at ht
        rw [byteAt_append_right (Nat.le_refl _), Nat.sub_self] at htype
        simp [byteAt, ht] at htype

end Walk

theorem walkRecords_full {rs : List HandshakeRecord} {a t : Bytes} {fuel : ℕ}
    (ht : t = [] ∨ t.head? = some 0x17) (hfuel : rs.length < fuel) :
    walkRecords (a ++ (handshakeStream rs ++ t)) fuel a.length =
      some (a ++ handshakeStream rs).length := by
  induction rs generalizing a fuel with
  | nil =>
      cases fuel with
      | zero => omega
      | succ fuel =>
          have hstop : walkRecords (a ++ t) (fuel + 1) a.length = some a.length :=
            walkRecords_stop ht
          simpa using hstop
  | cons r rs ih =>
      cases fuel with
      | zero => omega
      | succ fuel =>
          have hrec := ih (a := a ++ r.bytes) (by simpa using hfuel : rs.length < fuel)
          rw [handshakeStream_cons, List.append_assoc, walkRecords_record]
          simpa using hrec

/-- Before the end of the handshake the walk gives up or reports the end of the input. -/
theorem walkRecords_incomplete {rs : List HandshakeRecord} {a q l : Bytes} {fuel : ℕ}
    (h : q ++ l = handshakeStream rs) (hl : l ≠ []) (hfuel : rs.length < fuel) :
    walkRecords (a ++ q) fuel a.length = none ∨
      walkRecords (a ++ q) fuel a.length = some (a ++ q).length := by
  induction rs generalizing a q fuel with
  | nil => simp [hl] at h
  | cons r rs ih =>
      cases fuel with
      | zero => omega
      | succ fuel =>
          rw [handshakeStream_cons] at h
          by_cases hlen : r.bytes.length ≤ q.length
          · -- this record is complete
            obtain ⟨q', rfl⟩ : r.bytes <+: q :=
              List.prefix_of_prefix_length_le ⟨_, rfl⟩ ⟨l, h⟩ hlen
            have hq' : q' ++ l = handshakeStream rs := by
              rw [List.append_assoc] at h
              exact List.append_cancel_left h
            have hrec := ih (a := a ++ r.bytes) hq' (by simpa using hfuel : rs.length < fuel)
            rw [walkRecords_record]
            simpa using hrec
          · by_cases hq : q = []
            · subst hq
              have hstop : walkRecords (a ++ []) (fuel + 1) a.length = some a.length :=
                walkRecords_stop (Or.inl rfl)
              exact Or.inr (by simpa using hstop)
            · obtain ⟨m, hm⟩ : q <+: r.bytes :=
                List.prefix_of_prefix_length_le ⟨l, h⟩ ⟨_, rfl⟩ (by omega)
              have hm0 : m ≠ [] := by
                rintro rfl
                simp only [List.append_nil] at hm
                exact hlen (Nat.le_of_eq (by rw [hm]))
              exact Or.inl (walkRecords_cut hm hq hm0)

/-! ## The server's answer -/

section Client

variable (H : Mac 20) (info : ServerInfo)

/-- The records of the server's answer. -/
def serverHelloRecords (d : ServerDraws) : List HandshakeRecord :=
  let id := info.gData.localClientId
  let chunk1 := tlsVersion ++ packAuthData H info id d.time d.authBytes ++ [0x20] ++ id ++
    [0xc0, 0x2f, 0x00, 0x00, 0x05, 0xff, 0x01, 0x00, 0x01, 0x00]
  let ticketSize := d.ticketPick % 65536 % 164 * 2 + 64
  let finishLen := d.finishPick % 8 + 32
  [⟨0x16, [0x02, 0x00] ++ be16 chunk1.length ++ chunk1, Or.inr rfl, by simp,
    by simp [chunk1, id, tlsVersion]⟩] ++
  (if d.ticketGate % 8 < 1 then
    [⟨0x16, [0x04, 0x00] ++ be16 ticketSize ++ randBytes d.ticketBytes ticketSize, Or.inr rfl,
      by simp, by simp; omega⟩]
  else []) ++
  [⟨0x14, [0x01], Or.inl rfl, by simp, by simp⟩,
    ⟨0x16, randBytes d.finishBytes (finishLen - 10) ++
        tag H info id (serverHelloData H info id d), Or.inr rfl,
      by simp [← List.length_pos_iff], by simp; omega⟩]

theorem serverHelloRecords_length_le (d : ServerDraws) :
    (serverHelloRecords H info d).length ≤ 4 := by
  by_cases hgate : d.ticketGate % 8 < 1
  · simp [serverHelloRecords, hgate]
  · simp [serverHelloRecords, hgate]

/-- The answer with the data under its tag written out once. -/
theorem serverHello_eq (clientId : Bytes) (d : ServerDraws) :
    serverHello H info clientId d =
      serverHelloRecord H info clientId d ++ (serverTicketRecord d ++
        ([0x14, 0x03, 0x03, 0x00, 0x01, 0x01] ++ ([0x16, 0x03, 0x03] ++
          (be16 (d.finishPick % 8 + 32) ++ (randBytes d.finishBytes (d.finishPick % 8 + 22) ++
            tag H info clientId (serverHelloData H info clientId d)))))) := by
  have hdata : serverHelloData H info clientId d =
      serverHelloRecord H info clientId d ++ (serverTicketRecord d ++
        ([0x14, 0x03, 0x03, 0x00, 0x01, 0x01] ++ ([0x16, 0x03, 0x03] ++
          (be16 (d.finishPick % 8 + 32) ++ randBytes d.finishBytes (d.finishPick % 8 + 22))))) := by
    simp [serverHelloData, tlsVersion]
  rw [serverHello]
  nth_rewrite 1 [hdata]
  simp

theorem serverHello_eq_records (d : ServerDraws) :
    serverHello H info info.gData.localClientId d =
      handshakeStream (serverHelloRecords H info d) := by
  have hone : be16 1 = [0x00, 0x01] := rfl
  have hticket : ∀ n : ℕ, 2 + n + 1 + 1 = n + 4 := fun n => by omega
  rw [serverHello_eq]
  by_cases hgate : d.ticketGate % 8 < 1
  · simp [serverHelloRecords, serverTicketRecord, serverHelloRecord, HandshakeRecord.bytes, hgate,
      hone, hticket, tlsVersion]
  · simp [serverHelloRecords, serverTicketRecord, serverHelloRecord, HandshakeRecord.bytes, hgate,
      hone, tlsVersion]

/-- The authentication data of the answer sits behind its first eleven bytes. -/
theorem serverHello_auth (clientId : Bytes) (d : ServerDraws) :
    ∃ a t, a.length = 11 ∧ serverHello H info clientId d =
      a ++ (packAuthData H info clientId d.time d.authBytes ++ t) := by
  let chunk1 := tlsVersion ++ packAuthData H info clientId d.time d.authBytes ++ [0x20] ++
    clientId ++ [0xc0, 0x2f, 0x00, 0x00, 0x05, 0xff, 0x01, 0x00, 0x01, 0x00]
  let chunk2 := [0x02, 0x00] ++ be16 chunk1.length ++ chunk1
  have hrecord : serverHelloRecord H info clientId d =
      ([0x16] ++ tlsVersion ++ be16 chunk2.length ++ [0x02, 0x00] ++ be16 chunk1.length ++
        tlsVersion) ++ (packAuthData H info clientId d.time d.authBytes ++ ([0x20] ++ clientId ++
          [0xc0, 0x2f, 0x00, 0x00, 0x05, 0xff, 0x01, 0x00, 0x01, 0x00])) := by
    simp only [serverHelloRecord, chunk1, chunk2, List.append_assoc]
  obtain ⟨tail, htail⟩ : ∃ tail, serverHello H info clientId d =
      serverHelloRecord H info clientId d ++ tail := ⟨_, serverHello_eq H info clientId d⟩
  rw [hrecord] at htail
  refine ⟨_, _, ?_, htail.trans ((List.append_assoc _ _ _).trans
    (congrArg _ (List.append_assoc _ _ _)))⟩
  simp [tlsVersion]

theorem serverHello_length_ge (clientId : Bytes) (hid : clientId.length = 32) (d : ServerDraws) :
    86 ≤ (serverHello H info clientId d).length := by
  simp [serverHello_eq, serverHelloRecord, tlsVersion, hid]
  omega

/-! ## The decoder at every length of the input -/

/-- The client waits for the server's answer and has `recv` of it. -/
def AwaitsHello (l : LocalData) (recv : Bytes) : Prop :=
  l.handshakeStatus &&& 8 = 0 ∧ l.recvBuffer = recv

/-- The ten bytes in front of position `n` are the tag of everything before them. -/
def TagAt (stream : Bytes) (n : ℕ) : Prop :=
  window stream (n - 10) 10 = tag H info info.gData.localClientId (stream.take (n - 10))

instance (stream : Bytes) (n : ℕ) : Decidable (TagAt H info stream n) :=
  inferInstanceAs (Decidable (window stream (n - 10) 10 =
    tag H info info.gData.localClientId (stream.take (n - 10))))

/-- The state after the answer was recognised with `rest` behind it. -/
def helloSeen (l : LocalData) (rest : Bytes) : LocalData :=
  { l with recvBuffer := rest, handshakeStatus := l.handshakeStatus ||| 8 }

variable {H info} {l : LocalData} {d : ServerDraws} {p seg r tail : Bytes}

theorem ne_eight_of_and_eq_zero {s : BitVec 32} (h : s &&& 8 = 0) : ¬ s &&& 8 = 8 := by
  rw [h]
  decide

theorem or_eight_and_eight (s : BitVec 32) : (s ||| 8) &&& 8 = 8 := by
  ext i hi
  simp only [BitVec.getElem_and, BitVec.getElem_or]
  cases s[i] <;> cases (8 : BitVec 32)[i] <;> rfl

theorem clientDecode_short (hl : AwaitsHello l p) (hlen : (p ++ seg).length < 76) :
    clientDecode H info l seg = ({ l with recvBuffer := p ++ seg }, some [], false) := by
  simp only [clientDecode, ne_eight_of_and_eq_zero hl.1, hl.2, if_false,
    show (p ++ seg).length < 11 + 32 + 1 + 32 from hlen, if_true]

/-- With 76 bytes the authentication data is there, and it is right. -/
theorem serverHello_auth_ok (h : (p ++ seg) ++ r = serverHello H info info.gData.localClientId d ++ tail)
    (hlen : 76 ≤ (p ++ seg).length) :
    window (p ++ seg) 33 10 = tag H info info.gData.localClientId (window (p ++ seg) 11 22) := by
  rcases serverHello_auth H info info.gData.localClientId d with ⟨a, t, ha, hhello⟩
  have hauth : (p ++ seg) ++ r = a ++ ((be32 d.time ++ randBytes d.authBytes 18) ++
      (tag H info info.gData.localClientId (be32 d.time ++ randBytes d.authBytes 18) ++
        (t ++ tail))) := by
    rw [h, hhello]
    simp [packAuthData]
  have h22 : window (p ++ seg) 11 22 = be32 d.time ++ randBytes d.authBytes 18 := by
    rw [← window_append_left (l := r) (by omega), hauth, window_field ha (by simp)]
  have h10 : window (p ++ seg) 33 10 =
      tag H info info.gData.localClientId (be32 d.time ++ randBytes d.authBytes 18) := by
    rw [← window_append_left (l := r) (by omega), hauth, ← List.append_assoc,
      window_field (by simp [ha]) (by simp)]
  rw [h22, h10]

theorem tagAt_serverHello (H : Mac 20) (info : ServerInfo) (d : ServerDraws) :
    TagAt H info (serverHello H info info.gData.localClientId d)
      (serverHello H info info.gData.localClientId d).length := by
  have hlen : (serverHello H info info.gData.localClientId d).length - 10 =
      (serverHelloData H info info.gData.localClientId d).length := by
    simp [serverHello]
  rw [TagAt, hlen]
  have h : serverHello H info info.gData.localClientId d =
      serverHelloData H info info.gData.localClientId d ++ (tag H info info.gData.localClientId
        (serverHelloData H info info.gData.localClientId d) ++ []) := by
    simp [serverHello]
  rw [h, window_field rfl (by simp), List.take_left' rfl]

/-- Inside the answer, from 76 bytes on, the call hands back its raw input or `NULL`. -/
theorem clientDecode_inside (hl : AwaitsHello l p)
    (h : (p ++ seg) ++ r = serverHello H info info.gData.localClientId d ++ tail)
    (hlow : 76 ≤ (p ++ seg).length)
    (hlen : (p ++ seg).length < (serverHello H info info.gData.localClientId d).length)
    (hno : ¬ TagAt H info (p ++ seg) (p ++ seg).length) :
    (clientDecode H info l seg).2.1 = none ∨ (clientDecode H info l seg).2.1 = some seg := by
  have hauth := serverHello_auth_ok h hlow
  obtain ⟨m, hm⟩ : p ++ seg <+: serverHello H info info.gData.localClientId d :=
    List.prefix_of_prefix_length_le ⟨r, h⟩ ⟨tail, rfl⟩ (by omega)
  have hm0 : m ≠ [] := by
    rintro rfl
    rw [List.append_nil] at hm
    rw [hm] at hlen
    omega
  have hfuel : (serverHelloRecords H info d).length < (p ++ seg).length := by
    have := serverHelloRecords_length_le H info d
    omega
  rw [serverHello_eq_records] at hm
  have hwalk := walkRecords_incomplete (a := []) hm hm0 hfuel
  simp only [TagAt] at hno
  simp only [List.nil_append, List.length_nil] at hwalk
  rcases hwalk with hwalk | hwalk
  · right
    simp only [clientDecode, ne_eight_of_and_eq_zero hl.1, hl.2, if_false, hauth, hno, hwalk,
      show ¬ (p ++ seg).length < 11 + 32 + 1 + 32 by omega, ne_eq, not_true_eq_false]
  · left
    simp only [clientDecode, ne_eight_of_and_eq_zero hl.1, hl.2, if_false, hauth, hno, hwalk,
      show ¬ (p ++ seg).length < 11 + 32 + 1 + 32 by omega, ne_eq, not_true_eq_false,
      show ¬ (p ++ seg).length < 10 by omega, not_false_eq_true, if_true]

/-- A call at whose end the tag over everything is right takes all of it for the answer. -/
theorem clientDecode_tag (hl : AwaitsHello l p)
    (h : (p ++ seg) ++ r = serverHello H info info.gData.localClientId d ++ tail)
    (hlow : 76 ≤ (p ++ seg).length) (htag : TagAt H info (p ++ seg) (p ++ seg).length) :
    clientDecode H info l seg =
      ((clientDecodeStreaming (helloSeen l []) []).1,
        (clientDecodeStreaming (helloSeen l []) []).2, true) := by
  have hauth := serverHello_auth_ok h hlow
  have hrest : shortenedTo (p ++ seg) (p ++ seg).length
      (subSize (p ++ seg).length (p ++ seg).length) = [] := by
    rw [shortenedTo_drop (Nat.le_refl _), List.drop_length]
  rw [TagAt] at htag
  simp only [clientDecode, ne_eight_of_and_eq_zero hl.1, hl.2, if_false, hauth, htag, hrest,
    show ¬ (p ++ seg).length < 11 + 32 + 1 + 32 by omega, ne_eq, not_true_eq_false, if_true,
    helloSeen]

/-- The call that completes the answer; `t` is what came behind it. -/
theorem clientDecode_complete {t : Bytes} (hl : AwaitsHello l p)
    (h : p ++ seg = serverHello H info info.gData.localClientId d ++ t)
    (ht : t = [] ∨ t.head? = some 0x17) (hno : t ≠ [] → ¬ TagAt H info (p ++ seg) (p ++ seg).length) :
    clientDecode H info l seg =
      ((clientDecodeStreaming (helloSeen l t) []).1,
        (clientDecodeStreaming (helloSeen l t) []).2, true) := by
  have hge := serverHello_length_ge H info info.gData.localClientId (by simp) d
  have hlen : (p ++ seg).length =
      (serverHello H info info.gData.localClientId d).length + t.length := by
    rw [h, List.length_append]
  have hall : (p ++ seg) ++ [] = serverHello H info info.gData.localClientId d ++ t := by
    rw [List.append_nil, h]
  by_cases ht0 : t = []
  · -- the tag over everything that has arrived is right
    subst ht0
    have htag := tagAt_serverHello H info d
    rw [List.append_nil] at h
    rw [← h] at htag
    exact clientDecode_tag hl hall (by omega) htag
  · -- it is not, and the walk finds the end of the answer
    have hauth := serverHello_auth_ok hall (by omega)
    have hrest : shortenedTo (p ++ seg) (serverHello H info info.gData.localClientId d).length
        (subSize (p ++ seg).length (serverHello H info info.gData.localClientId d).length) = t := by
      rw [h]
      exact shortenedTo_append rfl
    have hno' := hno ht0
    rw [TagAt] at hno'
    have hrecords : (serverHelloRecords H info d).length < (p ++ seg).length := by
      have := serverHelloRecords_length_le H info d
      omega
    have hwalk : walkRecords (p ++ seg) (p ++ seg).length 0 =
        some (serverHello H info info.gData.localClientId d).length := by
      have hfull : walkRecords ([] ++ (handshakeStream (serverHelloRecords H info d) ++ t))
          (p ++ seg).length 0 = some ([] ++ handshakeStream (serverHelloRecords H info d)).length :=
        walkRecords_full (a := []) ht hrecords
      rw [List.nil_append, List.nil_append, ← serverHello_eq_records, ← h] at hfull
      exact hfull
    have htag : window (p ++ seg) ((serverHello H info info.gData.localClientId d).length - 10) 10 =
        tag H info info.gData.localClientId
          ((p ++ seg).take ((serverHello H info info.gData.localClientId d).length - 10)) := by
      have := tagAt_serverHello H info d
      rw [TagAt] at this
      rw [h, window_append_left (by omega), List.take_append_of_le_length (by omega), this]
    simp only [clientDecode, ne_eight_of_and_eq_zero hl.1, hl.2, if_false, hauth, hno', hwalk, htag,
      hrest, show ¬ (p ++ seg).length < 11 + 32 + 1 + 32 by omega, ne_eq, not_true_eq_false,
      show ¬ (serverHello H info info.gData.localClientId d).length < 10 by omega, helloSeen]

/-! ## What the server emits -/

/-- The server has accepted the client's hello and has not answered yet. -/
def AcceptedHello (info : ServerInfo) (l : LocalData) : Prop :=
  (l.handshakeStatus = 1 ∨ l.handshakeStatus = 5) ∧ l.clientId = info.gData.localClientId

/-- One call of `server_encode`, with the random choices it makes. -/
def serverCall (H : Mac 20) (info : ServerInfo) (l : LocalData) (c : ServerDraws × Bytes) :
    LocalData × Bytes := serverEncode H info c.1 l c.2

/-- The pieces that a sequence of calls puts into records. -/
def sentPieces (calls : List (ServerDraws × Bytes)) : List Bytes :=
  calls.flatMap fun c => serverPieces c.1.split c.2

theorem sentPieces_flatten (calls : List (ServerDraws × Bytes)) :
    (sentPieces calls).flatten = (calls.map Prod.snd).flatten := by
  induction calls with
  | nil => rfl
  | cons c cs ih =>
      simp only [sentPieces, List.flatMap_cons, List.flatten_append, serverPieces_flatten,
        List.map_cons, List.flatten_cons] at ih ⊢
      rw [ih]

theorem sentPieces_fits (calls : List (ServerDraws × Bytes)) :
    ∀ piece ∈ sentPieces calls, Fits piece := by
  intro piece hp
  rcases List.mem_flatMap.1 hp with ⟨c, -, hc⟩
  exact serverPieces_fits _ _ piece hc

theorem serverRecords_eq (d : ServerDraws) (buf : Bytes) :
    serverRecords d buf = recordStream (serverPieces d.split buf) := rfl

theorem serverCall_run_answered {l : LocalData} (hl : l.handshakeStatus ≠ -1)
    (h8 : l.handshakeStatus &&& 8 = 8) (calls : List (ServerDraws × Bytes)) :
    (run (serverCall H info) l calls).2.flatten = recordStream (sentPieces calls) := by
  induction calls with
  | nil => rfl
  | cons c cs ih =>
      have hc : serverCall H info l c = (l, serverRecords c.1 c.2) := by
        simp only [serverCall, serverEncode, hl, h8, if_false, if_true]
      rw [run_cons, hc, List.flatten_cons, ih]
      simp [sentPieces, serverRecords_eq]

/-- The server's byte stream: its answer, then a record for every piece. -/
theorem serverCall_run {l : LocalData} (hl : AcceptedHello info l) (c : ServerDraws × Bytes)
    (cs : List (ServerDraws × Bytes)) :
    (run (serverCall H info) l (c :: cs)).2.flatten =
      serverHello H info info.gData.localClientId c.1 ++ recordStream (sentPieces (c :: cs)) := by
  have hc : ∃ l', serverCall H info l c = (l', serverHello H info info.gData.localClientId c.1 ++
      recordStream (serverPieces c.1.split c.2)) ∧ l'.handshakeStatus ≠ -1 ∧
        l'.handshakeStatus &&& 8 = 8 := by
    refine ⟨{ l with handshakeStatus := l.handshakeStatus ||| 8 }, ?_, ?_⟩
    · rcases hl.1 with h | h <;> by_cases hbuf : 0 < c.2.length
      all_goals simp [serverCall, serverEncode, h, hbuf, hl.2, serverRecords_eq]
      all_goals
        have hnil : c.2 = [] := by simpa using hbuf
        simp [hnil, serverPieces, splitLoop]
    · rcases hl.1 with h | h <;> simp [h]
  rcases hc with ⟨l', hcall, h1, h8⟩
  rw [run_cons, hcall, List.flatten_cons, serverCall_run_answered h1 h8]
  simp [sentPieces]

/-! ## Delivery over all segmentations -/

/-- Everything the calls returned. -/
def returned (outs : List (Option Bytes × Bool)) : Bytes := delivered (outs.map Prod.fst)

/-- No call returns `NULL`; nothing is returned before more than `n` bytes have arrived; exactly one
call asks for the answer to be sent back; together the calls return the payload. -/
structure ClientDelivers (H : Mac 20) (info : ServerInfo) (l : LocalData) (n : ℕ)
    (segs : List Bytes) (payload : Bytes) : Prop where
  no_null : ∀ q ∈ (run (clientDecode H info) l segs).2, q.1 ≠ none
  no_handshake_byte : ∀ pre, pre <+: segs → pre.flatten.length ≤ n →
    returned (run (clientDecode H info) l pre).2 = []
  one_sendback : (run (clientDecode H info) l segs).2.countP Prod.snd = 1
  returned_eq : returned (run (clientDecode H info) l segs).2 = payload

/-- The segment ends that `client_decode` copes with when the answer has `n` bytes. -/
def AnswerCut (n _b e : ℕ) : Prop := e < 76 ∨ n ≤ e

instance (n b e : ℕ) : Decidable (AnswerCut n b e) :=
  inferInstanceAs (Decidable (e < 76 ∨ n ≤ e))

/-- At the end of the segment no ten bytes look like the final tag by accident. -/
def NoStrayTag (H : Mac 20) (info : ServerInfo) (stream : Bytes) (n _b e : ℕ) : Prop :=
  76 ≤ e → e ≠ n → ¬ TagAt H info stream e

instance (stream : Bytes) (n b e : ℕ) : Decidable (NoStrayTag H info stream n b e) :=
  inferInstanceAs (Decidable (76 ≤ e → e ≠ n → ¬ TagAt H info stream e))

theorem tagAt_of_append {q stream : Bytes} (h : q ++ r = stream) (hlen : 10 ≤ q.length) :
    TagAt H info q q.length ↔ TagAt H info stream q.length := by
  subst h
  rw [TagAt, TagAt, window_append_left (by omega), List.take_append_of_le_length (by omega)]

/-- A call that only waits. -/
theorem clientDelivers_cons_wait {l' : LocalData} {n : ℕ} {segs : List Bytes} {payload : Bytes}
    (h : clientDecode H info l seg = (l', some [], false)) (hlen : seg.length ≤ n) :
    ClientDelivers H info l n (seg :: segs) payload ↔
      ClientDelivers H info l' (n - seg.length) segs payload := by
  -- a call that returns nothing shifts the segments by one
  have hrun : ∀ ss, (run (clientDecode H info) l (seg :: ss)).2 =
      (some [], false) :: (run (clientDecode H info) l' ss).2 := by
    intro ss
    rw [run_cons, h]
  have hret : ∀ ss, returned (run (clientDecode H info) l (seg :: ss)).2 =
      returned (run (clientDecode H info) l' ss).2 := by
    intro ss
    simp [hrun, returned]
  constructor
  · rintro ⟨h1, h2, h3, h4⟩
    refine ⟨?_, ?_, ?_, ?_⟩
    · intro q hq
      exact h1 q (by rw [hrun]; exact List.mem_cons_of_mem _ hq)
    · intro pre hpre hle
      rw [← hret]
      refine h2 (seg :: pre) (List.cons_prefix_cons.2 ⟨rfl, hpre⟩) ?_
      simp only [List.flatten_cons, List.length_append]
      omega
    · simpa [hrun] using h3
    · rw [← hret]
      exact h4
  · rintro ⟨h1, h2, h3, h4⟩
    refine ⟨?_, ?_, ?_, ?_⟩
    · intro q hq
      rw [hrun, List.mem_cons] at hq
      rcases hq with rfl | hq
      · simp
      · exact h1 q hq
    · intro pre hpre hle
      cases pre with
      | nil => rfl
      | cons x pre =>
          rcases List.cons_prefix_cons.1 hpre with ⟨rfl, hpre'⟩
          rw [hret]
          refine h2 pre hpre' ?_
          simp only [List.flatten_cons, List.length_append] at hle
          omega
    · simpa [hrun] using h3
    · rw [hret]
      exact h4

/-- From the call that completes the answer on, every cut delivers all the payload. -/
theorem clientDelivers_complete {n : ℕ} {segs pieces : List Bytes} {t : Bytes}
    (hfit : ∀ piece ∈ pieces, Fits piece) (hne : ∀ s ∈ segs, s ≠ [])
    (h : t ++ segs.flatten = recordStream pieces) (hn : seg.length ≤ n → t = [] ∧ seg.length = n)
    (hcall : clientDecode H info l seg =
      ((clientDecodeStreaming (helloSeen l t) []).1,
        (clientDecodeStreaming (helloSeen l t) []).2, true)) :
    ClientDelivers H info l n (seg :: segs) pieces.flatten := by
  -- the rest of the run is a run of the record loop that starts with an empty input
  have hstream : t ++ ([] :: segs).flatten = recordStream pieces := by simpa using h
  rcases clientRecordStep_recordLoop.feed_run hfit hstream (by simp) with ⟨outs, hrun, hall, hout⟩
  let out : List UInt8 × Option Unit → Option Bytes × Bool :=
    fun o => (if o.2 = none then some o.1 else none, false)
  have hstep : ∀ (l' : LocalData) (f : Unit × Bytes), ∀ s ∈ segs,
      l'.handshakeStatus &&& 8 = 8 ∧ l'.recvBuffer = f.2 →
        ((clientDecode H info l' s).1.handshakeStatus &&& 8 = 8 ∧
          (clientDecode H info l' s).1.recvBuffer = (feed clientRecordStep f s).1.2) ∧
        (clientDecode H info l' s).2 = out (feed clientRecordStep f s).2 := by
    rintro l' ⟨⟨⟩, recv⟩ s - ⟨h8, hrecv⟩
    simp only [clientDecode, h8, if_true, clientDecodeStreaming, hrecv, out, and_self]
  have hsim := run_sim _ out hstep
    (s := (clientDecodeStreaming (helloSeen l t) []).1)
    (t := (feed clientRecordStep ((), t) []).1)
    ⟨or_eight_and_eight l.handshakeStatus, rfl⟩
  rw [run_cons] at hrun
  have houts : outs = (feed clientRecordStep ((), t) []).2 ::
      (run (feed clientRecordStep) (feed clientRecordStep ((), t) []).1 segs).2 :=
    (congrArg Prod.snd hrun).symm
  have hfirst : (feed clientRecordStep ((), t) []).2.2 = none := hall _ (by simp [houts])
  have hlater : ∀ q ∈ (run (feed clientRecordStep) (feed clientRecordStep ((), t) []).1 segs).2,
      q.2 = none := fun q hq => hall q (by rw [houts]; exact List.mem_cons_of_mem _ hq)
  have hdecode : (run (clientDecode H info) l (seg :: segs)).2 =
      (some (feed clientRecordStep ((), t) []).2.1, true) ::
        (run (feed clientRecordStep) (feed clientRecordStep ((), t) []).1 segs).2.map
          (fun o => (some o.1, false)) := by
    rw [run_cons, hcall, hsim.2]
    simp only [clientDecodeStreaming, helloSeen, hfirst, if_true, List.cons.injEq, true_and]
    refine List.map_congr_left fun q hq => ?_
    simp [out, hlater q hq]
  refine ⟨?_, ?_, ?_, ?_⟩
  · intro q hq
    rw [hdecode, List.mem_cons, List.mem_map] at hq
    rcases hq with rfl | ⟨o, -, rfl⟩ <;> simp
  · intro pre hpre hle
    cases pre with
    | nil => rfl
    | cons x pre =>
        rcases List.cons_prefix_cons.1 hpre with ⟨rfl, hpre'⟩
        simp only [List.flatten_cons, List.length_append] at hle
        rcases hn (by omega) with ⟨rfl, hseg⟩
        have hpre0 : pre = [] := eq_nil_of_flatten_eq_nil
          (fun s hs => hne s (hpre'.subset hs)) (List.eq_nil_of_length_eq_zero (by omega))
        subst hpre0
        rw [run_cons, hcall]
        rfl
  · rw [hdecode]
    simp [List.countP_map, Function.comp_def]
  · rw [hdecode, ← hout, houts]
    simp [returned, Function.comp_def]

/-- Before the end of the answer: delivery succeeds exactly for the cuts that `AnswerCut` allows. -/
theorem clientDelivers_iff {segs pieces : List Bytes} (hfit : ∀ piece ∈ pieces, Fits piece)
    (hne : ∀ s ∈ segs, s ≠ [])
    (h : p ++ segs.flatten =
      serverHello H info info.gData.localClientId d ++ recordStream pieces)
    (hp : p.length < (serverHello H info info.gData.localClientId d).length)
    (hl : AwaitsHello l p)
    (hno : Spans (NoStrayTag H info (serverHello H info info.gData.localClientId d ++
      recordStream pieces) (serverHello H info info.gData.localClientId d).length) p.length segs) :
    ClientDelivers H info l ((serverHello H info info.gData.localClientId d).length - p.length) segs
        pieces.flatten ↔
      Spans (AnswerCut (serverHello H info info.gData.localClientId d).length) p.length segs := by
  generalize hhello : serverHello H info info.gData.localClientId d = hello at h hp hno ⊢
  induction segs generalizing p l with
  | nil =>
      have hlen := congrArg List.length h
      simp only [List.flatten_nil, List.append_nil, List.length_append] at hlen
      omega
  | cons seg segs ih =>
      have hsplit : (p ++ seg) ++ segs.flatten = hello ++ recordStream pieces := by simpa using h
      have hne' : ∀ s ∈ segs, s ≠ [] := fun s hs => hne s (List.mem_cons_of_mem _ hs)
      rw [spans_cons] at hno ⊢
      rw [← List.length_append] at hno ⊢
      by_cases hshort : (p ++ seg).length < 76
      · -- the call waits
        have hge := serverHello_length_ge H info info.gData.localClientId (by simp) d
        rw [hhello] at hge
        have hlen : p.length + seg.length = (p ++ seg).length := by simp
        have hcut : AnswerCut hello.length p.length (p ++ seg).length := Or.inl hshort
        have hrec := ih (p := p ++ seg) (l := { l with recvBuffer := p ++ seg }) hne' ⟨hl.1, rfl⟩
          hsplit (by omega) hno.2
        rw [clientDelivers_cons_wait (clientDecode_short hl hshort) (by omega),
          show hello.length - p.length - seg.length = hello.length - (p ++ seg).length by omega, hrec]
        simp only [hcut, true_and]
      · by_cases hin : (p ++ seg).length < hello.length
        · -- the call leaks its input or returns NULL
          have hcut : ¬ AnswerCut hello.length p.length (p ++ seg).length := by
            simp only [AnswerCut]
            omega
          have hstray : ¬ TagAt H info (p ++ seg) (p ++ seg).length := by
            rw [tagAt_of_append hsplit (by omega)]
            exact hno.1 (by omega) (by omega)
          have hbad := clientDecode_inside hl
            (show (p ++ seg) ++ segs.flatten =
              serverHello H info info.gData.localClientId d ++ recordStream pieces by
                rw [hhello, hsplit]) (by omega) (by rw [hhello]; exact hin) hstray
          simp only [hcut, false_and, iff_false]
          intro hdel
          rcases hbad with hnone | hleak
          · exact hdel.no_null _ (by rw [run_cons]; exact List.mem_cons_self) hnone
          · have hzero := hdel.no_handshake_byte [seg] (by simp) (by
              simp only [List.flatten_cons, List.flatten_nil, List.append_nil]
              rw [List.length_append] at hin
              omega)
            rw [run_cons] at hzero
            simp only [run_nil, returned, hleak, List.map_cons, List.map_nil, delivered_cons,
              delivered_nil, Option.getD_some, List.append_nil] at hzero
            exact hne seg (by simp) hzero
        · -- the answer is complete
          have hcut : AnswerCut hello.length p.length (p ++ seg).length := by
            simp only [AnswerCut]
            omega
          have hrest : Spans (AnswerCut hello.length) (p ++ seg).length segs :=
            spans_of_le (fun _ _ he => Or.inr he) (by omega) segs
          obtain ⟨t, ht⟩ : hello <+: p ++ seg :=
            List.prefix_of_prefix_length_le ⟨recordStream pieces, rfl⟩ ⟨segs.flatten, hsplit⟩
              (by omega)
          have ht' : t ++ segs.flatten = recordStream pieces := by
            rw [← ht, List.append_assoc] at hsplit
            exact List.append_cancel_left hsplit
          have hlent : (p ++ seg).length = hello.length + t.length := by rw [← ht, List.length_append]
          have hcall := clientDecode_complete hl
            (show p ++ seg = serverHello H info info.gData.localClientId d ++ t by
              rw [hhello, ht]) (head_recordStream ht') (by
              intro ht0
              have := List.length_pos_iff.2 ht0
              rw [tagAt_of_append hsplit (by omega)]
              exact hno.1 (by omega) (by omega))
          have hdel := clientDelivers_complete (n := hello.length - p.length) hfit hne' ht' (by
              rw [List.length_append] at hlent
              intro hle
              exact ⟨List.eq_nil_of_length_eq_zero (by omega), by omega⟩) hcall
          exact iff_of_true hdel ⟨hcut, hrest⟩

/-- A segment that ends inside the answer, with 76 bytes or more of it, is the only thing that
breaks the client's side, whatever data follows the answer and however that is cut. -/
theorem client_handshake_segmentation_iff {ls lc : LocalData} (hs : AcceptedHello info ls)
    (hc : AwaitsHello lc []) (c : ServerDraws × Bytes) (cs : List (ServerDraws × Bytes))
    (segs : List Bytes) (hne : ∀ s ∈ segs, s ≠ [])
    (hcut : segs.flatten = (run (serverCall H info) ls (c :: cs)).2.flatten)
    (hno : Spans (NoStrayTag H info segs.flatten
      (serverHello H info info.gData.localClientId c.1).length) 0 segs) :
    ClientDelivers H info lc (serverHello H info info.gData.localClientId c.1).length segs
        ((c :: cs).map Prod.snd).flatten ↔
      Spans (AnswerCut (serverHello H info info.gData.localClientId c.1).length) 0 segs := by
  rw [serverCall_run hs] at hcut
  rw [hcut] at hno
  have hpos : ([] : Bytes).length < (serverHello H info info.gData.localClientId c.1).length := by
    have := serverHello_length_ge H info info.gData.localClientId (by simp) c.1
    simp only [List.length_nil]
    omega
  have hiff := clientDelivers_iff (p := []) (sentPieces_fits (c :: cs)) hne (by simpa using hcut) hpos
    hc hno
  rw [sentPieces_flatten] at hiff
  exact hiff

end Client

/-! ## A sample connection -/

/-- The server that has accepted the sample client. -/
def sampleServer : LocalData :=
  { localDataInit with handshakeStatus := 5, clientId := sampleInfo.gData.localClientId }

/-- The answer and one record with the payload `1, 2`. -/
def sampleAnswer : List Bytes :=
  (run (serverCall hmacSha1 sampleInfo) sampleServer [(sampleServerDraws, []),
    (sampleServerDraws, [1, 2])]).2

/-- Delivered as the server wrote it, the sample payload arrives. -/
theorem client_handshake_segmentation_blocks :
    ClientDelivers hmacSha1 sampleInfo localDataInit 129 sampleAnswer [1, 2] := by
  have hn : (serverHello hmacSha1 sampleInfo sampleInfo.gData.localClientId
      sampleServerDraws).length = 129 := by decide +kernel
  have hne : ∀ s ∈ sampleAnswer, s ≠ [] := by decide
  have hno : Spans (NoStrayTag hmacSha1 sampleInfo sampleAnswer.flatten 129) 0 sampleAnswer := by
    decide +kernel
  have hcut : Spans (AnswerCut 129) 0 sampleAnswer := by decide +kernel
  have hserver : AcceptedHello sampleInfo sampleServer := ⟨Or.inr rfl, rfl⟩
  have hclient : AwaitsHello localDataInit [] := ⟨by decide, rfl⟩
  have hstream : sampleAnswer.flatten = (run (serverCall hmacSha1 sampleInfo) sampleServer
      [(sampleServerDraws, []), (sampleServerDraws, [1, 2])]).2.flatten := rfl
  have hiff := client_handshake_segmentation_iff hserver hclient (sampleServerDraws, [])
    [(sampleServerDraws, [1, 2])] sampleAnswer hne hstream
  rw [hn] at hiff
  exact (hiff hno).2 hcut

/-- The same bytes with a first segment of 100: the client takes handshake bytes for payload. -/
theorem client_handshake_leaks_after_hundred_bytes :
    let stream := sampleAnswer.flatten
    let segs := [stream.take 100, stream.drop 100]
    (∀ s ∈ segs, s ≠ []) ∧ segs.flatten = stream ∧
      ¬ ClientDelivers hmacSha1 sampleInfo localDataInit 129 segs [1, 2] := by
  intro stream segs
  have hleak : returned (run (clientDecode hmacSha1 sampleInfo) localDataInit
      [stream.take 100]).2 ≠ [] := by decide +kernel
  refine ⟨by decide, by simp [segs], fun hdel => ?_⟩
  refine hleak (hdel.no_handshake_byte [stream.take 100] (by simp [segs]) ?_)
  simp only [List.flatten_cons, List.flatten_nil, List.append_nil, List.length_take]
  omega

end Tls12TicketAuth
end Obfs
end SsrNative
