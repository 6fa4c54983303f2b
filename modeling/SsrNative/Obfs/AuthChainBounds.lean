import SsrNative.Lib.Passes
import SsrNative.Obfs.AuthChainFrame

/-!
# AuthChainBounds — the sizes that the auth_chain receivers compute

The length of the padding comes out of a hash of bytes that the peer chose, and a receiver subtracts
it from the length of a datagram that it has not compared with it.  Over TCP the first frame to the
client is supposed to start with two bytes of `tcp_mss`.  The model of the datagrams follows
`auth_chain.c`; the keyed hash is that of an arbitrary `Suite`.
-/

namespace SsrNative
namespace Obfs
namespace AuthChain

open Bytes
open Lib.Segments
open Lib.Framing

/-! ## Reading what was received -/

/-- `len` bytes from `pos` on, both as they were computed; there are none when one of them fell below
zero or the read leaves the bytes received. -/
def received (b : Bytes) (pos len : ℤ) : Option Bytes :=
  if 0 ≤ pos ∧ 0 ≤ len ∧ pos + len ≤ b.length then some (window b pos.toNat len.toNat) else none

theorem received_eq {b : Bytes} {p n : ℤ} {pos len : ℕ} (hpos : p = pos) (hlen : n = len)
    (hin : pos + len ≤ b.length) : received b p n = some (window b pos len) := by
  subst hpos hlen
  exact if_pos ⟨by omega, by omega, by omega⟩

/-- A read at the front. -/
theorem received_take {b : Bytes} {n : ℤ} {len : ℕ} (hlen : n = len) (h : len ≤ b.length) :
    received b 0 n = some (b.take len) := by
  have hread : received b 0 n = some (window b 0 len) := received_eq rfl hlen (by omega)
  rw [hread, window_eq_take (by omega), List.drop_zero]

theorem received_eq_none {b : Bytes} {pos len : ℤ} (h : pos < 0 ∨ len < 0) :
    received b pos len = none := by
  refine if_neg fun hin => ?_
  omega

/-! ## Datagrams -/

section Datagram

variable (S : Suite)

/-- `udp_get_rand_len`. -/
def udpGetRandLen (lastHash : Bytes) : Shift128Plus × ℕ := (Shift128Plus.initFromBin lastHash).draw 127

/-- `auth_chain_a_encryptor` when it decrypts: a new cipher for each datagram. -/
def udpDecrypt (userKey hash data : Bytes) : Bytes :=
  (run S.rc4.dec (S.rc4Key (password userKey hash)) data).2

/-- `auth_chain_a_server_udp_post_decrypt`: the buffer and the user id, or neither when the check
fails.  The user id is read, and then cleared. -/
def serverUdpPostDecrypt (info : ServerInfo) (l : Context S) (b : Bytes) :
    Option (Context S × Option (Bytes × ℕ)) := do
  let msg1 ← received b (b.length - 8) 3
  let md5data := S.hmac.run msg1 info.key
  let _uid ← received b (b.length - 5) 4
  let msg2 ← received b 0 (b.length - 1)
  let check ← received b (b.length - 1) 1
  if (S.hmac.run msg2 info.key).take 1 ≠ check then return (l, none)
  let rand := udpGetRandLen md5data
  let data ← received b 0 (b.length - rand.2 - 8)
  return ({ l with sent := { l.sent with random := rand.1 } },
    some (udpDecrypt S info.key md5data data, 0))

/-- `auth_chain_a_client_udp_post_decrypt`: the bytes up to the length that it returns, which is zero
for a datagram that it does not accept. -/
def clientUdpPostDecrypt (info : ServerInfo) (l : Context S) (b : Bytes) :
    Option (Context S × Bytes) := do
  if b.length ≤ 8 then return (l, [])
  let msg ← received b 0 (b.length - 1)
  let check ← received b (b.length - 1) 1
  if (S.hmac.run msg l.userKey).take 1 ≠ check then return (l, [])
  let tag ← received b (b.length - 8) 7
  let hash := S.hmac.run tag info.key
  let rand := udpGetRandLen hash
  let data ← received b 0 (b.length - rand.2 - 8)
  return ({ l with received := { l.received with random := rand.1 } }, udpDecrypt S l.userKey hash data)

/-- The last byte of a datagram is the check of the others. -/
def UdpAccepted (key b : Bytes) : Prop :=
  (S.hmac.run (b.take (b.length - 1)) key).take 1 = window b (b.length - 1) 1

/-- The length of the padding that the `n` bytes at the eighth byte from the end stand for. -/
def paddingOf (key b : Bytes) (n : ℕ) : ℕ :=
  (udpGetRandLen (S.hmac.run (window b (b.length - 8) n) key)).2

/-- A datagram to the server has its last eight bytes, and room for the padding if it is accepted. -/
def ServerUdpSized (info : ServerInfo) (b : Bytes) : Prop :=
  8 ≤ b.length ∧ (UdpAccepted S info.key b → paddingOf S info.key b 3 + 8 ≤ b.length)

/-- A datagram to the client that is long enough to be looked at has room for the padding if it is
accepted. -/
def ClientUdpSized (info : ServerInfo) (userKey b : Bytes) : Prop :=
  8 < b.length → UdpAccepted S userKey b → paddingOf S info.key b 7 + 8 ≤ b.length

variable {S}

/-- What both receivers do last. -/
theorem received_rest_isSome_iff {b : Bytes} {rand : ℕ} {γ : Type*} (f : Bytes → γ) :
    ((received b 0 (b.length - rand - 8)).bind fun data => some (f data)).isSome = true ↔
      rand + 8 ≤ b.length := by
  by_cases hfits : rand + 8 ≤ b.length
  · have hdata : received b 0 (b.length - rand - 8) = some (window b 0 (b.length - rand - 8)) :=
      received_eq rfl (by omega) (by omega)
    rw [hdata]
    exact iff_of_true rfl hfits
  · have hdata : received b 0 ((b.length : ℤ) - rand - 8) = none :=
      received_eq_none (.inr (by omega))
    rw [hdata]
    exact iff_of_false nofun hfits

theorem serverUdpPostDecrypt_isSome_iff (info : ServerInfo) (l : Context S) (b : Bytes) :
    (serverUdpPostDecrypt S info l b).isSome = true ↔ ServerUdpSized S info b := by
  unfold serverUdpPostDecrypt ServerUdpSized
  by_cases hshort : b.length < 8
  · have hmsg : received b ((b.length : ℤ) - 8) 3 = none := received_eq_none (.inl (by omega))
    rw [hmsg]
    exact iff_of_false nofun fun h => absurd h.1 (Nat.not_le.2 hshort)
  · have hmsg : received b (b.length - 8) 3 = some (window b (b.length - 8) 3) :=
      received_eq (by omega) rfl (by omega)
    have huid : received b (b.length - 5) 4 = some (window b (b.length - 5) 4) :=
      received_eq (by omega) rfl (by omega)
    have hall : received b 0 (b.length - 1) = some (b.take (b.length - 1)) :=
      received_take (by omega) (by omega)
    have hcheck : received b (b.length - 1) 1 = some (window b (b.length - 1) 1) :=
      received_eq (by omega) rfl (by omega)
    simp only [hmsg, huid, hall, hcheck, Option.bind_eq_bind, Option.bind_some]
    rw [and_iff_right (Nat.not_lt.1 hshort)]
    by_cases haccept : UdpAccepted S info.key b
    · rw [imp_iff_right haccept]
      unfold UdpAccepted at haccept
      rw [if_neg (not_not.2 haccept)]
      exact received_rest_isSome_iff _
    · refine iff_of_true ?_ fun h => absurd h haccept
      unfold UdpAccepted at haccept
      rw [if_pos haccept]
      rfl

theorem clientUdpPostDecrypt_isSome_iff (info : ServerInfo) (l : Context S) (b : Bytes) :
    (clientUdpPostDecrypt S info l b).isSome = true ↔ ClientUdpSized S info l.userKey b := by
  unfold clientUdpPostDecrypt ClientUdpSized
  by_cases hshort : b.length ≤ 8
  · rw [if_pos hshort]
    exact iff_of_true rfl fun h => absurd hshort (Nat.not_le.2 h)
  · have hall : received b 0 (b.length - 1) = some (b.take (b.length - 1)) :=
      received_take (by omega) (by omega)
    have hcheck : received b (b.length - 1) 1 = some (window b (b.length - 1) 1) :=
      received_eq (by omega) rfl (by omega)
    have htag : received b (b.length - 8) 7 = some (window b (b.length - 8) 7) :=
      received_eq (by omega) rfl (by omega)
    rw [if_neg hshort, imp_iff_right (Nat.not_le.1 hshort)]
    simp only [htag, hall, hcheck, Option.bind_eq_bind, Option.bind_some]
    by_cases haccept : UdpAccepted S l.userKey b
    · rw [imp_iff_right haccept]
      unfold UdpAccepted at haccept
      rw [if_neg (not_not.2 haccept)]
      exact received_rest_isSome_iff _
    · refine iff_of_true ?_ fun h => absurd h haccept
      unfold UdpAccepted at haccept
      rw [if_pos haccept]
      rfl

end Datagram

/-! ## Frames to the client -/

section Frame

variable (V : Variant) (S : Suite) (userKey : Bytes)

/-- `readFrame` with every read of `recv_buffer` checked. -/
def readFrameChecked (c : Chain S) (b : Bytes) : Option (Peel (Chain S) UInt8 Unit) := do
  let front ← received b 0 2
  let dataLen := unmaskLen c.hash front
  let rand := V.getTcpRandLen dataLen c.random c.hash
  let length := dataLen + rand.2
  if 4096 ≤ length then return .halt { c with random := rand.1 } ()
  if b.length < length + 4 then return .more { c with random := rand.1 }
  let msg ← received b 0 (length + 2)
  let hash := S.hmac.run msg (frameKey userKey c.id)
  let check ← received b (length + 2) 2
  if hash.take 2 ≠ check then return .halt { c with random := rand.1 } ()
  let start := if 0 < dataLen ∧ 0 < rand.2 then getRandStartPos rand.2 rand.1 else (rand.1, 0)
  let data ← received b (2 + start.2) dataLen
  let plain := run S.rc4.dec c.cipher data
  return .took ⟨c.id + 1, hash, start.1, plain.1⟩ plain.2 (length + 4)

/-- The frame at the front of `b` passes all checks of the receive loop. -/
structure FrameAccepted (c : Chain S) (b : Bytes) : Prop where
  arrived : 4 < b.length
  limit : unmaskLen c.hash b + randLen V S c (unmaskLen c.hash b) < 4096
  whole : unmaskLen c.hash b + randLen V S c (unmaskLen c.hash b) + 4 ≤ b.length
  check : (S.hmac.run (b.take (unmaskLen c.hash b + randLen V S c (unmaskLen c.hash b) + 2))
      (frameKey userKey c.id)).take 2 =
    window b (unmaskLen c.hash b + randLen V S c (unmaskLen c.hash b) + 2) 2

/-- The data of that frame. -/
def framePlain (c : Chain S) (b : Bytes) : Bytes :=
  (run S.rc4.dec c.cipher
    (window b (2 + (foundStart V S c (unmaskLen c.hash b)).2) (unmaskLen c.hash b))).2

/-- The first frame carries `tcp_mss`. -/
def MssFits {S : Suite} (st : Chain S × ℕ) (b : Bytes) : Prop := st.1.id = 1 → 2 ≤ unmaskLen st.1.hash b

variable {V S userKey}

theorem framePlain_length (c : Chain S) (b : Bytes) :
    (framePlain V S c b).length = unmaskLen c.hash b := by
  rw [framePlain, run_snd_length, window_length]

theorem foundStart_lt (c : Chain S) (n : ℕ) :
    (foundStart V S c n).2 ≤ randLen V S c n := by
  rw [foundStart_congr (SameChain.refl c)]
  exact startPos_le c n

/-- No read of a pass leaves the buffer. -/
theorem readFrameChecked_eq (c : Chain S) {b : Bytes} (h : 2 ≤ b.length) :
    readFrameChecked V S userKey c b = some (readFrame V S userKey c b) := by
  have hfront : received b 0 2 = some (window b 0 2) := received_eq rfl rfl (by omega)
  have hlen : unmaskLen c.hash (window b 0 2) = unmaskLen c.hash b := rfl
  have hstart := foundStart_lt (V := V) c (unmaskLen c.hash b)
  unfold randLen foundStart at hstart
  unfold readFrameChecked readFrame
  simp only [hfront, hlen, Option.bind_eq_bind, Option.bind_some]
  by_cases hlimit : 4096 ≤ unmaskLen c.hash b + (V.getTcpRandLen (unmaskLen c.hash b) c.random c.hash).2
  · rw [if_pos hlimit, if_pos hlimit]
    rfl
  by_cases hwhole : b.length <
      unmaskLen c.hash b + (V.getTcpRandLen (unmaskLen c.hash b) c.random c.hash).2 + 4
  · rw [if_neg hlimit, if_neg hlimit, if_pos hwhole, if_pos hwhole]
    rfl
  rw [if_neg hlimit, if_neg hlimit, if_neg hwhole, if_neg hwhole]
  generalize hrand : V.getTcpRandLen (unmaskLen c.hash b) c.random c.hash = rand at *
  generalize hstarts : (if 0 < unmaskLen c.hash b ∧ 0 < rand.2 then getRandStartPos rand.2 rand.1
    else (rand.1, 0)) = start at *
  have hmsg : received b 0 (↑(unmaskLen c.hash b + rand.2) + 2) =
      some (b.take (unmaskLen c.hash b + rand.2 + 2)) := received_take (by omega) (by omega)
  have hcheck : received b (↑(unmaskLen c.hash b + rand.2) + 2) 2 =
      some (window b (unmaskLen c.hash b + rand.2 + 2) 2) := received_eq (by omega) rfl (by omega)
  have hdata : received b (2 + ↑start.2) ↑(unmaskLen c.hash b) =
      some (window b (2 + start.2) (unmaskLen c.hash b)) := received_eq (by omega) rfl (by omega)
  simp only [hmsg, hcheck, hdata, Option.bind_some]
  split_ifs <;> rfl

theorem readFrame_accepted {c : Chain S} {b : Bytes} (h : FrameAccepted V S userKey c b) :
    ∃ c', readFrame V S userKey c b = .took c' (framePlain V S c b)
      (unmaskLen c.hash b + randLen V S c (unmaskLen c.hash b) + 4) := by
  have hlimit := h.limit
  have hwhole := h.whole
  have hcheck := h.check
  unfold randLen at hlimit hwhole hcheck ⊢
  unfold readFrame framePlain foundStart
  dsimp only
  rw [if_neg (Nat.not_le.2 hlimit), if_neg (Nat.not_lt.2 hwhole), if_neg (not_not.2 hcheck)]
  exact ⟨_, rfl⟩

theorem readFrame_refused {c : Chain S} {b : Bytes} (harrived : 4 < b.length)
    (h : ¬ FrameAccepted V S userKey c b) :
    (∃ c', readFrame V S userKey c b = .more c') ∨ ∃ c', readFrame V S userKey c b = .halt c' () := by
  unfold readFrame
  dsimp only
  split_ifs with hlimit hwhole hcheck
  · exact .inr ⟨_, rfl⟩
  · exact .inl ⟨_, rfl⟩
  · exact .inr ⟨_, rfl⟩
  all_goals
    exact absurd ⟨harrived, Nat.not_le.1 hlimit, Nat.not_lt.1 hwhole, not_not.1 hcheck⟩ h

theorem clientRecvStep_guarded (V : Variant) (S : Suite) (userKey : Bytes) :
    Guarded (clientRecvStep V S userKey) .crash (fun st b => FrameAccepted V S userKey st.1 b) MssFits
      (fun st b => (framePlain V S st.1 b).drop (if st.1.id = 1 then 2 else 0))
      (fun st b => unmaskLen st.1.hash b + randLen V S st.1 (unmaskLen st.1.hash b) + 4) where
  refuse := by
    intro st b h
    unfold clientRecvStep
    by_cases hfront : b.length ≤ 4
    · rw [if_pos hfront]
      exact .inl ⟨st, rfl⟩
    rw [if_neg hfront]
    rcases readFrame_refused (Nat.not_le.1 hfront) h with ⟨c, hc⟩ | ⟨c, hc⟩
    · rw [hc]
      exact .inl ⟨_, rfl⟩
    · rw [hc]
      exact .inr ⟨_, _, rfl, nofun⟩
  overrun := by
    intro st b h hfits
    obtain ⟨c, hc⟩ := readFrame_accepted h
    obtain ⟨hid, hshort⟩ := Classical.not_imp.1 hfits
    rw [← framePlain_length (V := V) st.1 b] at hshort
    refine ⟨st, ?_⟩
    unfold clientRecvStep
    rw [if_neg (Nat.not_le.2 h.arrived), hc]
    dsimp only
    rw [if_pos hid, if_pos (Nat.not_le.1 hshort)]
  take := by
    intro st b h hfits
    obtain ⟨c, hc⟩ := readFrame_accepted h
    unfold clientRecvStep
    rw [if_neg (Nat.not_le.2 h.arrived), hc]
    dsimp only
    by_cases hid : st.1.id = 1
    · have hlong := hfits hid
      rw [← framePlain_length (V := V) st.1 b] at hlong
      rw [if_pos hid, if_pos hid, if_neg (Nat.not_lt.2 hlong)]
      exact ⟨_, rfl⟩
    · rw [if_neg hid, if_neg hid, List.drop_zero]
      exact ⟨_, rfl⟩
  inside := by
    intro st b h _
    refine ⟨by omega, h.whole, ?_⟩
    rw [List.length_drop, framePlain_length]
    omega

end Frame

/-! ## Calls of the client -/

section Client

variable (V : Variant) (S : Suite)

/-- A call of the client that computes no size below zero, keeps and returns no more than it held and
was given, and reads only what it received. -/
structure ClientWithin (l : Context S) (seg : Bytes) : Prop where
  sizes : WithinReceived (clientPostDecrypt V S) (fun l => l.recvBuffer.length) List.length
    (fun r => r = .crash) Returned.items? l seg
  reads : ∀ st b, Visits (clientRecvStep V S l.userKey) (l.received, l.tcpMss) (l.recvBuffer ++ seg) st b →
    4 < b.length → readFrameChecked V S l.userKey st.1 b = some (readFrame V S l.userKey st.1 b)

/-- In one call of the client: the first frame, if it passes its checks, carries two bytes. -/
def ClientSized (l : Context S) (seg : Bytes) : Prop :=
  l.recvBuffer.length + seg.length ≤ 16384 →
    ∀ st b, Visits (clientRecvStep V S l.userKey) (l.received, l.tcpMss) (l.recvBuffer ++ seg) st b →
      FrameAccepted V S l.userKey st.1 b → MssFits st b

theorem clientPostDecrypt_within_iff (l : Context S) (seg : Bytes) :
    ClientWithin V S l seg ↔ ClientSized V S l seg := by
  have hreads : ∀ st b,
      Visits (clientRecvStep V S l.userKey) (l.received, l.tcpMss) (l.recvBuffer ++ seg) st b →
      4 < b.length → readFrameChecked V S l.userKey st.1 b = some (readFrame V S l.userKey st.1 b) :=
    fun st b _ hlen => readFrameChecked_eq st.1 (by omega)
  refine (show _ ↔ _ from ⟨ClientWithin.sizes, fun h => ⟨h, hreads⟩⟩).trans ?_
  refine (clientRecvStep_guarded V S l.userKey).limited_within_iff ?_ List.length_append ?_ ?_
  · intro hlimit
    have hcall : clientPostDecrypt V S l seg = (l, .error) := if_pos hlimit
    rw [hcall]
    exact ⟨nofun, rfl⟩
  all_goals
    intro hle
    unfold clientPostDecrypt
    rw [if_neg (Nat.not_lt.2 hle)]
    dsimp only
    cases hstop : (drain (clientRecvStep V S l.userKey) ((l.recvBuffer ++ seg).length + 1)
      (l.received, l.tcpMss) (l.recvBuffer ++ seg) []).stop with
    | none => simp [Returned.items?]
    | some e => cases e <;> simp [Returned.items?]

end Client

/-- Whatever the keyed hash is: no size that a receiver computes falls below zero, and no read leaves
the bytes received, over every stream to the client exactly when its first frame carries two bytes,
and for a datagram exactly when it has its last eight bytes and, if it passes its check, the padding. -/
theorem receive_within_iff (V : Variant) (S : Suite) (info : ServerInfo) (l : Context S)
    (segs : List Bytes) (lu : Context S) (b : Bytes) :
    (Along (ClientWithin V S) (clientPostDecrypt V S) l segs ↔
      Along (ClientSized V S) (clientPostDecrypt V S) l segs) ∧
    ((serverUdpPostDecrypt S info lu b).isSome = true ↔ ServerUdpSized S info b) ∧
    ((clientUdpPostDecrypt S info lu b).isSome = true ↔ ClientUdpSized S info lu.userKey b) := by
  refine ⟨?_, ?_, ?_⟩
  · exact along_iff (clientPostDecrypt_within_iff V S) l segs
  · exact serverUdpPostDecrypt_isSome_iff info lu b
  · exact clientUdpPostDecrypt_isSome_iff info lu b

/-- A keyed hash that is always the same, and no encryption. -/
def constSuite (x : UInt8) : Suite where
  hmac := ⟨fun _ _ => List.replicate 16 x, fun _ _ => List.length_replicate ..⟩
  aes := aes128
  rc4 := ⟨Unit, fun s x => (s, x), fun s x => (s, x), fun _ _ => rfl⟩
  rc4Key _ := ()

def emptyInfo : ServerInfo := ⟨[], [], [], 0, none⟩

/-- A first frame without data; a datagram of seven bytes to the server; and datagrams of nine bytes,
in both directions, with the right check and more padding than there is room for. -/
theorem receive_outside :
    ¬ Along (ClientWithin authChainA (constSuite 0)) (clientPostDecrypt authChainA (constSuite 0))
        (contextInit (constSuite 0) 1500) [List.replicate 5 0] ∧
    ¬ (serverUdpPostDecrypt suite emptyInfo (contextInit suite 1500) (List.replicate 7 0)).isSome = true ∧
    ¬ (serverUdpPostDecrypt (constSuite 1) emptyInfo (contextInit (constSuite 1) 1500)
        (List.replicate 9 1)).isSome = true ∧
    ¬ (clientUdpPostDecrypt (constSuite 1) emptyInfo (contextInit (constSuite 1) 1500)
        (List.replicate 9 1)).isSome = true := by
  refine ⟨fun h => h.1.sizes.no_crash ?_, ?_, ?_, ?_⟩
  · rfl
  · rw [serverUdpPostDecrypt_isSome_iff]
    exact fun h => absurd h.1 (by decide)
  · rw [serverUdpPostDecrypt_isSome_iff]
    exact fun h => absurd (h.2 rfl) (by decide)
  · rw [clientUdpPostDecrypt_isSome_iff]
    exact fun h => absurd (h (by decide) rfl) (by decide)

end AuthChain
end Obfs
end SsrNative
