import SsrNative.Obfs.AuthAes128

/-!
# AuthAes128Stream — segmentation of the auth_aes128 streams

Client to server, every way of cutting the emitted bytes into segments delivers the payloads.  The
authentication frame is the header of the stream and the data frames follow it (`Lib.Framing`).
-/

namespace SsrNative
namespace Obfs
namespace AuthAes128

open Bytes
open Lib.Segments
open Lib.Framing

/-! ## Data frames -/

theorem padding_length {randLen : ℕ} (h : 1 ≤ randLen) (pad : ℕ → UInt8) :
    (padding randLen pad).length = randLen := by
  rw [padding]
  split
  · simp only [List.length_cons, List.length_drop, randBytes_length]
    omega
  · simp only [List.length_append, List.length_cons, List.length_nil, List.length_drop,
      randBytes_length]
    omega

/-- The length field at the front of the padding. -/
theorem padding_read {randLen : ℕ} (hmax : randLen < 65536) (pad : ℕ → UInt8) (l : Bytes) :
    (if (byteAt (padding randLen pad ++ l) 0).toNat < 255 then
        (byteAt (padding randLen pad ++ l) 0).toNat + 4
      else rdLe16 (padding randLen pad ++ l) 1 + 4) = randLen + 4 := by
  by_cases h : randLen < 128
  · have hbyte : (byteAt (padding randLen pad ++ l) 0).toNat = randLen := by
      rw [padding, if_pos h]
      have hval : (UInt8.ofNat randLen).toNat = randLen := by
        rw [UInt8.toNat_ofNat']
        omega
      exact hval
    rw [hbyte, if_pos (by omega)]
  · have hfield : padding randLen pad ++ l =
        [0xFF] ++ (le16 randLen ++ ((randBytes pad randLen).drop 3 ++ l)) := by
      rw [padding, if_neg h]
      rfl
    have hlen : rdLe16 (padding randLen pad ++ l) 1 = randLen := by
      rw [hfield, rdLe16_field (show List.length [(0xFF : UInt8)] = 1 from rfl)]
      omega
    have hbyte : (byteAt (padding randLen pad ++ l) 0).toNat = 255 := by
      rw [hfield]
      rfl
    rw [hbyte, hlen, if_neg (by omega)]

section Frame

variable (S : Suite) (key : Bytes) {randLen : ℕ} (pad : ℕ → UInt8) (data : Bytes)

/-- A data frame up to its checksum. -/
def frameBody (randLen : ℕ) : Bytes :=
  le16 (randLen + data.length + 8) ++
    ((S.hmac.run (le16 (randLen + data.length + 8)) key).take 2 ++ (padding randLen pad ++ data))

theorem dataFrame_eq : dataFrame S key randLen pad data =
    frameBody S key pad data randLen ++ (S.hmac.run (frameBody S key pad data randLen) key).take 4 :=
  rfl

variable {S key} in
theorem mac_take_length {n : ℕ} (h : n ≤ 6) (msg : Bytes) : ((S.hmac.run msg key).take n).length = n := by
  have hsize := S.size_le
  rw [List.length_take, S.hmac.run_length]
  omega

theorem frameBody_length (h : 1 ≤ randLen) :
    (frameBody S key pad data randLen).length = randLen + data.length + 4 := by
  simp only [frameBody, List.length_append, le16_length, padding_length h,
    mac_take_length (show 2 ≤ 6 by omega)]
  omega

theorem dataFrame_length (h : 1 ≤ randLen) :
    (dataFrame S key randLen pad data).length = randLen + data.length + 8 := by
  rw [dataFrame_eq, List.length_append, frameBody_length S key pad data h, mac_take_length (by omega)]

end Frame

/-- A frame as the client makes them: the padding has its length, and the whole frame stays below
the limit of the server. -/
structure FrameFits (randLen : ℕ) (data : Bytes) : Prop where
  rand_pos : 1 ≤ randLen
  size_lt : randLen + data.length + 8 < 8192

section Step

variable {S : Suite} {userKey : Bytes} {st : UInt32 × Bool} {randLen : ℕ} {pad : ℕ → UInt8}
  {data : Bytes}

/-- The first checks of a pass, on any bytes that start like the frame. -/
theorem recvStep_of_cat (hfits : FrameFits randLen data) {b r t : Bytes}
    (hcat : b ++ r = dataFrame S (frameKey userKey st.1) randLen pad data ++ t)
    (hlen : 4 < b.length) :
    recvStep S userKey st b =
      if b.length < randLen + data.length + 8 then .more st
      else if (S.hmac.run (b.take (randLen + data.length + 4)) (frameKey userKey st.1)).take 4 ≠
        window b (randLen + data.length + 4) 4 then .halt st (.invalid true)
      else if randLen + data.length + 4 < payloadPos b then .halt st .overrun
      else
        .took (st.1 + 1, st.2 || payloadPos b == randLen + data.length + 4)
          ((b.drop (payloadPos b)).take (randLen + data.length + 4 - payloadPos b))
          (randLen + data.length + 8) := by
  have hrand := hfits.rand_pos
  have hsize := hfits.size_lt
  have hstream : b ++ r = le16 (randLen + data.length + 8) ++
      ((S.hmac.run (le16 (randLen + data.length + 8)) (frameKey userKey st.1)).take 2 ++
        (padding randLen pad ++ (data ++ ((S.hmac.run
          (frameBody S (frameKey userKey st.1) pad data randLen) (frameKey userKey st.1)).take 4 ++
          t)))) := by
    rw [hcat, dataFrame_eq, frameBody]
    simp only [List.append_assoc]
  -- the fields of the frame, read from the part of it that has arrived
  have htake : b.take 2 = le16 (randLen + data.length + 8) := by
    have h := congrArg (List.take 2) hstream
    rwa [List.take_append_of_le_length (by omega), List.take_left' (le16_length _)] at h
  have hmac : window b 2 2 =
      (S.hmac.run (le16 (randLen + data.length + 8)) (frameKey userKey st.1)).take 2 := by
    rw [← window_append_left (l := r) (by omega), hstream,
      window_field (le16_length _) (mac_take_length (by omega) _)]
  have hsz : rdLe16 b 0 = randLen + data.length + 8 := by
    rw [← rdLe16_append_left (l := r) (by omega), hstream, rdLe16_le16_append]
    omega
  have hnot : ¬ (8192 ≤ randLen + data.length + 8 ∨ randLen + data.length + 8 < 7) := by omega
  have hsub : randLen + data.length + 8 - 4 = randLen + data.length + 4 := by omega
  rw [recvStep, if_neg (by omega)]
  simp only [htake, hmac, hsz, ne_eq, not_true, if_false, hnot, hsub]

theorem recvStep_wait (hfits : FrameFits randLen data) {b r : Bytes}
    (hcat : b ++ r = dataFrame S (frameKey userKey st.1) randLen pad data) (hr : r ≠ []) :
    recvStep S userKey st b = .more st := by
  have hlen := congrArg List.length hcat
  rw [List.length_append, dataFrame_length _ _ _ _ hfits.rand_pos] at hlen
  have hrpos := List.length_pos_iff.2 hr
  by_cases hshort : b.length ≤ 4
  · rw [recvStep, if_pos hshort]
  · rw [← List.append_nil (dataFrame _ _ _ _ _)] at hcat
    rw [recvStep_of_cat hfits hcat (by omega), if_pos (by omega)]

theorem recvStep_full (hfits : FrameFits randLen data) (l : Bytes) :
    ∃ sendback, recvStep S userKey st
        (dataFrame S (frameKey userKey st.1) randLen pad data ++ l) =
      .took (st.1 + 1, sendback) data
        (dataFrame S (frameKey userKey st.1) randLen pad data).length := by
  have hrand := hfits.rand_pos
  have hsize := hfits.size_lt
  have hflen := dataFrame_length S (frameKey userKey st.1) pad data hrand
  have hblen := frameBody_length S (frameKey userKey st.1) pad data hrand
  have hcat : (dataFrame S (frameKey userKey st.1) randLen pad data ++ l) ++ [] =
      dataFrame S (frameKey userKey st.1) randLen pad data ++ l := List.append_nil _
  have hstep := recvStep_of_cat hfits hcat (by rw [List.length_append]; omega)
  -- the checksum and the position of the payload
  have hbody : (dataFrame S (frameKey userKey st.1) randLen pad data ++ l).take
      (randLen + data.length + 4) = frameBody S (frameKey userKey st.1) pad data randLen := by
    rw [dataFrame_eq, List.append_assoc]
    exact List.take_left' hblen
  have hmac : window (dataFrame S (frameKey userKey st.1) randLen pad data ++ l)
      (randLen + data.length + 4) 4 =
        (S.hmac.run (frameBody S (frameKey userKey st.1) pad data randLen)
          (frameKey userKey st.1)).take 4 := by
    rw [dataFrame_eq, List.append_assoc]
    exact window_field hblen (mac_take_length (by omega) _)
  obtain ⟨a, z, ha, hpad⟩ : ∃ a z : Bytes, a.length = 4 ∧
      dataFrame S (frameKey userKey st.1) randLen pad data ++ l =
        a ++ (padding randLen pad ++ (data ++ z)) := by
    refine ⟨le16 (randLen + data.length + 8) ++
      (S.hmac.run (le16 (randLen + data.length + 8)) (frameKey userKey st.1)).take 2,
      (S.hmac.run (frameBody S (frameKey userKey st.1) pad data randLen)
        (frameKey userKey st.1)).take 4 ++ l, ?_, ?_⟩
    · rw [List.length_append, le16_length, mac_take_length (by omega)]
    · rw [dataFrame_eq, frameBody]
      simp only [List.append_assoc]
  have hpos : payloadPos (dataFrame S (frameKey userKey st.1) randLen pad data ++ l) =
      randLen + 4 := by
    rw [payloadPos, hpad, byteAt_append_right (by omega), rdLe16_append_right (by omega), ha]
    exact padding_read (by omega) pad _
  have hdata : ((dataFrame S (frameKey userKey st.1) randLen pad data ++ l).drop (randLen + 4)).take
      (randLen + data.length + 4 - (randLen + 4)) = data := by
    have hlen : (a ++ padding randLen pad).length = randLen + 4 := by
      rw [List.length_append, ha, padding_length hrand]
      omega
    have hn : randLen + data.length + 4 - (randLen + 4) = data.length := by omega
    rw [hpad, ← List.append_assoc, List.drop_left' hlen, hn, List.take_left]
  rw [if_neg (by rw [List.length_append]; omega), hbody, hmac, if_neg (by simp), hpos,
    if_neg (by omega), hdata] at hstep
  exact ⟨_, by rw [hstep, hflen]⟩

end Step

/-! ## Streams of data frames -/

/-- States of the receive loop that agree in the number of the next frame. -/
def SameId (s t : UInt32 × Bool) : Prop := s.1 = t.1

/-- `sendback` has no influence on what is received. -/
theorem recvStep_rel (S : Suite) (userKey : Bytes) {s t : UInt32 × Bool} (b : Bytes)
    (h : SameId s t) : PeelRel SameId (recvStep S userKey s b) (recvStep S userKey t b) := by
  obtain ⟨id, x⟩ := s
  obtain ⟨id', y⟩ := t
  obtain rfl : id = id' := h
  unfold recvStep
  dsimp only
  -- the guards do not see `sendback`
  split
  · exact .more rfl
  · split
    · exact .halt _ rfl
    · split
      · exact .halt _ rfl
      · split
        · exact .more rfl
        · split
          · exact .halt _ rfl
          · split
            · exact .halt _ rfl
            · exact .took _ _ rfl

theorem recvStep_takes {S : Suite} {userKey : Bytes} {id : UInt32} {randLen : ℕ} {data : Bytes}
    (hfits : FrameFits randLen data) (pad : ℕ → UInt8) (t : Bytes) :
    Takes (recvStep S userKey) SameId (fun _ => True) (fun _ => True) (id, false)
      (dataFrame S (frameKey userKey id) randLen pad data) t data (id + 1, false) := by
  refine takes_of_waits ?_ ?_
  · rintro ⟨id', b⟩ hid l
    obtain rfl : id' = id := hid
    obtain ⟨sendback, hstep⟩ := recvStep_full hfits l
    exact ⟨(id' + 1, sendback), hstep, rfl⟩
  · rintro ⟨id', b⟩ hid p l hp hl
    obtain rfl : id' = id := hid
    exact ⟨_, recvStep_wait hfits hp hl, rfl⟩

theorem getRandLen_le (n full : ℕ) (l : LocalData) (info : ServerInfo) (draw : ℕ) :
    getRandLen n full l info draw + n < 4096 ∨ getRandLen n full l info draw = 0 := by
  unfold getRandLen
  split
  · exact Or.inr rfl
  · left
    split
    · omega
    · split
      · omega
      · split <;> omega

theorem packData_fits {info : ServerInfo} {l : LocalData} {data : Bytes} {full draw : ℕ}
    (h : data.length ≤ 2000) : FrameFits (getRandLen data.length full l info draw + 1) data := by
  have hrand := getRandLen_le data.length full l info draw
  exact ⟨by omega, by omega⟩

/-- From the number `id` to the number `id'`, the stream consists of data frames that carry `out`. -/
inductive Frames (S : Suite) (userKey : Bytes) : UInt32 → Bytes → Bytes → UInt32 → Prop where
  | nil (id : UInt32) : Frames S userKey id [] [] id
  | cons {id id' : UInt32} {randLen : ℕ} {data t out : Bytes} (pad : ℕ → UInt8) :
      FrameFits randLen data → Frames S userKey (id + 1) t out id' →
      Frames S userKey id (dataFrame S (frameKey userKey id) randLen pad data ++ t) (data ++ out) id'

theorem dataFrame_ne_nil (S : Suite) (key : Bytes) {randLen : ℕ} {data : Bytes}
    (hfits : FrameFits randLen data) (pad : ℕ → UInt8) : dataFrame S key randLen pad data ≠ [] := by
  have hlen := dataFrame_length S key pad data hfits.rand_pos
  intro hnil
  rw [hnil, List.length_nil] at hlen
  omega

/-- The server's receive loop takes the frames one by one. -/
theorem Frames.parses {S : Suite} {userKey : Bytes} {id id' : UInt32} {stream out : Bytes}
    (h : Frames S userKey id stream out id') :
    Parses (recvStep S userKey) SameId (fun _ => True) (fun _ => True) (id, false) stream out
      (id', false) [] := by
  induction h with
  | nil id => exact .rest (waits_nil trivial fun s₀ h => ⟨s₀, by simp [recvStep], h⟩)
  | cons pad hfits _ ih =>
      exact .frame (dataFrame_ne_nil S _ hfits pad) (recvStep_takes hfits pad _) ih

/-- A frame in front of a stream of frames. -/
theorem packData_frames (S : Suite) (info : ServerInfo) (l : LocalData) (d : FrameDraws) (full : ℕ)
    {data t out : Bytes} {id' : UInt32} (h : data.length ≤ 2000)
    (hp : Frames S l.userKey (packData S info l d data full).1.packId t out id') :
    Frames S l.userKey l.packId ((packData S info l d data full).2 ++ t) (data ++ out) id' :=
  .cons d.pad (packData_fits h) hp

theorem packUnits_long (S : Suite) (info : ServerInfo) (draws : ℕ → FrameDraws) (full fuel i : ℕ)
    (l : LocalData) {data : Bytes} (h : 2000 < data.length) :
    packUnits S info draws full (fuel + 1) i l data =
      ((packUnits S info draws full fuel (i + 1)
          (packData S info l (draws i) (data.take 2000) full).1 (data.drop 2000)).1,
        (packData S info l (draws i) (data.take 2000) full).2 ++
          (packUnits S info draws full fuel (i + 1)
            (packData S info l (draws i) (data.take 2000) full).1 (data.drop 2000)).2) := by
  rw [packUnits, AUTH_SIMPLE_PACK_UNIT_SIZE, if_pos h]

theorem packUnits_last (S : Suite) (info : ServerInfo) (draws : ℕ → FrameDraws) (full fuel i : ℕ)
    (l : LocalData) {data : Bytes} (h : ¬ 2000 < data.length) :
    packUnits S info draws full (fuel + 1) i l data =
      if 0 < data.length then packData S info l (draws i) data full else (l, []) := by
  rw [packUnits, AUTH_SIMPLE_PACK_UNIT_SIZE, if_neg h]

/-- The loop over the units emits frames that carry the data. -/
theorem packUnits_frames (S : Suite) (info : ServerInfo) (draws : ℕ → FrameDraws) (full : ℕ)
    {fuel i : ℕ} {l : LocalData} {data t out : Bytes} {id' : UInt32} (hfuel : data.length < fuel)
    (hp : Frames S l.userKey (packUnits S info draws full fuel i l data).1.packId t out id') :
    Frames S l.userKey l.packId ((packUnits S info draws full fuel i l data).2 ++ t) (data ++ out)
      id' := by
  induction fuel generalizing l data i with
  | zero => omega
  | succ fuel ih =>
      by_cases hlong : 2000 < data.length
      · -- one full unit, and the rest by induction
        rw [packUnits_long _ _ _ _ _ _ _ hlong] at hp ⊢
        have hrec := @ih (i + 1) (packData S info l (draws i) (data.take 2000) full).1
          (data.drop 2000) (by rw [List.length_drop]; omega) hp
        have hunit : (data.take 2000).length ≤ 2000 := List.length_take_le _ _
        have hsplit : data ++ out = data.take 2000 ++ (data.drop 2000 ++ out) := by
          rw [← List.append_assoc, List.take_append_drop]
        rw [hsplit, List.append_assoc]
        exact packData_frames S info l (draws i) full hunit hrec
      · rw [packUnits_last _ _ _ _ _ _ _ hlong] at hp ⊢
        by_cases hpos : 0 < data.length
        · rw [if_pos hpos] at hp ⊢
          exact packData_frames S info l (draws i) full (by omega) hp
        · rw [if_neg hpos] at hp ⊢
          have hnil : data = [] := List.length_eq_zero_iff.1 (by omega)
          rw [hnil]
          exact hp

theorem packUnits_fields (S : Suite) (info : ServerInfo) (draws : ℕ → FrameDraws)
    (full fuel i : ℕ) (l : LocalData) (data : Bytes) :
    (packUnits S info draws full fuel i l data).1.userKey = l.userKey ∧
      (packUnits S info draws full fuel i l data).1.hasSentHeader = l.hasSentHeader := by
  induction fuel generalizing l data i with
  | zero => exact ⟨rfl, rfl⟩
  | succ fuel ih =>
      rw [packUnits]
      split
      · exact ih (i + 1) (packData S info l (draws i) _ full).1 _
      · split <;> exact ⟨rfl, rfl⟩

/-! ## The client's stream -/

/-- The client's calls on one connection. -/
def clientRun (S : Suite) (info : ServerInfo) (st : GlobalData × LocalData)
    (sends : List (SendDraws × Bytes)) : (GlobalData × LocalData) × List Bytes :=
  run (fun st s => clientPreEncrypt S info st s.1 s.2) st sends

/-- A call behind the authentication frame. -/
theorem clientPreEncrypt_sent {S : Suite} {info : ServerInfo} {st : GlobalData × LocalData}
    (hsent : st.2.hasSentHeader = true) (d : SendDraws) (data : Bytes) :
    (clientPreEncrypt S info st d data).1.2.userKey = st.2.userKey ∧
      (clientPreEncrypt S info st d data).1.2.hasSentHeader = true ∧
      (clientPreEncrypt S info st d data).1.2.packId =
        (packUnits S info d.frame data.length (data.length + 1) 0 st.2 data).1.packId ∧
      (clientPreEncrypt S info st d data).2 =
        (packUnits S info d.frame data.length (data.length + 1) 0 st.2 data).2 := by
  have hcall : clientPreEncrypt S info st d data =
      ((st.1, { (packUnits S info d.frame data.length (data.length + 1) 0 st.2 data).1 with
          lastDataLen := data.length }),
        (packUnits S info d.frame data.length (data.length + 1) 0 st.2 data).2) := by
    simp [clientPreEncrypt, hsent]
  have hfields := packUnits_fields S info d.frame data.length (data.length + 1) 0 st.2 data
  rw [hcall]
  exact ⟨hfields.1, hfields.2.trans hsent, rfl, rfl⟩

/-- Behind the authentication frame the client emits data frames. -/
theorem clientRun_frames (S : Suite) (info : ServerInfo) {st : GlobalData × LocalData}
    (hsent : st.2.hasSentHeader = true) (sends : List (SendDraws × Bytes)) :
    Frames S st.2.userKey st.2.packId (clientRun S info st sends).2.flatten
      (sends.map Prod.snd).flatten (clientRun S info st sends).1.2.packId := by
  induction sends generalizing st with
  | nil => exact .nil _
  | cons s sends ih =>
      obtain ⟨d, data⟩ := s
      obtain ⟨hkey, hsent', hid, hout⟩ := clientPreEncrypt_sent (S := S) hsent d data
      have hrec := @ih (clientPreEncrypt S info st d data).1 hsent'
      rw [hkey, hid] at hrec
      simp only [clientRun, run_cons, List.flatten_cons, List.map_cons] at hrec ⊢
      rw [hout]
      exact packUnits_frames S info d.frame data.length (Nat.lt_succ_self _) hrec

/-! ## The authentication frame -/

section Auth

variable (S : Suite) (macKey : Bytes) (user : Bytes × Bytes) (g : GlobalData) (d : AuthDraws)
  (data : Bytes)

/-- The encrypted header of the authentication frame. -/
def authPlain : Bytes :=
  authHead g d.time (authRandLen data.length d.rand + 31 + data.length + 4)
    (authRandLen data.length d.rand)

/-- The authentication frame up to its checksum. -/
def authBody : Bytes :=
  [d.first] ++ ((S.hmac.run [d.first] macKey).take 6 ++
    (authCipher S macKey user (authPlain g d data) ++
      (randBytes d.pad (authRandLen data.length d.rand) ++ data)))

theorem authFrame_eq : authFrame S macKey user g d data =
    authBody S macKey user g d data ++ (S.hmac.run (authBody S macKey user g d data) user.2).take 4 :=
  rfl

theorem authPlain_length : (authPlain g d data).length = 16 := by
  simp [authPlain, authHead]

theorem authRandLen_lt (n draw : ℕ) : authRandLen n draw < 1024 := by
  unfold authRandLen
  split <;> omega

variable {user}

theorem authCipher_length (huid : user.1.length = 4) (head : Bytes) :
    (authCipher S macKey user head).length = 24 := by
  simp only [authCipher, List.length_append, huid, S.aes.encrypt_length]
  rw [mac_take_length (by omega)]

theorem authBody_length (huid : user.1.length = 4) :
    (authBody S macKey user g d data).length = authRandLen data.length d.rand + 31 + data.length := by
  simp only [authBody, List.length_append, List.length_cons, List.length_nil,
    authCipher_length S macKey huid, randBytes_length]
  rw [mac_take_length (by omega)]
  omega

theorem authFrame_length (huid : user.1.length = 4) :
    (authFrame S macKey user g d data).length =
      authRandLen data.length d.rand + 31 + data.length + 4 := by
  rw [authFrame_eq, List.length_append, authBody_length S macKey g d data huid,
    mac_take_length (by omega)]

/-- The fields of the decrypted header. -/
theorem authPlain_fields (hdata : data.length ≤ 1200) :
    rdLe16 (authPlain g d data) 12 = authRandLen data.length d.rand + 31 + data.length + 4 ∧
      rdLe16 (authPlain g d data) 14 = authRandLen data.length d.rand ∧
      rdLe32 (authPlain g d data) 0 = d.time % 4294967296 := by
  have hrand := authRandLen_lt data.length d.rand
  have hsplit : ∀ size r : ℕ, authHead g d.time size r =
      (le32 d.time ++ (window g.localClientId 0 4 ++ le32 g.connectionId)) ++
        (le16 size ++ (le16 r ++ [])) := by
    intro size r
    simp only [authHead, List.append_assoc, List.append_nil]
  have h12 : (le32 d.time ++ (window g.localClientId 0 4 ++ le32 g.connectionId)).length = 12 := by
    simp
  refine ⟨?_, ?_, ?_⟩
  · rw [authPlain, hsplit, rdLe16_field h12]
    omega
  · rw [authPlain, hsplit, ← List.append_assoc, rdLe16_field (by simp)]
    omega
  · rw [authPlain, authHead, rdLe32_le32_append]

end Auth

section Header

variable {S : Suite} {info : ServerInfo} {user : Bytes × Bytes} {g : GlobalData} {d : AuthDraws}
  {data : Bytes}

/-- The authentication frame, field by field. -/
theorem authFrame_fields (macKey t : Bytes) :
    authFrame S macKey user g d data ++ t =
      [d.first] ++ ((S.hmac.run [d.first] macKey).take 6 ++ (user.1 ++
        (S.aes.encrypt (encKey S user.2) (authPlain g d data) ++
          ((S.hmac.run (user.1 ++ S.aes.encrypt (encKey S user.2) (authPlain g d data)) macKey).take 4 ++
            (randBytes d.pad (authRandLen data.length d.rand) ++ (data ++
              ((S.hmac.run (authBody S macKey user g d data) user.2).take 4 ++ t))))))) := by
  rw [authFrame_eq, authBody, authCipher]
  simp only [List.append_assoc]

/-- The first check, which also looks at two or three bytes. -/
theorem first_check {macKey b r z : Bytes}
    (hcat : b ++ r = [d.first] ++ ((S.hmac.run [d.first] macKey).take 6 ++ z)) (hlen : 2 ≤ b.length) :
    (S.hmac.run (b.take 1) macKey).take (min b.length 7 - 1) =
      window b 1 (min b.length 7 - 1) := by
  have hn : min b.length 7 - 1 ≤ 6 := by omega
  have hb : 1 + (min b.length 7 - 1) ≤ b.length := by omega
  generalize min b.length 7 - 1 = n at hn hb
  have hone : [d.first].length = 1 := rfl
  have hhead : b.take 1 = [d.first] := by
    have h := congrArg (List.take 1) hcat
    rwa [List.take_append_of_le_length (by omega), List.take_left' hone] at h
  have hsplit : (S.hmac.run [d.first] macKey).take 6 ++ z =
      (S.hmac.run [d.first] macKey).take n ++ (((S.hmac.run [d.first] macKey).take 6).drop n ++ z) := by
    have htake : ((S.hmac.run [d.first] macKey).take 6).take n =
        (S.hmac.run [d.first] macKey).take n := by
      rw [List.take_take, Nat.min_eq_left hn]
    rw [← List.append_assoc, ← htake, List.take_append_drop]
  rw [hhead, ← window_append_left hb, hcat, hsplit]
  exact (window_field hone (mac_take_length hn _)).symm

/-- Before the encrypted header is complete the server waits. -/
theorem readHeader_of_short {l : LocalData} {r z : Bytes} (now : ℕ)
    (hcat : l.recvBuffer ++ r =
      [d.first] ++ ((S.hmac.run [d.first] (info.recvIv ++ info.key)).take 6 ++ z))
    (hlen : l.recvBuffer.length < 31) : readHeader S info now l = .wait l := by
  simp only [readHeader]
  by_cases htwo : 2 ≤ l.recvBuffer.length
  · rw [if_neg (fun h => h.2 (first_check hcat htwo)), if_pos hlen]
  · rw [if_neg (by omega), if_pos hlen]

/-- The user that the encrypted header names. -/
def authenticated (l : LocalData) (user : Bytes × Bytes) : LocalData :=
  { l with uid := user.1, userKey := user.2 }

/-- The state behind the authentication frame. -/
def accepted (l : LocalData) (user : Bytes × Bytes) (plain rest : Bytes) : LocalData :=
  { authenticated l user with
    hasRecvHeader := true
    clientId := rdLe32 plain 4
    connectionId := rdLe32 plain 8
    recvBuffer := rest }

/-- With the encrypted header complete, the length in it decides. -/
theorem readHeader_of_long (huid : user.1.length = 4) (hkey : serverUserKey S info user.1 = user.2)
    (hdata : data.length ≤ 1200) {l : LocalData} {r t : Bytes} (now : ℕ)
    (hcat : l.recvBuffer ++ r = authFrame S (info.recvIv ++ info.key) user g d data ++ t)
    (hlen : 31 ≤ l.recvBuffer.length) :
    readHeader S info now l =
      if l.recvBuffer.length < authRandLen data.length d.rand + 31 + data.length + 4 then
        .wait (authenticated l user)
      else if (S.hmac.run (l.recvBuffer.take (authRandLen data.length d.rand + 31 + data.length))
          user.2).take 4 ≠
        window l.recvBuffer (authRandLen data.length d.rand + 31 + data.length) 4 then
        .bad (authenticated l user)
      else if MAX_TIME_DIF < timeDiff now (d.time % 4294967296) then .bad (authenticated l user)
      else
        .done
          (accepted l user (authPlain g d data) (shortenedTo l.recvBuffer
            (authRandLen data.length d.rand + 31 + data.length + 4)
            (subSize l.recvBuffer.length (authRandLen data.length d.rand + 31 + data.length + 4))))
          ((l.recvBuffer.drop (31 + authRandLen data.length d.rand)).take
            (authRandLen data.length d.rand + 31 + data.length -
              (31 + authRandLen data.length d.rand))) := by
  obtain ⟨h12, h14, h0⟩ := authPlain_fields g d data hdata
  rw [authFrame_fields] at hcat
  generalize hz : randBytes d.pad (authRandLen data.length d.rand) ++ (data ++
    ((S.hmac.run (authBody S (info.recvIv ++ info.key) user g d data) user.2).take 4 ++ t)) = z at hcat
  generalize hblk : S.aes.encrypt (encKey S user.2) (authPlain g d data) = blk at hcat
  have hblen : blk.length = 16 := by rw [← hblk, S.aes.encrypt_length]
  have hdec : S.aes.decrypt (encKey S user.2) blk = authPlain g d data := by
    rw [← hblk, S.aes.decrypt_encrypt _ _ (authPlain_length g d data)]
  have hcheck := first_check hcat (by omega)
  obtain ⟨pre, hpre, hpre7⟩ : ∃ pre : Bytes, pre =
      [d.first] ++ (S.hmac.run [d.first] (info.recvIv ++ info.key)).take 6 ∧ pre.length = 7 := by
    refine ⟨_, rfl, ?_⟩
    rw [List.length_append, mac_take_length (Nat.le_refl _)]
    rfl
  generalize hmac : (S.hmac.run (user.1 ++ blk) (info.recvIv ++ info.key)).take 4 = mac at hcat
  have hmac4 : mac.length = 4 := by rw [← hmac, mac_take_length (by omega)]
  rw [← List.append_assoc [d.first], ← hpre] at hcat
  have huidw : window l.recvBuffer 7 4 = user.1 := window_of_cat hcat hpre7 huid (by omega)
  have hblkw : window l.recvBuffer 11 16 = blk := by
    rw [← List.append_assoc] at hcat
    exact window_of_cat hcat (by rw [List.length_append]; omega) hblen (by omega)
  have hcipherw : window l.recvBuffer 7 20 = user.1 ++ blk := by
    rw [← List.append_assoc user.1] at hcat
    exact window_of_cat hcat hpre7 (by rw [List.length_append]; omega) (by omega)
  have hmacw : window l.recvBuffer 27 4 = mac := by
    rw [← List.append_assoc, ← List.append_assoc] at hcat
    exact window_of_cat hcat (by simp only [List.length_append]; omega) hmac4 (by omega)
  have hn : authRandLen data.length d.rand + 31 + data.length + 4 - 4 =
      authRandLen data.length d.rand + 31 + data.length := by omega
  have hsize : ¬ authRandLen data.length d.rand + 31 + data.length + 4 < 4 := by omega
  have hstart : ¬ authRandLen data.length d.rand + 31 + data.length <
      31 + authRandLen data.length d.rand := by omega
  simp only [readHeader]
  rw [if_neg (fun h => h.2 hcheck), if_neg (by omega), hcipherw, hmacw, hmac, if_neg (by simp)]
  simp only [huidw, hblkw, hkey, hdec, h12, h14, h0, hn, hsize, hstart, if_false]
  rfl

/-- The server reads the authentication frame: it waits until the frame is complete, and then takes
the payload and leaves what follows. -/
theorem readHeader_wait (huid : user.1.length = 4) (hkey : serverUserKey S info user.1 = user.2)
    (hdata : data.length ≤ 1200) {l : LocalData} {r t : Bytes} (now : ℕ)
    (hcat : l.recvBuffer ++ r = authFrame S (info.recvIv ++ info.key) user g d data ++ t)
    (hlen : l.recvBuffer.length < (authFrame S (info.recvIv ++ info.key) user g d data).length) :
    ∃ l', readHeader S info now l = .wait l' ∧ l'.recvBuffer = l.recvBuffer ∧
      l'.hasRecvHeader = l.hasRecvHeader ∧ l'.recvId = l.recvId := by
  rw [authFrame_length S _ g d data huid] at hlen
  by_cases hshort : l.recvBuffer.length < 31
  · have hfields := hcat.trans (authFrame_fields (info.recvIv ++ info.key) t)
    exact ⟨l, readHeader_of_short now hfields hshort, rfl, rfl, rfl⟩
  · refine ⟨authenticated l user, ?_, rfl, rfl, rfl⟩
    rw [readHeader_of_long huid hkey hdata now hcat (by omega), if_pos hlen]

theorem readHeader_done (huid : user.1.length = 4) (hkey : serverUserKey S info user.1 = user.2)
    (hdata : data.length ≤ 1200) {l : LocalData} {t : Bytes} {now : ℕ}
    (hcat : l.recvBuffer = authFrame S (info.recvIv ++ info.key) user g d data ++ t)
    (hclock : timeDiff now (d.time % 4294967296) ≤ MAX_TIME_DIF) :
    readHeader S info now l = .done (accepted l user (authPlain g d data) t) data := by
  have hflen := authFrame_length S (info.recvIv ++ info.key) g d data huid
  have hblen := authBody_length S (info.recvIv ++ info.key) g d data huid
  have hlen : (authFrame S (info.recvIv ++ info.key) user g d data).length ≤ l.recvBuffer.length := by
    rw [hcat, List.length_append]
    omega
  have hcat₀ : l.recvBuffer ++ [] = authFrame S (info.recvIv ++ info.key) user g d data ++ t := by
    rw [List.append_nil, hcat]
  -- the frame is its body and the keyed hash of that
  have hbody : l.recvBuffer = authBody S (info.recvIv ++ info.key) user g d data ++
      ((S.hmac.run (authBody S (info.recvIv ++ info.key) user g d data) user.2).take 4 ++ t) := by
    rw [hcat, authFrame_eq, List.append_assoc]
  have htake : l.recvBuffer.take (authRandLen data.length d.rand + 31 + data.length) =
      authBody S (info.recvIv ++ info.key) user g d data := by
    rw [hbody]
    exact List.take_left' hblen
  have hmac : window l.recvBuffer (authRandLen data.length d.rand + 31 + data.length) 4 =
      (S.hmac.run (authBody S (info.recvIv ++ info.key) user g d data) user.2).take 4 := by
    rw [hbody]
    exact window_field hblen (mac_take_length (by omega) _)
  -- what is left of the body behind the padding is the data
  have hout : (l.recvBuffer.drop (31 + authRandLen data.length d.rand)).take
      (authRandLen data.length d.rand + 31 + data.length -
        (31 + authRandLen data.length d.rand)) = data := by
    have hn : authRandLen data.length d.rand + 31 + data.length -
        (31 + authRandLen data.length d.rand) = data.length := by omega
    have hdrop : (authBody S (info.recvIv ++ info.key) user g d data).drop
        (31 + authRandLen data.length d.rand) = data := by
      have hsuffix : authBody S (info.recvIv ++ info.key) user g d data =
          ([d.first] ++ ((S.hmac.run [d.first] (info.recvIv ++ info.key)).take 6 ++
            (authCipher S (info.recvIv ++ info.key) user (authPlain g d data) ++
              randBytes d.pad (authRandLen data.length d.rand)))) ++ data := by
        simp only [authBody, List.append_assoc]
      rw [hsuffix]
      refine List.drop_left' ?_
      have hlenBody := hblen
      rw [hsuffix, List.length_append] at hlenBody
      omega
    rw [hbody, List.drop_append_of_le_length (by omega), hdrop, hn, List.take_left]
  rw [readHeader_of_long huid hkey hdata now hcat₀ (by omega), if_neg (by omega), htake, hmac,
    if_neg (by simp), if_neg (by omega), hout, hcat, shortenedTo_append hflen]

end Header

/-! ## The server's calls -/

section Server

variable {S : Suite} {info : ServerInfo}

/-- Behind the authentication frame: the carried bytes and the number of the next frame. -/
structure Receiving (userKey : Bytes) (l : LocalData) (t : (UInt32 × Bool) × Bytes) : Prop where
  header : l.hasRecvHeader = true
  userKey : l.userKey = userKey
  recvId : l.recvId = t.1.1
  recvBuffer : l.recvBuffer = t.2

/-- The receive loop of a call, whatever `sendback` was. -/
theorem recvLoop_of_drain {userKey : Bytes} {l : LocalData} {t : (UInt32 × Bool) × Bytes}
    (h : Receiving userKey l t) (first : Bytes) (sendback : Bool)
    {d : Drained (UInt32 × Bool) UInt8 UInt8 RecvError}
    (hd : drain (recvStep S userKey) (t.2.length + 1) t.1 t.2 [] = d) (hok : d.stop = none) :
    Receiving userKey (recvLoop S l first sendback).1 (d.state, d.rest) ∧
      (recvLoop S l first sendback).2.bytes? = some (first ++ d.out) := by
  obtain ⟨hheader, rfl, hid, hbuf⟩ := h
  have hsame : SameId (l.recvId, sendback) t.1 := hid
  obtain ⟨hstate, hrest, hout, hstop⟩ := drain_rel
    (fun b hs => recvStep_rel S l.userKey b hs) (t.2.length + 1) hsame t.2 []
  rw [hd] at hstate hrest hout hstop
  rw [hok] at hstop
  have hloop : recvLoop S l first sendback =
      ({ l with
          recvId := (drain (recvStep S l.userKey) (t.2.length + 1) (l.recvId, sendback) t.2 []).state.1
          recvBuffer := d.rest },
        .out (first ++ d.out)
          (drain (recvStep S l.userKey) (t.2.length + 1) (l.recvId, sendback) t.2 []).state.2) := by
    rw [recvLoop, hbuf, drain_acc]
    simp only [hstop, hrest, hout]
  rw [hloop]
  exact ⟨⟨hheader, rfl, hstate, rfl⟩, rfl⟩

/-- The state with a segment appended to what was carried over. -/
def received (l : LocalData) (seg : Bytes) : LocalData :=
  { l with recvBuffer := l.recvBuffer ++ seg }

theorem serverPostDecrypt_wait {l l' : LocalData} {now : ℕ} {seg : Bytes}
    (hl : l.hasRecvHeader = false) (h : readHeader S info now (received l seg) = .wait l') :
    serverPostDecrypt S info l (now, seg) = (l', .out [] false) := by
  unfold serverPostDecrypt
  refine (if_neg (by simp [hl])).trans ?_
  have h' : readHeader S info now { l with recvBuffer := l.recvBuffer ++ seg } = .wait l' := h
  dsimp only
  rw [h']

theorem serverPostDecrypt_done {l l' : LocalData} {now : ℕ} {seg out : Bytes}
    (hl : l.hasRecvHeader = false) (h : readHeader S info now (received l seg) = .done l' out) :
    serverPostDecrypt S info l (now, seg) = recvLoop S l' out true := by
  unfold serverPostDecrypt
  refine (if_neg (by simp [hl])).trans ?_
  have h' : readHeader S info now { l with recvBuffer := l.recvBuffer ++ seg } = .done l' out := h
  dsimp only
  rw [h']

theorem serverPostDecrypt_open {l : LocalData} (hl : l.hasRecvHeader = true) (now : ℕ) (seg : Bytes) :
    serverPostDecrypt S info l (now, seg) = recvLoop S (received l seg) [] false := by
  unfold serverPostDecrypt
  exact if_pos hl

/-- The authentication frame is the header of the client's stream. -/
theorem serverPostDecrypt_prelude {user : Bytes × Bytes} {g : GlobalData} {d : AuthDraws}
    {data : Bytes} (huid : user.1.length = 4) (hkey : serverUserKey S info user.1 = user.2)
    (hdata : data.length ≤ 1200) (frames : Bytes) :
    Prelude (serverPostDecrypt S info) Prod.snd PostDecrypt.bytes? (recvStep S user.2) (1, false)
      (fun call => timeDiff call.1 (d.time % 4294967296) ≤ MAX_TIME_DIF)
      (authFrame S (info.recvIv ++ info.key) user g d data) frames data
      (authFrame S (info.recvIv ++ info.key) user g d data).length
      (fun c l => l.recvBuffer = c ∧ l.hasRecvHeader = false ∧ l.recvId = 1)
      (Receiving user.2) where
  header_le := Nat.le_refl _
  wait := by
    rintro _ l ⟨now, seg⟩ ⟨rfl, hheader, hid⟩ - ⟨r, hcat⟩ hlen
    dsimp only at hcat hlen ⊢
    have hcat' : (received l seg).recvBuffer ++ r =
        authFrame S (info.recvIv ++ info.key) user g d data ++ frames := hcat
    obtain ⟨l', hread, hbuf, hheader', hid'⟩ := readHeader_wait huid hkey hdata now hcat' hlen
    rw [serverPostDecrypt_wait hheader hread]
    exact ⟨⟨hbuf, hheader'.trans hheader, hid'.trans hid⟩, rfl⟩
  start := by
    rintro _ l ⟨now, seg⟩ buf ⟨rfl, hheader, hid⟩ hclock hcat - hok
    dsimp only at hclock hcat ⊢
    have hcat' : (received l seg).recvBuffer =
        authFrame S (info.recvIv ++ info.key) user g d data ++ buf := hcat
    have hread := readHeader_done huid hkey hdata hcat' hclock
    have hrecv : Receiving user.2 (accepted (received l seg) user (authPlain g d data) buf)
        ((1, false), [] ++ buf) := ⟨rfl, rfl, hid, rfl⟩
    rw [serverPostDecrypt_done hheader hread]
    exact recvLoop_of_drain hrecv data true rfl hok
  next := by
    rintro l t ⟨now, seg⟩ hrecv - hok
    have hrecv' : Receiving user.2 (received l seg) (t.1, t.2 ++ seg) :=
      ⟨hrecv.header, hrecv.userKey, hrecv.recvId, congrArg (· ++ seg) hrecv.recvBuffer⟩
    rw [serverPostDecrypt_open hrecv.header]
    exact recvLoop_of_drain hrecv' [] false rfl hok

end Server

/-! ## Segmentation -/

theorem clientUser_uid_length (S : Suite) (info : ServerInfo) (w : ℕ) (d : AuthDraws) :
    (clientUser S info (localDataInit w) d).1.length = 4 := by
  unfold clientUser
  split
  · split <;> simp
  · simp [localDataInit]

/-- The first call of a connection. -/
theorem clientPreEncrypt_first (S : Suite) (info : ServerInfo) (g : GlobalData) (w : ℕ)
    (d : SendDraws) {data : Bytes} (hdata : data ≠ []) :
    ∃ l : LocalData,
      l.userKey = (clientUser S info (localDataInit w) d.auth).2 ∧ l.packId = 1 ∧
      (clientPreEncrypt S info (g, localDataInit w) d data).1.2.hasSentHeader = true ∧
      (clientPreEncrypt S info (g, localDataInit w) d data).1.2.userKey = l.userKey ∧
      (clientPreEncrypt S info (g, localDataInit w) d data).1.2.packId =
        (packUnits S info d.frame data.length ((data.drop (min 1200 data.length)).length + 1) 0 l
          (data.drop (min 1200 data.length))).1.packId ∧
      (clientPreEncrypt S info (g, localDataInit w) d data).2 =
        authFrame S (info.iv ++ info.key) (clientUser S info (localDataInit w) d.auth)
          (nextConnection g d.auth) d.auth (data.take (min 1200 data.length)) ++
        (packUnits S info d.frame data.length ((data.drop (min 1200 data.length)).length + 1) 0 l
          (data.drop (min 1200 data.length))).2 := by
  have hpos := List.length_pos_iff.2 hdata
  have hsent : 0 < data.length ∧ (localDataInit w).hasSentHeader = false := ⟨hpos, rfl⟩
  refine ⟨{ (packAuthData S info g (localDataInit w) d.auth
    (data.take (min 1200 data.length))).1.2 with hasSentHeader := true }, rfl, rfl, ?_, ?_, ?_, ?_⟩
  all_goals simp only [clientPreEncrypt, if_pos hsent]
  · exact (packUnits_fields S info d.frame data.length _ 0 _ _).2
  · exact (packUnits_fields S info d.frame data.length _ 0 _ _).1
  · rfl

/-- Segmentation independence, client to server: no call reports an error, the payloads arrive, and
in the end nothing is carried over and the counters agree.  The peers share the key and the IV, the
server finds the key of the user that the first call names, and the clocks differ by at most a day. -/
theorem client_stream_segmentation (S : Suite) (cinfo sinfo : ServerInfo) (g : GlobalData)
    (cwait swait : ℕ) (sends : List (SendDraws × Bytes)) (calls : List (ℕ × Bytes))
    (hiv : sinfo.recvIv = cinfo.iv) (hkey : sinfo.key = cinfo.key)
    (huser : ∀ s ∈ sends.head?,
      serverUserKey S sinfo (clientUser S cinfo (localDataInit cwait) s.1.auth).1 =
        (clientUser S cinfo (localDataInit cwait) s.1.auth).2)
    (hclock : ∀ s ∈ sends.head?, ∀ c ∈ calls,
      ((c.1 : ℤ) - s.1.auth.time).natAbs ≤ MAX_TIME_DIF)
    (hsends : ∀ s ∈ sends, s.2 ≠ []) (hcalls : ∀ c ∈ calls, c.2 ≠ [])
    (hcat : (calls.map Prod.snd).flatten =
      (clientRun S cinfo (g, localDataInit cwait) sends).2.flatten) :
    (∀ r ∈ (run (serverPostDecrypt S sinfo) (localDataInit swait) calls).2, r.bytes? ≠ none) ∧
      delivered ((run (serverPostDecrypt S sinfo) (localDataInit swait) calls).2.map
        PostDecrypt.bytes?) = (sends.map Prod.snd).flatten ∧
      (run (serverPostDecrypt S sinfo) (localDataInit swait) calls).1.recvBuffer = [] ∧
      (run (serverPostDecrypt S sinfo) (localDataInit swait) calls).1.recvId =
        (clientRun S cinfo (g, localDataInit cwait) sends).1.2.packId := by
  cases sends with
  | nil =>
      have hnil : calls.map Prod.snd = [] := by
        refine eq_nil_of_flatten_eq_nil ?_ hcat
        intro s hs
        obtain ⟨c, hc, rfl⟩ := List.mem_map.1 hs
        exact hcalls c hc
      rw [List.map_eq_nil_iff] at hnil
      subst hnil
      exact ⟨by simp, rfl, rfl, rfl⟩
  | cons s sends =>
      obtain ⟨d, data⟩ := s
      obtain ⟨l, hlkey, hlid, hsent, hkey', hid, hout⟩ :=
        clientPreEncrypt_first S cinfo g cwait d (hsends (d, data) (by simp))
      generalize huser' : clientUser S cinfo (localDataInit cwait) d.auth = user at hlkey hout
      have huid : user.1.length = 4 := huser' ▸ clientUser_uid_length S cinfo cwait d.auth
      have hskey : serverUserKey S sinfo user.1 = user.2 := huser' ▸ huser (d, data) (by simp)
      have hshort : (data.take (min 1200 data.length)).length ≤ 1200 := by
        rw [List.length_take]
        omega
      -- what follows the authentication frame
      have hrest := clientRun_frames S cinfo hsent sends
      rw [hkey', hid] at hrest
      have hframes := packUnits_frames S cinfo d.frame data.length (Nat.lt_succ_self _) hrest
      rw [hlkey, hlid] at hframes
      have hpre := serverPostDecrypt_prelude (g := nextConnection g d.auth) (d := d.auth) huid hskey
        hshort ((packUnits S cinfo d.frame data.length
          ((data.drop (min 1200 data.length)).length + 1) 0 l
          (data.drop (min 1200 data.length))).2 ++
          (clientRun S cinfo (clientPreEncrypt S cinfo (g, localDataInit cwait) d data).1
            sends).2.flatten)
      rw [hiv, hkey] at hpre
      have hflen := authFrame_length S (cinfo.iv ++ cinfo.key) (nextConnection g d.auth) d.auth
        (data.take (min 1200 data.length)) huid
      have hstream : [] ++ (calls.map Prod.snd).flatten =
          authFrame S (cinfo.iv ++ cinfo.key) user (nextConnection g d.auth) d.auth
            (data.take (min 1200 data.length)) ++
          ((packUnits S cinfo d.frame data.length
            ((data.drop (min 1200 data.length)).length + 1) 0 l
            (data.drop (min 1200 data.length))).2 ++
            (clientRun S cinfo (clientPreEncrypt S cinfo (g, localDataInit cwait) d data).1
              sends).2.flatten) := by
        rw [List.nil_append, hcat, clientRun, run_cons, List.flatten_cons, hout, List.append_assoc]
        rfl
      have hwait : (localDataInit swait).recvBuffer = [] ∧
          (localDataInit swait).hasRecvHeader = false ∧ (localDataInit swait).recvId = 1 :=
        ⟨rfl, rfl, rfl⟩
      obtain ⟨s₂, hrecv, hs₂, hall, hdel⟩ := hpre.run_complete hwait
        (by rw [hflen, List.length_nil]; omega)
        (fun c hc => timeDiff_le (by decide) (hclock (d, data) (by simp) c hc)) hstream
        (by rw [List.length_append]; omega) hframes.parses rfl (cutsOk_of_forall (fun _ => trivial) _)
      refine ⟨hall, ?_, hrecv.recvBuffer, hrecv.recvId.trans hs₂⟩
      rw [hdel, List.map_cons, List.flatten_cons, ← List.append_assoc, List.take_append_drop]

def sampleInfo : ServerInfo :=
  ⟨(List.range 16).map UInt8.ofNat, (List.range 16).map UInt8.ofNat,
    (List.range 32).map fun i => UInt8.ofNat (5 * i), 1492, none, none⟩

def sampleDraws : SendDraws :=
  ⟨⟨9, fun _ => 7, 1500000000, 42, fun i => UInt8.ofNat i, fun _ => 1, 5⟩, fun i => ⟨i, fun _ => 3⟩⟩

def sampleGlobal : GlobalData := ⟨List.replicate 8 1, 77⟩

def sampleStream : Bytes :=
  (clientRun authAes128Sha1 sampleInfo (sampleGlobal, localDataInit 0)
    [(sampleDraws, [1, 2, 3]), (sampleDraws, [4])]).2.flatten

theorem sampleStream_long : 5 < sampleStream.length := by
  have hfirst := clientPreEncrypt_first authAes128Sha1 sampleInfo sampleGlobal 0 sampleDraws
    (show ([1, 2, 3] : Bytes) ≠ [] by simp)
  obtain ⟨l, -, -, -, -, -, hout⟩ := hfirst
  rw [sampleStream, clientRun, run_cons, List.flatten_cons, List.length_append, hout,
    List.length_append, authFrame_length _ _ _ _ _ (clientUser_uid_length _ _ _ _)]
  omega

/-- Two payloads, cut inside the first check. -/
theorem client_stream_segmentation_sample :
    delivered ((run (serverPostDecrypt authAes128Sha1 sampleInfo) (localDataInit 0)
      [(1500000010, sampleStream.take 5), (1500000020, sampleStream.drop 5)]).2.map
        PostDecrypt.bytes?) = [1, 2, 3, 4] := by
  have hlen := sampleStream_long
  refine (client_stream_segmentation authAes128Sha1 sampleInfo sampleInfo sampleGlobal 0 0
    [(sampleDraws, [1, 2, 3]), (sampleDraws, [4])]
    [(1500000010, sampleStream.take 5), (1500000020, sampleStream.drop 5)] rfl rfl ?_ ?_ (by simp)
    ?_ ?_).2.1
  · intro s hs
    rfl
  · intro s hs c hc
    simp only [List.head?_cons, Option.mem_def, Option.some.injEq] at hs
    subst hs
    simp only [List.mem_cons, List.not_mem_nil, or_false] at hc
    rcases hc with rfl | rfl <;> decide
  · intro c hc
    refine List.length_pos_iff.1 ?_
    simp only [List.mem_cons, List.not_mem_nil, or_false] at hc
    rcases hc with rfl | rfl <;> simp only [List.length_take, List.length_drop] <;> omega
  · simp only [List.map_cons, List.map_nil, List.flatten_cons, List.flatten_nil, List.append_nil,
      List.take_append_drop]
    rfl

end AuthAes128
end Obfs
end SsrNative
