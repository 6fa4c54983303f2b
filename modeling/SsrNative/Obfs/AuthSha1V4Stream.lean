import SsrNative.Obfs.AuthSha1V4

/-!
# AuthSha1V4Stream — segmentation of the auth_sha1_v4 streams

Every way of cutting the emitted bytes delivers the payloads, in both directions.  Frames carry no
number, so a stream of data frames is read in the same state from end to end; towards the server the
authentication frame is the header of the stream (`Lib.Framing`).
-/

namespace SsrNative
namespace Obfs
namespace AuthSha1V4

open Bytes
open Checksums
open Lib.Segments
open Lib.Framing
open AuthAes128 (GlobalData AUTH_SIMPLE_PACK_UNIT_SIZE MAX_TIME_DIF)

/-! ## Padding -/

theorem getRandLen_pos (n draw : ℕ) : 1 ≤ getRandLen n draw := Nat.le_add_left 1 _

theorem getRandLen_add_le {n : ℕ} (hn : n ≤ 2000) (draw : ℕ) : getRandLen n draw + n ≤ 2001 := by
  unfold getRandLen
  split
  · omega
  · split <;> omega

theorem padding_length {randLen : ℕ} (h : 1 ≤ randLen) : (padding randLen).length = randLen := by
  rw [padding]
  split
  · simp only [List.length_cons, List.length_replicate]
    omega
  · simp only [List.length_append, List.length_cons, List.length_nil, List.length_replicate]
    omega

/-- Either encoding of the length of the padding leads to what follows it. -/
theorem dataPos_padding {a : Bytes} {i randLen : ℕ} (ha : a.length = i) (hmax : randLen < 65536)
    (l : Bytes) : dataPos (a ++ (padding randLen ++ l)) i = randLen + i := by
  rw [dataPos, byteAt_append_right (by omega), rdBe16_append_right (by omega), ha, Nat.sub_self,
    Nat.add_sub_cancel_left]
  by_cases h : randLen < 128
  · have hbyte : (byteAt (padding randLen ++ l) 0).toNat = randLen := by
      have hval : (UInt8.ofNat randLen).toNat = randLen := by
        rw [UInt8.toNat_ofNat']
        omega
      rw [padding, if_pos h]
      exact hval
    rw [hbyte, if_pos (by omega)]
  · have hfield : padding randLen ++ l =
        [0xFF] ++ (be16 randLen ++ (List.replicate (randLen - 3) 0 ++ l)) := by
      rw [padding, if_neg h]
      rfl
    have hlen : rdBe16 (padding randLen ++ l) 1 = randLen := by
      rw [hfield, rdBe16_field (show List.length [(0xFF : UInt8)] = 1 from rfl)]
      omega
    have hbyte : (byteAt (padding randLen ++ l) 0).toNat = 255 := by
      rw [hfield]
      rfl
    rw [hbyte, hlen, if_neg (by omega)]

/-! ## Data frames -/

section Frame

variable (randLen : ℕ) (data : Bytes)

/-- The guard of the length. -/
def frameCheck : Bytes := le16 (crc32Imp (be16 (randLen + data.length + 8))).toNat

/-- A data frame up to its checksum. -/
def frameBody : Bytes :=
  be16 (randLen + data.length + 8) ++ (frameCheck randLen data ++ (padding randLen ++ data))

theorem dataFrame_eq : dataFrame randLen data =
    frameBody randLen data ++ le32 (adler32 (frameBody randLen data)).toNat := by
  rw [dataFrame, frameBody, frameCheck]
  rw [fillAdler32_append _ (List.length_replicate ..)]
  simp only [List.append_assoc]

variable {randLen}

theorem frameBody_length (h : 1 ≤ randLen) :
    (frameBody randLen data).length = randLen + data.length + 4 := by
  simp only [frameBody, frameCheck, List.length_append, be16_length, le16_length, padding_length h]
  omega

theorem dataFrame_length (h : 1 ≤ randLen) :
    (dataFrame randLen data).length = randLen + data.length + 8 := by
  rw [dataFrame_eq, List.length_append, frameBody_length data h, le32_length]

end Frame

/-- A frame as the peers make them: the padding has its length, and the whole frame stays below the
limit of the receivers. -/
structure FrameFits (randLen : ℕ) (data : Bytes) : Prop where
  rand_pos : 1 ≤ randLen
  size_lt : randLen + data.length + 8 < 8192

theorem packData_fits {data : Bytes} (h : data.length ≤ 2000) (draw : ℕ) :
    FrameFits (getRandLen data.length draw) data := by
  have hle := getRandLen_add_le h draw
  exact ⟨getRandLen_pos _ _, by omega⟩

section Step

variable {sendback : Bool} {randLen : ℕ} {data : Bytes}

variable (sendback) in
/-- The first checks of a pass, on any bytes that start like the frame. -/
theorem recvStep_of_cat (hfits : FrameFits randLen data) {b r t : Bytes}
    (hcat : b ++ r = dataFrame randLen data ++ t) (hlen : 4 < b.length) :
    recvStep sendback b =
      if b.length < randLen + data.length + 8 then .more sendback
      else if checkAdler32 b (randLen + data.length + 8) = false then
        .halt sendback (.invalid true)
      else if randLen + data.length + 4 < dataPos b 4 then .halt sendback .overrun
      else
        .took (sendback || dataPos b 4 == randLen + data.length + 4)
          ((b.drop (dataPos b 4)).take (randLen + data.length + 4 - dataPos b 4))
          (randLen + data.length + 8) := by
  have hrand := hfits.rand_pos
  have hsize := hfits.size_lt
  have hstream : b ++ r = be16 (randLen + data.length + 8) ++ (frameCheck randLen data ++
      (padding randLen ++ (data ++ (le32 (adler32 (frameBody randLen data)).toNat ++ t)))) := by
    rw [hcat, dataFrame_eq, frameBody]
    simp only [List.append_assoc]
  have htake : b.take 2 = be16 (randLen + data.length + 8) := by
    have h := congrArg (List.take 2) hstream
    rwa [List.take_append_of_le_length (by omega), List.take_left' (be16_length _)] at h
  have hcheck : rdLe16 b 2 = (crc32Imp (be16 (randLen + data.length + 8))).toNat % 65536 := by
    rw [← rdLe16_append_left (l := r) (by omega), hstream, frameCheck, rdLe16_field (be16_length _)]
  have hsz : rdBe16 b 0 = randLen + data.length + 8 := by
    rw [← rdBe16_append_left (l := r) (by omega), hstream, rdBe16_be16_append]
    omega
  have hnot : ¬ (8192 ≤ randLen + data.length + 8 ∨ randLen + data.length + 8 < 7) := by omega
  have hsub : randLen + data.length + 8 - 4 = randLen + data.length + 4 := by omega
  rw [recvStep, if_neg (by omega)]
  simp only [htake, hcheck, hsz, ne_eq, not_true, if_false, hnot, hsub]

theorem recvStep_wait (hfits : FrameFits randLen data) {b r : Bytes}
    (hcat : b ++ r = dataFrame randLen data) (hr : r ≠ []) :
    recvStep sendback b = .more sendback := by
  have hlen := congrArg List.length hcat
  rw [List.length_append, dataFrame_length _ hfits.rand_pos] at hlen
  have hrpos := List.length_pos_iff.2 hr
  by_cases hshort : b.length ≤ 4
  · rw [recvStep, if_pos hshort]
  · rw [← List.append_nil (dataFrame _ _)] at hcat
    rw [recvStep_of_cat _ hfits hcat (by omega), if_pos (by omega)]

variable (sendback) in
theorem recvStep_full (hfits : FrameFits randLen data) (l : Bytes) :
    ∃ sendback', recvStep sendback (dataFrame randLen data ++ l) =
      .took sendback' data (dataFrame randLen data).length := by
  have hrand := hfits.rand_pos
  have hsize := hfits.size_lt
  have hflen := dataFrame_length data hrand
  have hblen := frameBody_length data hrand
  have hcat : (dataFrame randLen data ++ l) ++ [] = dataFrame randLen data ++ l :=
    List.append_nil _
  have hstep := recvStep_of_cat sendback hfits hcat
    (by rw [List.length_append]; omega)
  -- the checksum and the position of the payload
  have hadler : checkAdler32 (dataFrame randLen data ++ l) (randLen + data.length + 8) = true := by
    have hfill := checkAdler32_fill (frameBody randLen data) l
    rwa [hblen, ← List.append_assoc, ← dataFrame_eq] at hfill
  have ha : (be16 (randLen + data.length + 8) ++ frameCheck randLen data).length = 4 := rfl
  have hsplit : dataFrame randLen data ++ l =
      (be16 (randLen + data.length + 8) ++ frameCheck randLen data) ++
        (padding randLen ++ (data ++ (le32 (adler32 (frameBody randLen data)).toNat ++ l))) := by
    rw [dataFrame_eq, frameBody]
    simp only [List.append_assoc]
  have hpos : dataPos (dataFrame randLen data ++ l) 4 = randLen + 4 := by
    rw [hsplit]
    exact dataPos_padding ha (by omega) _
  have hdata : ((dataFrame randLen data ++ l).drop (randLen + 4)).take
      (randLen + data.length + 4 - (randLen + 4)) = data := by
    have hlen : ((be16 (randLen + data.length + 8) ++ frameCheck randLen data) ++
        padding randLen).length = randLen + 4 := by
      rw [List.length_append, ha, padding_length hrand]
      omega
    have hn : randLen + data.length + 4 - (randLen + 4) = data.length := by omega
    rw [hsplit, ← List.append_assoc, List.drop_left' hlen, hn, List.take_left]
  rw [if_neg (by rw [List.length_append]; omega), hadler, if_neg (by simp), hpos,
    if_neg (by omega), hdata] at hstep
  exact ⟨_, by rw [hstep, hflen]⟩

end Step

/-! ## Streams of data frames -/

/-- `sendback` has no influence on what is received. -/
abbrev AnyFlag (_ _ : Bool) : Prop := True

theorem recvStep_rel {s t : Bool} (b : Bytes) :
    PeelRel AnyFlag (recvStep s b) (recvStep t b) := by
  unfold recvStep
  dsimp only
  split
  · exact .more trivial
  · split
    · exact .halt _ trivial
    · split
      · exact .halt _ trivial
      · split
        · exact .more trivial
        · split
          · exact .halt _ trivial
          · split
            · exact .halt _ trivial
            · exact .took _ _ trivial

/-- The stream consists of data frames that carry `out`. -/
inductive Frames : Bytes → Bytes → Prop where
  | nil : Frames [] []
  | cons {randLen : ℕ} {data t out : Bytes} :
      FrameFits randLen data → Frames t out → Frames (dataFrame randLen data ++ t) (data ++ out)

theorem recvStep_takes {randLen : ℕ} {data : Bytes} (hfits : FrameFits randLen data) (t : Bytes) :
    Takes recvStep AnyFlag (fun _ => True) (fun _ => True) false (dataFrame randLen data) t data
      false := by
  refine takes_of_waits ?_ ?_
  · intro s₀ _ l
    obtain ⟨sendback, hstep⟩ := recvStep_full s₀ hfits l
    exact ⟨sendback, hstep, trivial⟩
  · intro s₀ _ p l hp hl
    exact ⟨s₀, recvStep_wait hfits hp hl, trivial⟩

/-- The receive loops take the frames one by one. -/
theorem Frames.parses {stream out : Bytes} (h : Frames stream out) :
    Parses recvStep AnyFlag (fun _ => True) (fun _ => True) false stream out false [] := by
  induction h with
  | nil => exact .rest (waits_nil trivial fun s₀ _ => ⟨s₀, by simp [recvStep], trivial⟩)
  | @cons randLen data t out hfits _ ih =>
      have hne : dataFrame randLen data ≠ [] := by
        refine List.length_pos_iff.1 ?_
        rw [dataFrame_length data hfits.rand_pos]
        omega
      exact .frame hne (recvStep_takes hfits t) ih

/-- The loop over the units emits frames that carry the data. -/
theorem packUnits_frames (always : Bool) (draws : ℕ → ℕ) {fuel i : ℕ} (data : Bytes) {t out : Bytes}
    (hfuel : data.length < fuel) (hp : Frames t out) :
    Frames (packUnits always draws fuel i data ++ t) (data ++ out) := by
  induction fuel generalizing data i with
  | zero => omega
  | succ fuel ih =>
      rw [packUnits, AUTH_SIMPLE_PACK_UNIT_SIZE]
      by_cases hlong : 2000 < data.length
      · -- one full unit, and the rest by induction
        have hrec := @ih (i + 1) (data.drop 2000) (by rw [List.length_drop]; omega)
        have hsplit : data ++ out = data.take 2000 ++ (data.drop 2000 ++ out) := by
          rw [← List.append_assoc, List.take_append_drop]
        rw [if_pos hlong, hsplit, List.append_assoc]
        exact .cons (packData_fits (List.length_take_le _ _) _) hrec
      · rw [if_neg hlong]
        split
        · exact .cons (packData_fits (by omega) _) hp
        · have hnil : data = [] := List.length_eq_zero_iff.1 (by omega)
          rw [hnil]
          exact hp

/-! ## The client's stream -/

/-- The client's calls on one connection. -/
def clientRun (H : Mac 20) (info : ServerInfo) (st : GlobalData × LocalData)
    (sends : List (SendDraws × Bytes)) : (GlobalData × LocalData) × List Bytes :=
  run (fun st s => clientPreEncrypt H info st s.1 s.2) st sends

/-- A call behind the authentication frame. -/
theorem clientPreEncrypt_sent (H : Mac 20) (info : ServerInfo) {st : GlobalData × LocalData}
    (hsent : st.2.hasSentHeader = true) (d : SendDraws) (data : Bytes) :
    clientPreEncrypt H info st d data = (st, packUnits false d.frame (data.length + 1) 0 data) := by
  simp [clientPreEncrypt, hsent]

/-- The first call of a connection. -/
theorem clientPreEncrypt_first (H : Mac 20) (info : ServerInfo) (st : GlobalData × LocalData)
    (hsent : st.2.hasSentHeader = false) (d : SendDraws) {data : Bytes} (hdata : data ≠ []) :
    ∃ n, n ≤ 259 ∧ clientPreEncrypt H info st d data =
      ((nextConnection st.1 d.auth, { st.2 with hasSentHeader := true }),
        authFrame H info.iv info.key (nextConnection st.1 d.auth) d.auth (data.take n) ++
          packUnits false d.frame ((data.drop n).length + 1) 0 (data.drop n)) := by
  have hpos := List.length_pos_iff.2 hdata
  have hhead : getS5HeadSize data 30 ≤ 259 := by
    have hbyte := (byteAt data 1).toNat_lt
    unfold getS5HeadSize
    split
    · omega
    · split <;> omega
  refine ⟨min (getS5HeadSize data 30) data.length, by omega, ?_⟩
  simp [clientPreEncrypt, packAuthData, hpos, hsent]

/-- Behind the authentication frame the client emits data frames. -/
theorem clientRun_frames (H : Mac 20) (info : ServerInfo) (st : GlobalData × LocalData)
    (hsent : st.2.hasSentHeader = true) (sends : List (SendDraws × Bytes)) :
    Frames (clientRun H info st sends).2.flatten (sends.map Prod.snd).flatten := by
  induction sends with
  | nil => exact .nil
  | cons s sends ih =>
      rw [clientRun, run_cons, clientPreEncrypt_sent H info hsent]
      exact packUnits_frames false s.1.frame _ (Nat.lt_succ_self _) ih

/-! ## The authentication frame -/

section Header

variable (H : Mac 20) (iv key : Bytes) (g : GlobalData) (d : AuthDraws) (data : Bytes)

/-- The length of an authentication frame. -/
def authSize : ℕ := getRandLen data.length d.rand + 6 + data.length + 12 + 10

/-- The authentication frame up to its keyed hash. -/
def authBody : Bytes :=
  be16 (authSize d data) ++ (le32 (sizeCheck key (be16 (authSize d data))).toNat ++
    (padding (getRandLen data.length d.rand) ++ (authHead g d.time ++ data)))

theorem authFrame_eq : authFrame H iv key g d data =
    authBody key g d data ++ (H.run (authBody key g d data) (iv ++ key)).take 10 := rfl

theorem authHead_length (time : ℕ) : (authHead g time).length = 12 := by
  simp [authHead]

theorem authBody_length : (authBody key g d data).length = authSize d data - 10 := by
  simp only [authBody, authSize, List.length_append, be16_length, le32_length, authHead_length,
    padding_length (getRandLen_pos _ _)]
  omega

theorem mac_take_length (msg macKey : Bytes) : ((H.run msg macKey).take 10).length = 10 := by
  rw [List.length_take, H.run_length]
  rfl

theorem authFrame_length : (authFrame H iv key g d data).length = authSize d data := by
  rw [authFrame_eq, List.length_append, authBody_length, mac_take_length, authSize]
  omega

variable {data}

theorem authSize_le (hdata : data.length ≤ 259) : authSize d data ≤ 2029 := by
  have hle := getRandLen_add_le (show data.length ≤ 2000 by omega) d.rand
  rw [authSize]
  omega

variable {H iv key g d}

/-- The guard of the length and the length, on any bytes that start like the frame. -/
theorem guard_of_cat (hdata : data.length ≤ 259) {b r t : Bytes}
    (hcat : b ++ r = authFrame H iv key g d data ++ t) (hlen : 6 < b.length) :
    (sizeCheck key (b.take 2)).toNat = rdLe32 b 2 ∧ rdBe16 b 0 = authSize d data := by
  have hsize := authSize_le d hdata
  have hstream : b ++ r = be16 (authSize d data) ++
      (le32 (sizeCheck key (be16 (authSize d data))).toNat ++
        (padding (getRandLen data.length d.rand) ++ (authHead g d.time ++ (data ++
          ((H.run (authBody key g d data) (iv ++ key)).take 10 ++ t))))) := by
    rw [hcat, authFrame_eq, authBody]
    simp only [List.append_assoc]
  have htake : b.take 2 = be16 (authSize d data) := by
    have h := congrArg (List.take 2) hstream
    rwa [List.take_append_of_le_length (by omega), List.take_left' (be16_length _)] at h
  have hcheck : rdLe32 b 2 = (sizeCheck key (be16 (authSize d data))).toNat := by
    have hlt := (sizeCheck key (be16 (authSize d data))).toNat_lt
    have hleft : rdLe32 (b ++ r) 2 = rdLe32 b 2 := by
      rw [rdLe32, rdLe32, rdLe16_append_left (by omega), rdLe16_append_left (by omega)]
    rw [← hleft, hstream, rdLe32_field (be16_length _), Nat.mod_eq_of_lt hlt]
  refine ⟨by rw [htake, hcheck], ?_⟩
  rw [← rdBe16_append_left (l := r) (by omega), hstream, rdBe16_be16_append]
  omega

variable {info : ServerInfo} {now : ℕ} {l : LocalData}

variable (now) in
theorem readHeader_wait (hdata : data.length ≤ 259) {r t : Bytes}
    (hcat : l.recvBuffer ++ r = authFrame H info.recvIv info.key g d data ++ t)
    (hlen : l.recvBuffer.length < (authFrame H info.recvIv info.key g d data).length) :
    readHeader H info now l = .wait := by
  rw [authFrame_length] at hlen
  rw [readHeader]
  by_cases hshort : l.recvBuffer.length ≤ 6
  · rw [if_pos hshort]
  · obtain ⟨hcheck, hsize⟩ := guard_of_cat hdata hcat (by omega)
    rw [if_neg hshort, if_neg (by simp [hcheck])]
    simp only [hsize, if_pos hlen]

theorem readHeader_done (hdata : data.length ≤ 259) {buf : Bytes}
    (hcat : l.recvBuffer = authFrame H info.recvIv info.key g d data ++ buf)
    (hclock : timeDiff now (d.time % 4294967296) ≤ MAX_TIME_DIF) :
    ∃ l', readHeader H info now l = .done l' data ∧ l'.recvBuffer = buf ∧
      l'.hasRecvHeader = true := by
  have hflen := authFrame_length H info.recvIv info.key g d data
  have hblen := authBody_length info.key g d data
  have hhead := authHead_length g d.time
  have hsize : authSize d data = getRandLen data.length d.rand + 6 + data.length + 12 + 10 := rfl
  have hrand := getRandLen_pos data.length d.rand
  have hle := authSize_le d hdata
  have hlen : l.recvBuffer.length = authSize d data + buf.length := by
    rw [hcat, List.length_append, hflen]
  obtain ⟨hcheck, hread⟩ := guard_of_cat (b := l.recvBuffer) (r := []) hdata
    (by rw [List.append_nil, hcat]) (by omega)
  -- the keyed hash, and the bytes between the padding and the hash
  have htake : l.recvBuffer.take (authSize d data - 10) = authBody info.key g d data := by
    rw [hcat, authFrame_eq, List.append_assoc]
    exact List.take_left' hblen
  have hmac : window l.recvBuffer (authSize d data - 10) 10 =
      (H.run (authBody info.key g d data) (info.recvIv ++ info.key)).take 10 := by
    rw [hcat, authFrame_eq, List.append_assoc]
    exact window_field hblen (mac_take_length _ _ _)
  have hsplit : l.recvBuffer = (be16 (authSize d data) ++
      le32 (sizeCheck info.key (be16 (authSize d data))).toNat) ++
        (padding (getRandLen data.length d.rand) ++ ((authHead g d.time ++ data) ++
          ((H.run (authBody info.key g d data) (info.recvIv ++ info.key)).take 10 ++ buf))) := by
    rw [hcat, authFrame_eq, authBody]
    simp only [List.append_assoc]
  have hpos : dataPos l.recvBuffer 6 = getRandLen data.length d.rand + 6 := by
    rw [hsplit]
    exact dataPos_padding rfl (by omega) _
  have hout : (l.recvBuffer.drop (getRandLen data.length d.rand + 6)).take
      (authSize d data - 10 - (getRandLen data.length d.rand + 6)) = authHead g d.time ++ data := by
    have hpre : ((be16 (authSize d data) ++
        le32 (sizeCheck info.key (be16 (authSize d data))).toNat) ++
          padding (getRandLen data.length d.rand)).length =
            getRandLen data.length d.rand + 6 := by
      simp only [List.length_append, be16_length, le32_length, padding_length hrand]
      omega
    have hn : authSize d data - 10 - (getRandLen data.length d.rand + 6) =
        (authHead g d.time ++ data).length := by
      rw [List.length_append, hhead]
      omega
    rw [hsplit, ← List.append_assoc, List.drop_left' hpre, hn, List.take_left]
  have htime : rdLe32 (authHead g d.time ++ data) 0 = d.time % 4294967296 := by
    rw [authHead, List.append_assoc, rdLe32_le32_append]
  have hdrop : shortenedTo l.recvBuffer (authSize d data)
      (subSize l.recvBuffer.length (authSize d data)) = buf := by
    rw [hcat]
    exact shortenedTo_append hflen
  refine ⟨{ l with
    clientId := rdLe32 (authHead g d.time ++ data) 4
    connectionId := rdLe32 (authHead g d.time ++ data) 8
    recvBuffer := buf
    hasRecvHeader := true }, ?_, rfl, rfl⟩
  have hshort : ¬ (authHead g d.time ++ data).length < 12 := by
    rw [List.length_append]
    omega
  rw [readHeader, if_neg (by omega), if_neg (by simp [hcheck])]
  simp only [hread, htake, hmac, hpos, hout, htime, hdrop, shortenedTo_append hhead, ne_eq,
    not_true, if_false, if_neg hshort, if_neg (Nat.not_lt.2 hclock)]
  rw [if_neg (by omega), if_neg (by omega), if_neg (by omega)]

end Header

/-! ## The server's calls -/

section Server

variable {H : Mac 20} {info : ServerInfo}

/-- The buffer of a call of the server that reports no error. -/
def bytes? (r : Returned UInt8 × Bool) : Option Bytes := r.1.items?

/-- Behind the authentication frame, with the carried bytes. -/
structure Receiving (l : LocalData) (t : Bool × Bytes) : Prop where
  header : l.hasRecvHeader = true
  recvBuffer : l.recvBuffer = t.2

/-- The receive loop of a call, whatever `sendback` was. -/
theorem recvLoop_of_drain {l : LocalData} {t : Bool × Bytes} (h : Receiving l t) (first : Bytes)
    (sendback : Bool) {d : Drained Bool UInt8 UInt8 RecvError}
    (hd : drain recvStep (t.2.length + 1) t.1 t.2 [] = d) (hok : d.stop = none) :
    Receiving (recvLoop l first sendback).1 (d.state, d.rest) ∧
      bytes? (recvLoop l first sendback).2 = some (first ++ d.out) := by
  obtain ⟨hheader, hbuf⟩ := h
  have hsame : AnyFlag sendback t.1 := trivial
  obtain ⟨-, hrest, hout, hstop⟩ := drain_rel (fun b _ => recvStep_rel b) (t.2.length + 1) hsame
    t.2 []
  rw [hd] at hrest hout hstop
  rw [hok] at hstop
  have hloop : recvLoop l first sendback =
      ({ l with recvBuffer := d.rest },
        (.out (first ++ d.out), (drain recvStep (t.2.length + 1) sendback t.2 []).state)) := by
    rw [recvLoop, hbuf, drain_acc]
    simp only [hstop, hrest, hout]
  rw [hloop]
  exact ⟨⟨hheader, rfl⟩, rfl⟩

/-- The state with a segment appended to what was carried over. -/
def received (l : LocalData) (seg : Bytes) : LocalData :=
  { l with recvBuffer := l.recvBuffer ++ seg }

theorem serverPostDecrypt_wait {l : LocalData} {now : ℕ} {seg : Bytes}
    (hl : l.hasRecvHeader = false) (h : readHeader H info now (received l seg) = .wait) :
    serverPostDecrypt H info l (now, seg) = (received l seg, (.out [], false)) := by
  unfold serverPostDecrypt
  refine (if_neg (by simp [hl])).trans ?_
  have h' : readHeader H info now { l with recvBuffer := l.recvBuffer ++ seg } = .wait := h
  dsimp only
  rw [h']
  rfl

theorem serverPostDecrypt_done {l l' : LocalData} {now : ℕ} {seg out : Bytes}
    (hl : l.hasRecvHeader = false) (h : readHeader H info now (received l seg) = .done l' out) :
    serverPostDecrypt H info l (now, seg) = recvLoop l' out true := by
  unfold serverPostDecrypt
  refine (if_neg (by simp [hl])).trans ?_
  have h' : readHeader H info now { l with recvBuffer := l.recvBuffer ++ seg } = .done l' out := h
  dsimp only
  rw [h']

theorem serverPostDecrypt_open {l : LocalData} (hl : l.hasRecvHeader = true) (now : ℕ)
    (seg : Bytes) : serverPostDecrypt H info l (now, seg) = recvLoop (received l seg) [] false := by
  unfold serverPostDecrypt
  exact if_pos hl

variable (H info) in
/-- The authentication frame is the header of the client's stream. -/
theorem serverPostDecrypt_prelude (g : GlobalData) (d : AuthDraws) {data : Bytes}
    (hdata : data.length ≤ 259) (frames : Bytes) :
    Prelude (serverPostDecrypt H info) Prod.snd bytes? recvStep false
      (fun call => timeDiff call.1 (d.time % 4294967296) ≤ MAX_TIME_DIF)
      (authFrame H info.recvIv info.key g d data) frames data
      (authFrame H info.recvIv info.key g d data).length
      (fun c l => l.recvBuffer = c ∧ l.hasRecvHeader = false) Receiving where
  header_le := Nat.le_refl _
  wait := by
    rintro _ l ⟨now, seg⟩ ⟨rfl, hheader⟩ - ⟨r, hcat⟩ hlen
    dsimp only at hcat hlen ⊢
    have hcat' : (received l seg).recvBuffer ++ r =
        authFrame H info.recvIv info.key g d data ++ frames := hcat
    have hread := readHeader_wait now hdata hcat' hlen
    rw [serverPostDecrypt_wait hheader hread]
    exact ⟨⟨rfl, hheader⟩, rfl⟩
  start := by
    rintro _ l ⟨now, seg⟩ buf ⟨rfl, hheader⟩ hclock hcat - hok
    dsimp only at hclock hcat ⊢
    have hcat' : (received l seg).recvBuffer =
        authFrame H info.recvIv info.key g d data ++ buf := hcat
    obtain ⟨l', hread, hbuf, hheader'⟩ := readHeader_done hdata hcat' hclock
    have hrecv : Receiving l' (false, [] ++ buf) := ⟨hheader', hbuf⟩
    rw [serverPostDecrypt_done hheader hread]
    exact recvLoop_of_drain hrecv data true rfl hok
  next := by
    rintro l t ⟨now, seg⟩ hrecv - hok
    have hrecv' : Receiving (received l seg) (t.1, t.2 ++ seg) :=
      ⟨hrecv.header, congrArg (· ++ seg) hrecv.recvBuffer⟩
    rw [serverPostDecrypt_open hrecv.header]
    exact recvLoop_of_drain hrecv' [] false rfl hok

end Server

/-- Client to server: no call reports an error, and the payloads arrive. -/
theorem client_frames_delivered (H : Mac 20) {cinfo sinfo : ServerInfo} (hiv : sinfo.recvIv = cinfo.iv)
    (hkey : sinfo.key = cinfo.key) (g : GlobalData) {sends : List (SendDraws × Bytes)}
    {calls : List (ℕ × Bytes)}
    (hclock : ∀ s ∈ sends.head?, ∀ c ∈ calls, ((c.1 : ℤ) - s.1.auth.time).natAbs ≤ MAX_TIME_DIF)
    (hsends : ∀ s ∈ sends, s.2 ≠ []) (hcalls : ∀ c ∈ calls, c.2 ≠ [])
    (hcat : (calls.map Prod.snd).flatten = (clientRun H cinfo (g, localDataInit) sends).2.flatten) :
    (∀ r ∈ (run (serverPostDecrypt H sinfo) localDataInit calls).2, bytes? r ≠ none) ∧
      delivered ((run (serverPostDecrypt H sinfo) localDataInit calls).2.map bytes?) =
        (sends.map Prod.snd).flatten := by
  cases sends with
  | nil =>
      have hnil : calls.map Prod.snd = [] := by
        refine eq_nil_of_flatten_eq_nil ?_ hcat
        intro s hs
        obtain ⟨c, hc, rfl⟩ := List.mem_map.1 hs
        exact hcalls c hc
      rw [List.map_eq_nil_iff] at hnil
      subst hnil
      exact ⟨by simp, rfl⟩
  | cons s sends =>
      obtain ⟨d, data⟩ := s
      obtain ⟨n, hn, hfirst⟩ := clientPreEncrypt_first H cinfo (g, localDataInit) rfl d
        (hsends (d, data) (by simp))
      have hshort : (data.take n).length ≤ 259 := by
        rw [List.length_take]
        omega
      -- what follows the authentication frame
      have hrest := clientRun_frames H cinfo (nextConnection g d.auth,
        { localDataInit with hasSentHeader := true }) rfl sends
      have hframes := packUnits_frames (i := 0) false d.frame (data.drop n)
        (Nat.lt_succ_self _) hrest
      generalize hstream : packUnits false d.frame ((data.drop n).length + 1) 0 (data.drop n) ++
        (clientRun H cinfo (nextConnection g d.auth, { localDataInit with hasSentHeader := true })
          sends).2.flatten = stream at hframes
      have hpre := serverPostDecrypt_prelude H sinfo (nextConnection g d.auth) d.auth hshort stream
      have hflen := authFrame_length H sinfo.recvIv sinfo.key (nextConnection g d.auth) d.auth
        (data.take n)
      have hpos : 0 < authSize d.auth (data.take n) := Nat.succ_pos _
      have hall : [] ++ (calls.map Prod.snd).flatten =
          authFrame H sinfo.recvIv sinfo.key (nextConnection g d.auth) d.auth (data.take n) ++
            stream := by
        rw [List.nil_append, hcat, clientRun, run_cons, List.flatten_cons, hfirst, List.append_assoc,
          hiv, hkey, ← hstream]
        rfl
      have hwait : localDataInit.recvBuffer = [] ∧ localDataInit.hasRecvHeader = false := ⟨rfl, rfl⟩
      obtain ⟨s₂, -, -, hnone, hdel⟩ := hpre.run_complete hwait
        (by rw [hflen, List.length_nil]; exact hpos)
        (fun c hc => timeDiff_le (by decide) (hclock (d, data) (by simp) c hc)) hall
        (by rw [List.length_append]; omega) hframes.parses trivial
        (cutsOk_of_forall (fun _ => trivial) _)
      refine ⟨hnone, ?_⟩
      rw [hdel, List.map_cons, List.flatten_cons, ← List.append_assoc, List.take_append_drop]

/-! ## The client's calls -/

/-- The server emits data frames only. -/
theorem serverPreEncrypt_frames (sends : List ((ℕ → ℕ) × Bytes)) :
    Frames (sends.map fun s => serverPreEncrypt s.1 s.2).flatten (sends.map Prod.snd).flatten := by
  induction sends with
  | nil => exact .nil
  | cons s sends ih => exact packUnits_frames true s.1 _ (Nat.lt_succ_self _) ih

/-- The receive loop waits on less than a frame. -/
theorem recvStep_more_length {s s' : Bool} {b : Bytes} (h : recvStep s b = .more s') :
    b.length < 8192 := by
  unfold recvStep at h
  split at h
  · omega
  · dsimp only at h
    split at h
    · cases h
    · split at h
      · cases h
      · split at h
        · omega
        · split at h
          · cases h
          · split at h <;> cases h

theorem recvStep_took_length {s s' : Bool} {b out : Bytes} {n : ℕ}
    (h : recvStep s b = .took s' out n) : 0 < n ∧ n ≤ b.length := by
  unfold recvStep at h
  split at h
  · cases h
  · dsimp only at h
    split at h
    · cases h
    · split at h
      · cases h
      · split at h
        · cases h
        · split at h
          · cases h
          · split at h
            · cases h
            · cases h
              omega

/-- The carried bytes, which are less than a frame. -/
structure Receives (l : LocalData) (t : Bool × Bytes) : Prop where
  recvBuffer : l.recvBuffer = t.2
  carried : t.2.length < 8192

/-- A call whose segment fits into `recv_buffer` is a pass of the receive loop. -/
theorem clientPostDecrypt_follows :
    Follows clientPostDecrypt id Returned.items? recvStep (fun seg => seg.length ≤ 2048) Receives where
  next := by
    rintro l t seg ⟨hbuf, hcarried⟩ hseg hok
    have hfits : ¬ 16384 < l.recvBuffer.length + seg.length := by
      rw [hbuf]
      omega
    simp only [feed, id] at hok ⊢
    have hsame : AnyFlag false t.1 := trivial
    obtain ⟨-, hrest, hout, hstop⟩ := drain_rel (fun b _ => recvStep_rel b)
      ((t.2 ++ seg).length + 1) hsame (t.2 ++ seg) []
    have hcarry := drain_rest_lt recvStep_more_length recvStep_took_length
      (Nat.lt_succ_self (t.2 ++ seg).length) hok
    rw [hok] at hstop
    rw [clientPostDecrypt, if_neg hfits, receive]
    simp only [hbuf, hstop, hrest, hout]
    exact ⟨⟨rfl, hcarry⟩, rfl⟩

theorem Frames.out_nil {stream out : Bytes} (h : Frames stream out) (hnil : stream = []) :
    out = [] := by
  cases h with
  | nil => rfl
  | @cons randLen data t out hfits _ =>
      have hlen := congrArg List.length hnil
      rw [List.length_append, dataFrame_length data hfits.rand_pos, List.length_nil] at hlen
      omega

/-- Server to client: no call reports an error, and the buffers arrive. -/
theorem server_frames_delivered {cl : LocalData} (hbuf : cl.recvBuffer = [])
    {sends : List ((ℕ → ℕ) × Bytes)} {segs : List Bytes} (hread : ∀ s ∈ segs, s.length ≤ 2048)
    (hcat : segs.flatten = (sends.map fun s => serverPreEncrypt s.1 s.2).flatten) :
    (∀ r ∈ (run clientPostDecrypt cl segs).2, r.items? ≠ none) ∧
      delivered ((run clientPostDecrypt cl segs).2.map Returned.items?) =
        (sends.map Prod.snd).flatten := by
  have hframes := serverPreEncrypt_frames sends
  rw [← hcat] at hframes
  by_cases hne : segs = []
  · subst hne
    exact ⟨by simp, (hframes.out_nil rfl).symm⟩
  · have hrecv : Receives cl (false, []) := ⟨hbuf, Nat.zero_lt_succ _⟩
    have hp := hframes.parses
    rw [← List.map_id segs] at hp
    obtain ⟨s₂, -, -, hnone, hdel⟩ := clientPostDecrypt_follows.run_complete hrecv hread hp trivial
      (cutsOk_of_forall (fun _ => trivial) _) hne
    exact ⟨hnone, hdel⟩

end AuthSha1V4
end Obfs
end SsrNative
