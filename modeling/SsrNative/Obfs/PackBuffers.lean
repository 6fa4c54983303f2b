import SsrNative.Obfs.AuthAes128Stream
import SsrNative.Obfs.ChecksumStream

/-!
# PackBuffers — what the senders write into their scratch buffers

A call packs its data into a buffer of twice the length of the data and some slack.  Every frame is
longer than its data by its padding and a fixed number of bytes; a full unit of 2000 bytes is not
made longer than 4000, and the slack has room for what is added to the first and the last frame.
-/

namespace SsrNative
namespace Obfs
namespace PackBuffers

open Bytes
open AuthAes128 (GlobalData FrameDraws AUTH_SIMPLE_PACK_UNIT_SIZE)
open AuthSha1V4 (AuthDraws getS5HeadSize getRandLen)
open ChecksumFrames

/-! ## The calls of the newer protocols -/

/-- The result of a call that counts the bytes in a `size_t`. -/
def packedSize (scratch : ℕ) (written : Bytes) : Packed := ⟨scratch, written, some written.length⟩

def authSha1V4ClientPacked (H : Mac 20) (info : AuthSha1V4.ServerInfo)
    (st : GlobalData × AuthSha1V4.LocalData) (d : AuthSha1V4.SendDraws) (data : Bytes) : Packed :=
  packed (data.length * 2 + SSR_BUFF_SIZE * 2) (AuthSha1V4.clientPreEncrypt H info st d data).2

def authSha1V4ServerPacked (draws : ℕ → ℕ) (buf : Bytes) : Packed :=
  packedSize (buf.length * 2 + SSR_BUFF_SIZE * 2) (AuthSha1V4.serverPreEncrypt draws buf)

def authAes128ClientPacked (S : AuthAes128.Suite) (info : AuthAes128.ServerInfo)
    (st : GlobalData × AuthAes128.LocalData) (d : AuthAes128.SendDraws) (data : Bytes) : Packed :=
  packedSize (data.length * 2 + SSR_BUFF_SIZE * 2) (AuthAes128.clientPreEncrypt S info st d data).2

def authAes128ServerPacked (S : AuthAes128.Suite) (info : AuthAes128.ServerInfo)
    (l : AuthAes128.LocalData) (draws : ℕ → FrameDraws) (buf : Bytes) : Packed :=
  packedSize (buf.length * 2 + SSR_BUFF_SIZE * 2) (AuthAes128.serverPreEncrypt S info l draws buf).2

/-! ## Scratch buffers -/

/-- The bytes written fit into the scratch buffer, and their number is returned. -/
structure Fits (p : Packed) : Prop where
  room : p.written.length ≤ p.scratch
  counted : p.returned = some p.written.length

/-- The bytes written fit, and their number is returned exactly when the total, which is that number,
is at most `INT_MAX`. -/
def FitsBelow (p : Packed) (total : ℕ) : Prop :=
  p.written.length ≤ p.scratch ∧ (Fits p ↔ total < 2147483648)

theorem intLength_eq_iff (n : ℕ) : intLength n = some n ↔ n < 2147483648 := by
  unfold intLength
  split_ifs with h
  · rw [Option.some.injEq]
    omega
  · exact iff_of_false nofun (by omega)

theorem fits_packed_iff {scratch : ℕ} {written : Bytes} (h : written.length ≤ scratch) :
    Fits (packed scratch written) ↔ written.length < 2147483648 := by
  rw [← intLength_eq_iff]
  exact ⟨fun hfits => hfits.counted, fun hcounted => ⟨h, hcounted⟩⟩

/-- A buffer that has to grow needs a size that an `int` can double. -/
theorem fits_doubled_iff (capacity : ℕ) {scratch : ℕ} {written : Bytes} (h : written.length ≤ scratch) :
    (doubled capacity (packed scratch written)).written.length ≤
        (doubled capacity (packed scratch written)).scratch ∧
      (Fits (doubled capacity (packed scratch written)) ↔
        written.length < 2147483648 ∧
          (grows capacity written.length = true → written.length < 1073741824)) := by
  have hwritten : (packed scratch written).written = written := rfl
  rw [doubled, hwritten]
  split_ifs with hlarge
  · refine ⟨h, iff_of_false (fun hfits => ?_) fun hcond => ?_⟩
    · cases hfits.counted
    · exact absurd (hcond.2 hlarge.1) (Nat.not_lt.2 hlarge.2)
  · refine ⟨h, (fits_packed_iff h).trans ?_⟩
    exact (and_iff_left fun hgrows => Nat.not_le.1 fun hle => hlarge ⟨hgrows, hle⟩).symm

theorem fits_packedSize {scratch : ℕ} {written : Bytes} (h : written.length ≤ scratch) :
    Fits (packedSize scratch written) := ⟨h, rfl⟩

/-! ## The loop over units -/

/-- The length of the frames that a loop over units of 2000 bytes makes of `n` bytes, when frame `i`
is longer than its `m` bytes by `extra i m`. -/
def unitsLength (extra : ℕ → ℕ → ℕ) : ℕ → ℕ → ℕ → ℕ
  | 0, _, _ => 0
  | fuel + 1, i, n =>
      if 2000 < n then 2000 + extra i 2000 + unitsLength extra fuel (i + 1) (n - 2000)
      else if 0 < n then n + extra i n
      else 0

/-- A full unit has room for what is added to it in its second half. -/
theorem unitsLength_le {extra : ℕ → ℕ → ℕ} {most : ℕ} (hover : ∀ i m, m ≤ 2000 → extra i m ≤ most)
    (hmost : most ≤ 2000) (fuel i n : ℕ) : unitsLength extra fuel i n ≤ 2 * n + most := by
  induction fuel generalizing i n with
  | zero => exact Nat.zero_le _
  | succ fuel ih =>
      rw [unitsLength]
      split_ifs with hlong hpos
      · have hrec := ih (i + 1) (n - 2000)
        have hunit := hover i 2000 (Nat.le_refl _)
        omega
      · have hlast := hover i n (Nat.not_lt.1 hlong)
        omega
      · exact Nat.zero_le _

theorem le_unitsLength (extra : ℕ → ℕ → ℕ) {fuel i n : ℕ} (hfuel : n < fuel) :
    n ≤ unitsLength extra fuel i n := by
  induction fuel generalizing i n with
  | zero => omega
  | succ fuel ih =>
      rw [unitsLength]
      split_ifs with hlong hpos
      · have hrec := @ih (i + 1) (n - 2000) (by omega)
        omega
      · omega
      · omega

/-- The frames of `packUnits`. -/
theorem packUnits_length {pack : FrameDraws → Bytes → Bytes} {extra : FrameDraws → ℕ → ℕ}
    (hpack : ∀ d data, (pack d data).length = data.length + extra d data.length)
    (draws : ℕ → FrameDraws) (fuel i : ℕ) (data : Bytes) :
    (packUnits pack draws fuel i data).length =
      unitsLength (fun i m => extra (draws i) m) fuel i data.length := by
  induction fuel generalizing i data with
  | zero => rfl
  | succ fuel ih =>
      rw [packUnits, unitsLength, AUTH_SIMPLE_PACK_UNIT_SIZE]
      split_ifs with hlong hpos
      · have htake : (data.take 2000).length = 2000 := by
          rw [List.length_take]
          omega
        rw [List.length_append, hpack, ih, List.length_drop, htake]
      · rw [hpack]
      · rfl

/-! ## The four older protocols -/

/-- What the frames of auth_simple and auth_sha1 are longer by. -/
def shortOver (d : FrameDraws) (_ : ℕ) : ℕ := shortRandLen d.rand + 6

def longOver (d : FrameDraws) (m : ℕ) : ℕ := getRandLen m d.rand + 6

theorem shortOver_le (d : FrameDraws) (m : ℕ) : shortOver d m ≤ 22 := by
  have hle := shortRandLen_le d.rand
  rw [shortOver]
  omega

theorem longOver_le (d : FrameDraws) (m : ℕ) : longOver d m ≤ 1030 := by
  unfold longOver getRandLen
  split_ifs <;> omega

theorem shortPadding_length {randLen : ℕ} (h : 1 ≤ randLen) :
    (shortPadding randLen).length = randLen := by
  rw [shortPadding, List.length_cons, List.length_replicate]
  omega

theorem verifySimplePackData_length (d : FrameDraws) (data : Bytes) :
    (verifySimplePackData d data).length = data.length + shortOver d data.length := by
  have hpos := shortRandLen_pos d.rand
  unfold verifySimplePackData shortOver
  dsimp only
  rw [frame_length seals_crc32, List.length_cons, List.length_drop, randBytes_length]
  omega

theorem authSimplePackData_length (d : FrameDraws) (data : Bytes) :
    (authSimplePackData d data).length = data.length + shortOver d data.length := by
  have hpos := shortRandLen_pos d.rand
  rw [authSimplePackData, frame_length seals_crc32, shortPadding_length hpos, shortOver]
  omega

theorem authSha1PackData_length (d : FrameDraws) (data : Bytes) :
    (authSha1PackData d data).length = data.length + shortOver d data.length := by
  have hpos := shortRandLen_pos d.rand
  rw [authSha1PackData, frame_length seals_adler32, shortPadding_length hpos, shortOver]
  omega

theorem authSha1V2PackData_length (d : FrameDraws) (data : Bytes) :
    (authSha1V2PackData d data).length = data.length + longOver d data.length := by
  rw [authSha1V2PackData, frame_length seals_adler32,
    AuthSha1V4.padding_length (AuthSha1V4.getRandLen_pos _ _), longOver]
  omega

/-- What the first frames are longer by. -/
def authSimpleHeadOver (d : AuthDraws) (_ : ℕ) : ℕ := shortRandLen d.rand + 18

def authSha1HeadOver (d : AuthDraws) (_ : ℕ) : ℕ := d.rand % 0x80 + 1 + 28

def authSha1V2HeadOver (d : AuthDraws) (m : ℕ) : ℕ := getRandLen m d.rand + 28

theorem authSimplePackAuthData_length (g : GlobalData) (d : AuthDraws) (data : Bytes) :
    (authSimplePackAuthData g d data).2.length = data.length + authSimpleHeadOver d data.length := by
  have hpos := shortRandLen_pos d.rand
  unfold authSimplePackAuthData authSimpleHeadOver
  dsimp only
  rw [frame_length seals_crc32, shortPadding_length hpos, List.length_append,
    AuthSha1V4.authHead_length]
  omega

theorem macFrame_length (H : Mac 20) (info : AuthSha1V4.ServerInfo)
    {guard padding client data : Bytes} (hguard : guard.length = 4) (hclient : client.length = 12) :
    (macFrame H info guard padding client data).length = data.length + padding.length + 28 := by
  simp only [macFrame, List.length_append, be16_length, hguard, hclient, List.length_take,
    H.run_length]
  omega

theorem fillCrc32To_length (b : Bytes) : (Checksums.fillCrc32To b).length = 4 := rfl

theorem authSha1PackAuthData_length (H : Mac 20) (info : AuthSha1V4.ServerInfo) (g : GlobalData)
    (d : AuthDraws) (data : Bytes) :
    (authSha1PackAuthData H info g d data).2.length = data.length + authSha1HeadOver d data.length := by
  unfold authSha1PackAuthData authSha1HeadOver
  dsimp only
  rw [macFrame_length H info (fillCrc32To_length _) (AuthSha1V4.authHead_length _ _),
    shortPadding_length (Nat.le_add_left 1 _)]
  omega

theorem authSha1V2PackAuthData_length (H : Mac 20) (info : AuthSha1V4.ServerInfo) (g : GlobalData)
    (d : AuthDraws) (data : Bytes) :
    (authSha1V2PackAuthData H info g d data).2.length =
      data.length + authSha1V2HeadOver d data.length := by
  have hclient : ∀ g : GlobalData, (window g.localClientId 0 8 ++ le32 g.connectionId).length = 12 :=
    fun g => by rw [List.length_append, window_length, le32_length]
  unfold authSha1V2PackAuthData authSha1V2HeadOver
  dsimp only
  rw [macFrame_length H info (fillCrc32To_length _) (hclient _),
    AuthSha1V4.padding_length (AuthSha1V4.getRandLen_pos _ _)]
  omega

/-- What a call of a client packs: a first frame of `head` bytes, if it has not been sent, and the
frames of the rest. -/
def sentLength (extra : ℕ → ℕ → ℕ) (headOver : ℕ → ℕ) (sent : Bool) (head n : ℕ) : ℕ :=
  if 0 < n ∧ sent = false then
    head + headOver head + unitsLength extra (n - head + 1) 0 (n - head)
  else unitsLength extra (n + 1) 0 n

theorem sentLength_le {extra : ℕ → ℕ → ℕ} {headOver : ℕ → ℕ} {most mostHead head n : ℕ}
    (hover : ∀ i m, m ≤ 2000 → extra i m ≤ most) (hmost : most ≤ 2000)
    (hheadOver : ∀ m, headOver m ≤ mostHead) (hhead : head ≤ n) (sent : Bool) :
    sentLength extra headOver sent head n ≤ n * 2 + (mostHead + most) := by
  unfold sentLength
  split_ifs
  · have hfirst := hheadOver head
    have hrest := unitsLength_le hover hmost (n - head + 1) 0 (n - head)
    omega
  · have hrest := unitsLength_le hover hmost (n + 1) 0 n
    omega

/-- The size of the first frame's data. -/
def headSize (data : Bytes) : ℕ := min (getS5HeadSize data 30) data.length

/-- A call of auth_simple, auth_sha1 or auth_sha1_v2. -/
theorem clientPreEncrypt_fits_iff {packAuth : GlobalData → AuthDraws → Bytes → GlobalData × Bytes}
    {pack : FrameDraws → Bytes → Bytes} {extra : FrameDraws → ℕ → ℕ} {headOver : AuthDraws → ℕ → ℕ}
    {most room : ℕ} (mostHead : ℕ)
    (hpack : ∀ d data, (pack d data).length = data.length + extra d data.length)
    (hauth : ∀ g d data, (packAuth g d data).2.length = data.length + headOver d data.length)
    (hover : ∀ d m, extra d m ≤ most) (hmost : most ≤ 2000) (hhead : ∀ d m, headOver d m ≤ mostHead)
    (hroom : mostHead + most ≤ room) (st : GlobalData × Bool) (d : SendDraws) (data : Bytes) :
    FitsBelow (clientPreEncrypt packAuth pack room st d data).2
      (sentLength (fun i m => extra (d.frame i) m) (headOver d.auth) st.2 (headSize data)
        data.length) := by
  have hle : headSize data ≤ data.length := Nat.min_le_right _ _
  obtain ⟨written, hcall, hlength⟩ : ∃ written : Bytes,
      (clientPreEncrypt packAuth pack room st d data).2 = packed (data.length * 2 + room) written ∧
        written.length = sentLength (fun i m => extra (d.frame i) m) (headOver d.auth) st.2
          (headSize data) data.length := by
    unfold clientPreEncrypt sentLength
    split_ifs
    · refine ⟨_, rfl, ?_⟩
      rw [List.length_append, hauth, packUnits_length hpack, List.length_take, List.length_drop,
        ← headSize, Nat.min_eq_left hle]
    · exact ⟨_, rfl, packUnits_length hpack _ _ _ _⟩
  have hbound : written.length ≤ data.length * 2 + room := by
    rw [hlength]
    exact (sentLength_le (fun i m _ => hover _ m) hmost (hhead d.auth) hle st.2).trans (by omega)
  rw [hcall]
  refine ⟨hbound, ?_⟩
  rw [fits_packed_iff hbound, hlength]

/-- The frames that verify_simple makes of `n` bytes, whose number it takes for an `int`. -/
def verifyLength (draws : ℕ → FrameDraws) (n : ℕ) : ℕ :=
  unitsLength (fun i m => shortOver (draws i) m) ((intLength n).getD 0 + 1) 0 ((intLength n).getD 0)

theorem verifySimple_fits_iff (draws : ℕ → FrameDraws) (capacity : ℕ) (data : Bytes) :
    (verifySimpleClientPreEncrypt draws capacity data).written.length ≤
        (verifySimpleClientPreEncrypt draws capacity data).scratch ∧
      (Fits (verifySimpleClientPreEncrypt draws capacity data) ↔
        verifyLength draws data.length < 2147483648 ∧
          (grows capacity (verifyLength draws data.length) = true →
            verifyLength draws data.length < 1073741824)) := by
  -- the loop runs over `(int)datalength` bytes, and over none when that is negative
  have hint : (intLength data.length).getD 0 ≤ data.length := by
    unfold intLength
    split_ifs
    · exact Nat.mod_le _ _
    · exact Nat.zero_le _
  have htake : (data.take ((intLength data.length).getD 0)).length =
      (intLength data.length).getD 0 := by
    rw [List.length_take, Nat.min_eq_left hint]
  have hlength : (packUnits verifySimplePackData draws
      ((data.take ((intLength data.length).getD 0)).length + 1) 0
      (data.take ((intLength data.length).getD 0))).length = verifyLength draws data.length := by
    rw [packUnits_length verifySimplePackData_length, htake]
    rfl
  rw [← hlength]
  refine fits_doubled_iff capacity (hlength.trans_le ?_)
  exact (unitsLength_le (fun i m _ => shortOver_le (draws i) m) (by decide) _ _ _).trans (by omega)

/-! ## auth_sha1_v4 -/

section AuthSha1V4

open AuthSha1V4 (dataFrame_length getRandLen_pos authFrame_length)

def v4Over (draw m : ℕ) : ℕ := getRandLen m draw + 8

theorem v4Over_le (draw m : ℕ) : v4Over draw m ≤ 1032 := by
  unfold v4Over getRandLen
  split_ifs <;> omega

theorem v4PackData_length (draw : ℕ) (data : Bytes) :
    (AuthSha1V4.packData draw data).length = data.length + v4Over draw data.length := by
  rw [AuthSha1V4.packData, dataFrame_length data (getRandLen_pos _ _), v4Over]
  omega

theorem v4PackUnits_length (draws : ℕ → ℕ) (fuel i : ℕ) (data : Bytes) :
    (AuthSha1V4.packUnits false draws fuel i data).length =
      unitsLength (fun i m => v4Over (draws i) m) fuel i data.length := by
  induction fuel generalizing i data with
  | zero => rfl
  | succ fuel ih =>
      rw [AuthSha1V4.packUnits, unitsLength, AUTH_SIMPLE_PACK_UNIT_SIZE]
      simp only [Bool.false_eq_true, false_or]
      split_ifs with hlong hpos
      · have htake : (data.take 2000).length = 2000 := by
          rw [List.length_take]
          omega
        rw [List.length_append, v4PackData_length, ih, List.length_drop, htake]
      · rw [v4PackData_length]
      · rfl

/-- The server's last frame may be empty. -/
theorem v4PackUnits_le (always : Bool) (draws : ℕ → ℕ) (fuel i : ℕ) (data : Bytes) :
    (AuthSha1V4.packUnits always draws fuel i data).length ≤ 2 * data.length + 1032 := by
  induction fuel generalizing i data with
  | zero => exact Nat.zero_le _
  | succ fuel ih =>
      rw [AuthSha1V4.packUnits, AUTH_SIMPLE_PACK_UNIT_SIZE]
      split_ifs with hlong hpos
      · have hunit := v4Over_le (draws i) 2000
        have hrec := ih (i + 1) (data.drop 2000)
        have htake : (data.take 2000).length = 2000 := by
          rw [List.length_take]
          omega
        rw [List.length_drop] at hrec
        rw [List.length_append, v4PackData_length, htake]
        omega
      · have hlast := v4Over_le (draws i) data.length
        rw [v4PackData_length]
        omega
      · exact Nat.zero_le _

/-- The frames of a call of the client. -/
theorem authSha1V4Client_length (H : Mac 20) (info : AuthSha1V4.ServerInfo)
    (st : GlobalData × AuthSha1V4.LocalData) (d : AuthSha1V4.SendDraws) (data : Bytes) :
    (AuthSha1V4.clientPreEncrypt H info st d data).2.length =
      sentLength (fun i m => v4Over (d.frame i) m) (authSha1V2HeadOver d.auth)
        st.2.hasSentHeader (headSize data) data.length := by
  have hle : headSize data ≤ data.length := Nat.min_le_right _ _
  unfold AuthSha1V4.clientPreEncrypt sentLength
  dsimp only
  split_ifs
  · have hauth := authFrame_length H info.iv info.key (AuthSha1V4.nextConnection st.1 d.auth) d.auth
      (data.take (headSize data))
    have htake : (data.take (headSize data)).length = headSize data := by
      rw [List.length_take, Nat.min_eq_left hle]
    rw [AuthSha1V4.authSize, htake] at hauth
    rw [List.length_append, v4PackUnits_length, List.length_drop, ← headSize,
      AuthSha1V4.packAuthData, hauth, authSha1V2HeadOver]
    omega
  · exact v4PackUnits_length _ _ _ _

theorem authSha1V2HeadOver_le (d : AuthDraws) (m : ℕ) : authSha1V2HeadOver d m ≤ 1052 := by
  unfold authSha1V2HeadOver getRandLen
  split_ifs <;> omega

/-- They are at most twice as long as the data, and some slack. -/
theorem v4SentLength_le (d : AuthSha1V4.SendDraws) (sent : Bool) (data : Bytes) :
    sentLength (fun i m => v4Over (d.frame i) m) (authSha1V2HeadOver d.auth) sent (headSize data)
      data.length ≤ data.length * 2 + (1052 + 1032) :=
  sentLength_le (fun i m _ => v4Over_le _ m) (by decide) (authSha1V2HeadOver_le d.auth)
    (Nat.min_le_right _ _) sent

theorem authSha1V4Client_fits_iff (H : Mac 20) (info : AuthSha1V4.ServerInfo)
    (st : GlobalData × AuthSha1V4.LocalData) (d : AuthSha1V4.SendDraws) (data : Bytes) :
    FitsBelow (authSha1V4ClientPacked H info st d data)
      (sentLength (fun i m => v4Over (d.frame i) m) (authSha1V2HeadOver d.auth)
        st.2.hasSentHeader (headSize data) data.length) := by
  have hlength := authSha1V4Client_length H info st d data
  have hbound : (AuthSha1V4.clientPreEncrypt H info st d data).2.length ≤
      data.length * 2 + SSR_BUFF_SIZE * 2 := by
    rw [hlength]
    exact (v4SentLength_le d _ data).trans (Nat.add_le_add_left (by decide) _)
  refine ⟨hbound, ?_⟩
  unfold authSha1V4ClientPacked
  rw [fits_packed_iff hbound, hlength]

theorem authSha1V4Server_fits (draws : ℕ → ℕ) (buf : Bytes) :
    Fits (authSha1V4ServerPacked draws buf) := by
  refine fits_packedSize ((v4PackUnits_le true draws _ 0 buf).trans ?_)
  rw [Nat.mul_comm]
  exact Nat.add_le_add_left (by decide) _

end AuthSha1V4

/-! ## auth_aes128 -/

section AuthAes128

open AuthAes128 (dataFrame_length authFrame_length authRandLen_lt clientUser)

variable {S : AuthAes128.Suite} {info : AuthAes128.ServerInfo}

variable (S info) in
theorem aesPackData_le (l : AuthAes128.LocalData) (d : FrameDraws) (data : Bytes) (full : ℕ) :
    (AuthAes128.packData S info l d data full).2.length ≤ data.length + 1032 := by
  have hrand : AuthAes128.getRandLen data.length full l info d.rand ≤ 1023 := by
    unfold AuthAes128.getRandLen
    split_ifs <;> omega
  rw [AuthAes128.packData, dataFrame_length _ _ _ _ (Nat.le_add_left 1 _)]
  omega

variable (S info) in
theorem aesPackUnits_le (draws : ℕ → FrameDraws) (full fuel i : ℕ) (l : AuthAes128.LocalData)
    (data : Bytes) :
    (AuthAes128.packUnits S info draws full fuel i l data).2.length ≤ 2 * data.length + 1032 := by
  induction fuel generalizing i l data with
  | zero => exact Nat.zero_le _
  | succ fuel ih =>
      rw [AuthAes128.packUnits, AUTH_SIMPLE_PACK_UNIT_SIZE]
      split_ifs with hlong hpos
      · have hunit := aesPackData_le S info l (draws i) (data.take 2000) full
        have hrec := ih (i + 1) (AuthAes128.packData S info l (draws i) (data.take 2000) full).1
          (data.drop 2000)
        rw [List.length_take] at hunit
        rw [List.length_drop] at hrec
        dsimp only
        rw [List.length_append]
        omega
      · exact (aesPackData_le S info l (draws i) data full).trans (by omega)
      · exact Nat.zero_le _

/-- The user id of a client is always four bytes, as the array `uid` is. -/
theorem aesClientUser_length {l : AuthAes128.LocalData} (huid : l.uid.length = 4)
    (d : AuthAes128.AuthDraws) : (clientUser S info l d).1.length = 4 := by
  unfold clientUser
  split
  · split
    · exact le32_length _
    · exact randBytes_length _ _
  · exact huid

theorem authAes128Client_fits {st : GlobalData × AuthAes128.LocalData} (huid : st.2.uid.length = 4)
    (d : AuthAes128.SendDraws) (data : Bytes) : Fits (authAes128ClientPacked S info st d data) := by
  refine fits_packedSize ?_
  unfold AuthAes128.clientPreEncrypt
  dsimp only
  rw [List.length_append]
  split_ifs
  · have hfirst : (AuthAes128.packAuthData S info st.1 st.2 d.auth
        (data.take (min 1200 data.length))).2.length ≤ min 1200 data.length + 1058 := by
      have hrand := authRandLen_lt (data.take (min 1200 data.length)).length d.auth.rand
      rw [AuthAes128.packAuthData, authFrame_length _ _ _ _ _ (aesClientUser_length huid d.auth)]
      rw [List.length_take] at hrand ⊢
      omega
    have hrest := aesPackUnits_le S info d.frame data.length
      ((data.drop (min 1200 data.length)).length + 1) 0
      { (AuthAes128.packAuthData S info st.1 st.2 d.auth
          (data.take (min 1200 data.length))).1.2 with hasSentHeader := true }
      (data.drop (min 1200 data.length))
    refine (Nat.add_le_add hfirst hrest).trans ?_
    rw [List.length_drop, SSR_BUFF_SIZE]
    omega
  · have hrest := aesPackUnits_le S info d.frame data.length (data.length + 1) 0 st.2
      data
    rw [List.length_nil, Nat.zero_add]
    refine hrest.trans ?_
    rw [SSR_BUFF_SIZE]
    omega

theorem authAes128Server_fits (l : AuthAes128.LocalData) (draws : ℕ → FrameDraws) (buf : Bytes) :
    Fits (authAes128ServerPacked S info l draws buf) := by
  refine fits_packedSize ((aesPackUnits_le S info draws buf.length _ 0 l buf).trans ?_)
  rw [Nat.mul_comm]
  exact Nat.add_le_add_left (by decide) _

end AuthAes128

/-! ## All senders -/

theorem authSimple_fits_iff (st : GlobalData × Bool) (d : SendDraws) (data : Bytes) :
    FitsBelow (authSimpleClientPreEncrypt st d data).2
      (sentLength (fun i m => shortOver (d.frame i) m) (authSimpleHeadOver d.auth) st.2
        (headSize data) data.length) := by
  refine clientPreEncrypt_fits_iff 34 authSimplePackData_length
    authSimplePackAuthData_length shortOver_le (by decide) ?_ (by decide) st d data
  intro d m
  have hle := shortRandLen_le d.rand
  rw [authSimpleHeadOver]
  omega

theorem authSha1_fits_iff (H : Mac 20) (info : AuthSha1V4.ServerInfo) (st : GlobalData × Bool)
    (d : SendDraws) (data : Bytes) :
    FitsBelow (authSha1ClientPreEncrypt H info st d data).2
      (sentLength (fun i m => shortOver (d.frame i) m) (authSha1HeadOver d.auth) st.2
        (headSize data) data.length) := by
  refine clientPreEncrypt_fits_iff 156 authSha1PackData_length
    (authSha1PackAuthData_length H info) shortOver_le (by decide) ?_ (by decide) st d data
  intro d m
  rw [authSha1HeadOver]
  omega

theorem authSha1V2_fits_iff (H : Mac 20) (info : AuthSha1V4.ServerInfo) (st : GlobalData × Bool)
    (d : SendDraws) (data : Bytes) :
    FitsBelow (authSha1V2ClientPreEncrypt H info st d data).2
      (sentLength (fun i m => longOver (d.frame i) m) (authSha1V2HeadOver d.auth) st.2
        (headSize data) data.length) := by
  refine clientPreEncrypt_fits_iff 1052 authSha1V2PackData_length
    (authSha1V2PackAuthData_length H info) longOver_le (by decide) authSha1V2HeadOver_le (by decide) st d data

/-- Whatever is sent and however the padding is drawn, no call writes behind the end of its scratch
buffer.  The calls that count in a `size_t` return the number of bytes written; those that count in
an `int` do exactly while the frames, whose sizes follow from the length of the data and the padding
drawn, are together at most `INT_MAX` bytes long; verify_simple, which doubles the `int` to make room for
them, while they are in addition shorter than 2^30 bytes or fit into the caller's buffer. -/
theorem pack_buffers_fit_iff (H : Mac 20) (info : AuthSha1V4.ServerInfo) (S : AuthAes128.Suite)
    (aesInfo : AuthAes128.ServerInfo) (st : GlobalData × Bool)
    (v4 : GlobalData × AuthSha1V4.LocalData) (aes : GlobalData × AuthAes128.LocalData)
    (huid : aes.2.uid.length = 4) (frames : ℕ → FrameDraws) (draws : ℕ → ℕ) (d : SendDraws)
    (v4d : AuthSha1V4.SendDraws) (aesd : AuthAes128.SendDraws) (capacity : ℕ) (data : Bytes) :
    ((verifySimpleClientPreEncrypt frames capacity data).written.length ≤
        (verifySimpleClientPreEncrypt frames capacity data).scratch ∧
      (Fits (verifySimpleClientPreEncrypt frames capacity data) ↔
        verifyLength frames data.length < 2147483648 ∧
          (grows capacity (verifyLength frames data.length) = true →
            verifyLength frames data.length < 1073741824))) ∧
    FitsBelow (authSimpleClientPreEncrypt st d data).2
      (sentLength (fun i m => shortOver (d.frame i) m) (authSimpleHeadOver d.auth) st.2
        (headSize data) data.length) ∧
    FitsBelow (authSha1ClientPreEncrypt H info st d data).2
      (sentLength (fun i m => shortOver (d.frame i) m) (authSha1HeadOver d.auth) st.2
        (headSize data) data.length) ∧
    FitsBelow (authSha1V2ClientPreEncrypt H info st d data).2
      (sentLength (fun i m => longOver (d.frame i) m) (authSha1V2HeadOver d.auth) st.2
        (headSize data) data.length) ∧
    FitsBelow (authSha1V4ClientPacked H info v4 v4d data)
      (sentLength (fun i m => v4Over (v4d.frame i) m) (authSha1V2HeadOver v4d.auth)
        v4.2.hasSentHeader (headSize data) data.length) ∧
    Fits (authSha1V4ServerPacked draws data) ∧
    Fits (authAes128ClientPacked S aesInfo aes aesd data) ∧
    Fits (authAes128ServerPacked S aesInfo aes.2 frames data) :=
  ⟨verifySimple_fits_iff frames capacity data, authSimple_fits_iff st d data,
    authSha1_fits_iff H info st d data, authSha1V2_fits_iff H info st d data,
    authSha1V4Client_fits_iff H info v4 v4d data, authSha1V4Server_fits draws data,
    authAes128Client_fits huid aesd data, authAes128Server_fits aes.2 frames data⟩

def sampleFrames : ℕ → FrameDraws := fun i => ⟨i, fun _ => 1⟩

def sampleInfo : AuthSha1V4.ServerInfo := ⟨[], [], List.replicate 16 2⟩

/-- Three bytes. -/
theorem pack_buffers_fit_sample :
    Fits (verifySimpleClientPreEncrypt sampleFrames 2 [1, 2, 3]) ∧
    Fits (authSimpleClientPreEncrypt (⟨List.replicate 8 1, 5⟩, false)
      ⟨⟨7, 0, fun _ => 1, 2⟩, sampleFrames⟩ [1, 2, 3]).2 ∧
    Fits (authAes128ClientPacked AuthAes128.authAes128Md5 ⟨[], [], [1], 2048, none, none⟩
      (⟨List.replicate 8 1, 5⟩, AuthAes128.localDataInit 0)
      ⟨⟨7, fun _ => 1, 0, 3, fun _ => 1, fun _ => 1, 2⟩, sampleFrames⟩ [1, 2, 3]) := by
  have hmain := pack_buffers_fit_iff hmacSha1 sampleInfo AuthAes128.authAes128Md5
    ⟨[], [], [1], 2048, none, none⟩ (⟨List.replicate 8 1, 5⟩, false)
    (⟨List.replicate 8 1, 5⟩, AuthSha1V4.localDataInit)
    (⟨List.replicate 8 1, 5⟩, AuthAes128.localDataInit 0) rfl sampleFrames id
    ⟨⟨7, 0, fun _ => 1, 2⟩, sampleFrames⟩ ⟨⟨7, 0, fun _ => 1, 2⟩, id⟩
    ⟨⟨7, fun _ => 1, 0, 3, fun _ => 1, fun _ => 1, 2⟩, sampleFrames⟩ 2 [1, 2, 3]
  exact ⟨hmain.1.2.2 (by decide), hmain.2.1.2.2 (by decide), hmain.2.2.2.2.2.2.1⟩

/-- From 2^31 bytes on, auth_simple does not return the number of bytes it packs. -/
theorem authSimple_not_fits (g : GlobalData) (d : SendDraws) {data : Bytes}
    (h : 2147483648 ≤ data.length) : ¬ Fits (authSimpleClientPreEncrypt (g, true) d data).2 := by
  intro hfits
  have hlt := (authSimple_fits_iff (g, true) d data).2.1 hfits
  have hle := le_unitsLength (fun i m => shortOver (d.frame i) m) (i := 0)
    (Nat.lt_add_one data.length)
  rw [sentLength, if_neg (by simp)] at hlt
  omega

theorem pack_buffers_int :
    ¬ Fits (authSimpleClientPreEncrypt (⟨List.replicate 8 1, 5⟩, true)
      ⟨⟨7, 0, fun _ => 1, 2⟩, sampleFrames⟩ (List.replicate 2147483648 0)).2 :=
  authSimple_not_fits _ _ (Nat.le_of_eq (List.length_replicate ..).symm)

end PackBuffers
end Obfs
end SsrNative
