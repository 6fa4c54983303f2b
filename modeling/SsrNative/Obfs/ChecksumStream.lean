import SsrNative.Obfs.AuthSha1V4Stream
import SsrNative.Obfs.ChecksumFrames

/-!
# ChecksumStream — segmentation of the frames of the older protocols

The four protocols share one receive loop, and their frames are read back for the same two reasons:
the checksum that closes a frame is the one that is checked (`Seals`), and the padding states where
the data behind it starts (`Leads`).
-/

namespace SsrNative
namespace Obfs
namespace ChecksumFrames

open Bytes
open Checksums
open Lib.Segments
open Lib.Framing
open AuthAes128 (FrameDraws)
open AuthSha1V4 (getRandLen dataPos)

/-! ## What the protocols have in common -/

/-- The four bytes that close a frame make its check succeed, whatever follows them. -/
def Seals (fill : Bytes → Bytes) (check : Bytes → ℕ → Bool) : Prop :=
  ∀ message room : Bytes, room.length = 4 → ∃ tag : Bytes, tag.length = 4 ∧
    fill (message ++ room) = message ++ tag ∧
      ∀ rest, check (message ++ (tag ++ rest)) (message.length + 4) = true

theorem seals_crc32 : Seals fillCrc32 checkCrc32 := fun message _ h =>
  ⟨_, le32_length _, fillCrc32_append message h, checkCrc32_fill message⟩

theorem seals_adler32 : Seals fillAdler32 checkAdler32 := fun message _ h =>
  ⟨_, le32_length _, fillAdler32_append message h, checkAdler32_fill message⟩

/-- The padding behind the length leads to what follows it. -/
def Leads (pos : Bytes → ℕ) (padding : Bytes) : Prop :=
  ∀ {size rest : Bytes}, size.length = 2 → pos (size ++ (padding ++ rest)) = padding.length + 2

theorem shortRandLen_pos (draw : ℕ) : 1 ≤ shortRandLen draw := Nat.le_add_left 1 _

theorem shortRandLen_le (draw : ℕ) : shortRandLen draw ≤ 16 := by
  have hlt : draw % 16 < 16 := Nat.mod_lt _ (by decide)
  rw [shortRandLen]
  omega

theorem leads_short {randLen : ℕ} {tail : Bytes} (hlen : tail.length + 1 = randLen)
    (hmax : randLen < 256) : Leads shortPos (UInt8.ofNat randLen :: tail) := by
  intro size rest hsize
  have hbyte : byteAt (size ++ (UInt8.ofNat randLen :: tail ++ rest)) 2 = UInt8.ofNat randLen := by
    rw [byteAt_append_right (by omega), hsize]
    rfl
  rw [shortPos, hbyte, UInt8.toNat_ofNat', Nat.mod_eq_of_lt hmax, List.length_cons, hlen]

theorem leads_long {randLen : ℕ} (h : 1 ≤ randLen) (hmax : randLen < 65536) :
    Leads (fun b => dataPos b 2) (AuthSha1V4.padding randLen) := by
  intro size rest hsize
  rw [AuthSha1V4.padding_length h]
  exact AuthSha1V4.dataPos_padding hsize hmax rest

/-! ## One frame -/

section Frame

variable {fill : Bytes → Bytes} {check : Bytes → ℕ → Bool} {pos : Bytes → ℕ} {padding data : Bytes}

/-- A frame up to its checksum. -/
def frameBody (padding data : Bytes) : Bytes :=
  be16 (padding.length + data.length + 6) ++ (padding ++ data)

theorem frameBody_length (padding data : Bytes) :
    (frameBody padding data).length = padding.length + data.length + 2 := by
  simp only [frameBody, List.length_append, be16_length]
  omega

theorem frame_sealed (hseal : Seals fill check) (padding data : Bytes) :
    ∃ tag : Bytes, tag.length = 4 ∧ frame fill padding data = frameBody padding data ++ tag ∧
      ∀ rest, check (frame fill padding data ++ rest) (padding.length + data.length + 6) = true := by
  obtain ⟨tag, htag, hfill, hcheck⟩ :=
    hseal (frameBody padding data) (List.replicate 4 0) (List.length_replicate ..)
  refine ⟨tag, htag, hfill, fun rest => ?_⟩
  have hrest := hcheck rest
  rwa [frameBody_length, ← List.append_assoc, ← hfill] at hrest

theorem frame_length (hseal : Seals fill check) (padding data : Bytes) :
    (frame fill padding data).length = padding.length + data.length + 6 := by
  obtain ⟨tag, htag, heq, -⟩ := frame_sealed hseal padding data
  rw [heq, List.length_append, frameBody_length, htag]

/-- A frame that the receivers do not refuse for its length. -/
structure Sizable (padding data : Bytes) : Prop where
  least : 1 ≤ padding.length + data.length
  limit : padding.length + data.length + 6 < 8192

/-- The length at the front of any bytes that start like the frame. -/
theorem size_of_cat (hseal : Seals fill check) (hsize : Sizable padding data) {b r t : Bytes}
    (hcat : b ++ r = frame fill padding data ++ t) (hlen : 2 < b.length) :
    rdBe16 b 0 = padding.length + data.length + 6 := by
  obtain ⟨tag, -, heq, -⟩ := frame_sealed hseal padding data
  have hlimit := hsize.limit
  have hstream : b ++ r = be16 (padding.length + data.length + 6) ++
      (padding ++ (data ++ (tag ++ t))) := by
    rw [hcat, heq, frameBody]
    simp only [List.append_assoc]
  rw [← rdBe16_append_left (l := r) (by omega), hstream, rdBe16_be16_append]
  omega

theorem recvStep_wait (hseal : Seals fill check) (hsize : Sizable padding data) {b r : Bytes}
    (hcat : b ++ r = frame fill padding data) (hr : r ≠ []) : recvStep check pos () b = .more () := by
  have hlen := congrArg List.length hcat
  rw [List.length_append, frame_length hseal] at hlen
  have hrpos := List.length_pos_iff.2 hr
  by_cases hshort : b.length ≤ 2
  · rw [recvStep, if_pos hshort]
  · have hread : rdBe16 b 0 = padding.length + data.length + 6 :=
      size_of_cat hseal hsize (hcat.trans (List.append_nil _).symm) (Nat.not_le.1 hshort)
    have hleast := hsize.least
    have hlimit := hsize.limit
    rw [recvStep, if_neg hshort]
    dsimp only
    rw [hread, if_neg (by omega), if_pos (by omega)]

theorem recvStep_full (hseal : Seals fill check) (hlead : Leads pos padding)
    (hsize : Sizable padding data) (l : Bytes) :
    recvStep check pos () (frame fill padding data ++ l) =
      .took () data (frame fill padding data).length := by
  obtain ⟨tag, htag, heq, hcheck⟩ := frame_sealed hseal padding data
  have hflen := frame_length hseal padding data
  have hleast := hsize.least
  have hlimit := hsize.limit
  have hlen : (frame fill padding data ++ l).length = padding.length + data.length + 6 + l.length := by
    rw [List.length_append, hflen]
  have hread : rdBe16 (frame fill padding data ++ l) 0 = padding.length + data.length + 6 :=
    size_of_cat hseal hsize (List.append_nil _) (by omega)
  -- the data lies between the padding and the checksum
  have hsplit : frame fill padding data ++ l =
      (be16 (padding.length + data.length + 6) ++ padding) ++ (data ++ (tag ++ l)) := by
    rw [heq, frameBody]
    simp only [List.append_assoc]
  have hpos : pos (frame fill padding data ++ l) = padding.length + 2 := by
    rw [hsplit, List.append_assoc]
    exact hlead (be16_length _)
  have hdata : ((frame fill padding data ++ l).drop (padding.length + 2)).take
      (padding.length + data.length + 6 - 4 - (padding.length + 2)) = data := by
    have hpre : (be16 (padding.length + data.length + 6) ++ padding).length = padding.length + 2 := by
      rw [List.length_append, be16_length]
      omega
    have hn : padding.length + data.length + 6 - 4 - (padding.length + 2) = data.length := by omega
    rw [hsplit, List.drop_left' hpre, hn, List.take_left]
  rw [recvStep, if_neg (by omega)]
  dsimp only
  rw [hread, if_neg (by omega), if_neg (by omega), hcheck l, if_neg (by decide),
    hpos, if_neg (by omega), hdata, hflen]

end Frame

/-! ## Streams -/

/-- A `*_pack_data` makes frames that the receive loop reads back. -/
def Codec (pack : FrameDraws → Bytes → Bytes) (check : Bytes → ℕ → Bool) (pos : Bytes → ℕ) : Prop :=
  ∀ d data, 1 ≤ data.length → data.length ≤ 2000 →
    ∃ fill padding, pack d data = frame fill padding data ∧ Seals fill check ∧ Leads pos padding ∧
      Sizable padding data

theorem codec_short {fill : Bytes → Bytes} {check : Bytes → ℕ → Bool} (hseal : Seals fill check)
    {d : FrameDraws} {data tail : Bytes} (htail : tail.length + 1 = shortRandLen d.rand)
    (hdata : data.length ≤ 2000) {f : Bytes}
    (hf : f = frame fill (UInt8.ofNat (shortRandLen d.rand) :: tail) data) :
    ∃ fill padding, f = frame fill padding data ∧ Seals fill check ∧ Leads shortPos padding ∧
      Sizable padding data := by
  have hle := shortRandLen_le d.rand
  have hlen : (UInt8.ofNat (shortRandLen d.rand) :: tail).length = shortRandLen d.rand := htail
  exact ⟨fill, _, hf, hseal, leads_short htail (by omega), ⟨by omega, by omega⟩⟩

theorem verifySimple_codec : Codec verifySimplePackData checkCrc32 shortPos := by
  intro d data _ hmax
  have hpos := shortRandLen_pos d.rand
  refine codec_short seals_crc32 ?_ hmax rfl
  rw [List.length_drop, randBytes_length]
  omega

theorem authSimple_codec : Codec authSimplePackData checkCrc32 shortPos := by
  intro d data _ hmax
  have hpos := shortRandLen_pos d.rand
  refine codec_short seals_crc32 ?_ hmax rfl
  rw [List.length_replicate]
  omega

theorem authSha1_codec : Codec authSha1PackData checkAdler32 shortPos := by
  intro d data _ hmax
  have hpos := shortRandLen_pos d.rand
  refine codec_short seals_adler32 ?_ hmax rfl
  rw [List.length_replicate]
  omega

theorem authSha1V2_codec : Codec authSha1V2PackData checkAdler32 fun b => dataPos b 2 := by
  intro d data _ hmax
  have hpos := AuthSha1V4.getRandLen_pos data.length d.rand
  have hle := AuthSha1V4.getRandLen_add_le hmax d.rand
  have hlen := AuthSha1V4.padding_length hpos
  exact ⟨fillAdler32, _, rfl, seals_adler32, leads_long hpos (by omega), ⟨by omega, by omega⟩⟩

section Stream

variable {pack : FrameDraws → Bytes → Bytes} {check : Bytes → ℕ → Bool} {pos : Bytes → ℕ}

/-- The frames of the payloads, one behind the other. -/
def framesOf (pack : FrameDraws → Bytes → Bytes) (payloads : List (FrameDraws × Bytes)) : Bytes :=
  (payloads.map fun p => pack p.1 p.2).flatten

/-- The receive loop takes the frames one by one. -/
theorem Codec.parses (H : Codec pack check pos) {payloads : List (FrameDraws × Bytes)}
    (hlen : ∀ p ∈ payloads, 1 ≤ p.2.length ∧ p.2.length ≤ 2000) :
    Parses (recvStep check pos) (fun _ _ => True) (fun _ => True) (fun _ => True) ()
      (framesOf pack payloads) (payloads.map Prod.snd).flatten () [] := by
  induction payloads with
  | nil => exact .rest (waits_nil trivial fun s₀ _ => ⟨(), by simp [recvStep], trivial⟩)
  | cons p payloads ih =>
      rw [List.forall_mem_cons] at hlen
      obtain ⟨fill, padding, hframe, hseal, hlead, hsize⟩ := H p.1 p.2 hlen.1.1 hlen.1.2
      have hne : frame fill padding p.2 ≠ [] := by
        refine List.length_pos_iff.1 ?_
        rw [frame_length hseal]
        omega
      have hstream : framesOf pack (p :: payloads) =
          frame fill padding p.2 ++ framesOf pack payloads := by
        rw [← hframe]
        rfl
      rw [hstream]
      refine .frame hne (takes_of_waits ?_ ?_) (ih hlen.2)
      · intro s₀ _ l
        exact ⟨(), recvStep_full hseal hlead hsize l, trivial⟩
      · intro s₀ _ b l hb hl
        exact ⟨(), recvStep_wait hseal hsize hb hl, trivial⟩

/-- Behind the check of the length, the client's calls are passes of the receive loop. -/
theorem receive_follows (check : Bytes → ℕ → Bool) (pos : Bytes → ℕ) :
    Follows (receive check pos) id Returned.items? (recvStep check pos) (fun _ => True)
      (fun recvBuffer t => recvBuffer = t.2) where
  next := by
    rintro recvBuffer t seg rfl - hok
    simp only [feed, id] at hok ⊢
    simp only [receive, hok]
    exact ⟨trivial, rfl⟩

/-- The segment fits into `recv_buffer`. -/
def Fits (recvBuffer seg : Bytes) : Prop := recvBuffer.length + seg.length ≤ 16384

/-- If these segments of the frames fit, no call returns an error and the payloads arrive. -/
def Delivers (pack : FrameDraws → Bytes → Bytes) (recv : Bytes → Bytes → Bytes × Returned UInt8)
    (payloads : List (FrameDraws × Bytes)) (segs : List Bytes) : Prop :=
  segs.flatten = framesOf pack payloads → Along Fits recv [] segs →
    (∀ r ∈ (run recv [] segs).2, r.items? ≠ none) ∧
      delivered ((run recv [] segs).2.map Returned.items?) = (payloads.map Prod.snd).flatten

theorem Codec.delivers (H : Codec pack check pos) {payloads : List (FrameDraws × Bytes)}
    (hlen : ∀ p ∈ payloads, 1 ≤ p.2.length ∧ p.2.length ≤ 2000) (segs : List Bytes) :
    Delivers pack (clientPostDecrypt check pos) payloads segs := by
  intro hcat hfits
  have hp := H.parses hlen
  rw [← hcat] at hp
  by_cases hne : segs = []
  · subst hne
    cases payloads with
    | nil => exact ⟨by simp, rfl⟩
    | cons p payloads =>
        rw [List.forall_mem_cons] at hlen
        obtain ⟨fill, padding, hframe, hseal, -, -⟩ := H p.1 p.2 hlen.1.1 hlen.1.2
        have hempty := congrArg List.length hcat
        have hframes : framesOf pack (p :: payloads) = pack p.1 p.2 ++ framesOf pack payloads := rfl
        rw [hframes, List.length_append, hframe, frame_length hseal, List.flatten_nil,
          List.length_nil] at hempty
        omega
  · rw [← List.map_id segs] at hp
    have hstart : ([] : Bytes) = (((), []) : Unit × Bytes).2 := rfl
    have hsame : (fun _ _ : Unit => True) () () := trivial
    obtain ⟨s₂, -, -, hnone, hout⟩ := (receive_follows check pos).run_complete hstart
      (fun _ _ => trivial) hp hsame (cutsOk_of_forall (fun _ => trivial) _) hne
    have hcalls : ∀ recvBuffer seg, Fits recvBuffer seg →
        clientPostDecrypt check pos recvBuffer seg = receive check pos recvBuffer seg :=
      fun _ _ h => if_neg (Nat.not_lt.2 h)
    rw [run_congr hcalls hfits]
    exact ⟨hnone, hout⟩

end Stream

/-- Segmentation independence: payloads of 1 to 2000 bytes, packed with any padding, arrive however
their frames are cut, as long as the segments fit into `recv_buffer`. -/
theorem frames_delivered (payloads : List (FrameDraws × Bytes)) (segs : List Bytes)
    (hlen : ∀ p ∈ payloads, 1 ≤ p.2.length ∧ p.2.length ≤ 2000) :
    Delivers verifySimplePackData verifySimpleClientPostDecrypt payloads segs ∧
    Delivers authSimplePackData authSimpleClientPostDecrypt payloads segs ∧
    Delivers authSha1PackData authSha1ClientPostDecrypt payloads segs ∧
    Delivers authSha1V2PackData authSha1V2ClientPostDecrypt payloads segs :=
  ⟨verifySimple_codec.delivers hlen segs, authSimple_codec.delivers hlen segs,
    authSha1_codec.delivers hlen segs, authSha1V2_codec.delivers hlen segs⟩

def samplePayloads : List (FrameDraws × Bytes) :=
  [(⟨3, fun _ => 7⟩, [1, 2, 3]), (⟨300, fun _ => 9⟩, [4])]

/-- Two frames, cut inside the first one; at auth_sha1_v2 the second states its padding in three bytes. -/
theorem frames_delivered_sample :
    delivered ((run verifySimpleClientPostDecrypt []
      [(framesOf verifySimplePackData samplePayloads).take 5,
        (framesOf verifySimplePackData samplePayloads).drop 5]).2.map Returned.items?) = [1, 2, 3, 4] ∧
    delivered ((run authSha1V2ClientPostDecrypt []
      [(framesOf authSha1V2PackData samplePayloads).take 5,
        (framesOf authSha1V2PackData samplePayloads).drop 5]).2.map Returned.items?) = [1, 2, 3, 4] := by
  have hcut : ∀ l : Bytes, [l.take 5, l.drop 5].flatten = l := by simp
  constructor
  · refine ((frames_delivered samplePayloads _ (by decide)).1 (hcut _) ⟨?_, ?_, trivial⟩).2
    · unfold Fits
      decide
    · unfold Fits
      decide
  · refine ((frames_delivered samplePayloads _ (by decide)).2.2.2 (hcut _) ⟨?_, ?_, trivial⟩).2
    · unfold Fits
      decide
    · unfold Fits
      decide +kernel

end ChecksumFrames
end Obfs
end SsrNative
