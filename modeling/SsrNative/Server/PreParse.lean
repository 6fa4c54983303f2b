import SsrNative.Server.Dispatcher
import SsrNative.SsrBuffer

/-!
# PreParse — the noise in front of an address

`pre_parse_header` cuts off what a client may put in front of the address of its target.  It works in the
buffer that the bytes arrived in, so what it does depends on everything in that buffer
(`preParseHeaderIn`).  `strips_noise_iff` says for which bytes it strips what it should.
-/

namespace SsrNative
namespace Server

open Bytes
open Lib.Demand
open Lib.Demand.Demanding
open Obfs.Checksums

/-! ## The function -/

/-- A datatype of the packets with a checksum. -/
def isChecked (datatype : UInt8) : Prop := datatype = 0x88 ∨ ~~~datatype = 0x88

instance (datatype : UInt8) : Decidable (isChecked datatype) := by
  unfold isChecked
  infer_instance

/-- `pre_parse_header` on a buffer with its memory: the buffer as it is left, `none` when it is put together
from memory that was given back, and what is returned. -/
def preParseHeaderIn (behind : ℕ → UInt8) (data : BufferT) : Demanding (Option BufferT × Bool) :=
  let r := data.region behind
  let len := data.len
  if len = 0 then return (some data, false)
  else do
    let datatype ← r.read 0
    if datatype = 0x80 then
      if len ≤ 2 then return (some data, false)
      else do
        let randDataSize ← r.read 1
        let hdrLen := randDataSize.toNat + 2
        if len ≤ hdrLen then return (some data, false)
        else return (some (data.shortenedTo hdrLen (len - hdrLen)), true)
    else if datatype = 0x81 then return (some (data.shortenedTo 1 (len - 1)), true)
    else if datatype = 0x82 then
      if len ≤ 3 then return (some data, false)
      else do
        let randDataSize ← r.readSlice 1 2
        let hdrLen := rdBe16 randDataSize 0 + 3
        if len ≤ hdrLen then return (some data, false)
        else return (some (data.shortenedTo hdrLen (len - hdrLen)), true)
    else if isChecked datatype then
      if len ≤ 14 then return (some data, false)
      else do
        let field ← r.readSlice 1 2
        let dataSize := rdBe16 field 0
        let packet ← r.readSlice 0 dataSize
        if crc32Imp packet ≠ 0xffffffff then return (some data, false)
        else do
          let padding ← r.read 3
          let startPos := 3 + padding.toNat
          let short := data.shortenedTo startPos (subSize dataSize (4 + startPos))
          if dataSize < len then do
            let len2 := len - dataSize
            demand (dataSize + len2) len
            return (short.concatenateOwn dataSize len2, true)
          else return (some short, true)
    else return (some data, true)

/-! ## What is to be stripped -/

/-- The size that a packet with a checksum announces. -/
def packetSize (l : Bytes) : ℕ := rdBe16 l 1

/-- Where its payload starts. -/
def payloadStart (l : Bytes) : ℕ := 3 + (byteAt l 3).toNat

/-- The bytes without the noise in front, and without the checksum of a packet that has one. -/
def stripped (l : Bytes) : Bytes :=
  if byteAt l 0 = 0x80 then l.drop (2 + (byteAt l 1).toNat)
  else if byteAt l 0 = 0x81 then l.drop 1
  else if byteAt l 0 = 0x82 then l.drop (3 + rdBe16 l 1)
  else if isChecked (byteAt l 0) then
    (l.take (packetSize l - 4)).drop (payloadStart l) ++ l.drop (packetSize l)
  else l

/-- Only bytes of the buffer are read, and it is stripped or left as it was. -/
structure StripsNoise (behind : ℕ → UInt8) (data : BufferT) : Prop where
  reads : (preParseHeaderIn behind data).Met
  accepted : (preParseHeaderIn behind data).value.2 = true →
    ∃ b, (preParseHeaderIn behind data).value.1 = some b ∧ b.bytes = stripped data.bytes
  refused : (preParseHeaderIn behind data).value.2 = false →
    (preParseHeaderIn behind data).value.1 = some data

/-- A packet with a checksum has arrived as far as it says, and if the checksum is right the packet has room
for its padding, and only zeros behind it. -/
def PacketRegular (l : Bytes) : Prop :=
  isChecked (byteAt l 0) → 14 < l.length →
    packetSize l ≤ l.length ∧
      (crc32Imp (l.take (packetSize l)) = 0xffffffff →
        4 + payloadStart l ≤ packetSize l ∧ ∀ x ∈ l.drop (packetSize l), x = 0)

/-! ## The types without a checksum -/

section Types

variable {behind : ℕ → UInt8} {data : BufferT}

/-- A header of `n` bytes is cut off. -/
theorem shortenedTo_bytes {n : ℕ} (h : n ≤ data.len) :
    (data.shortenedTo n (data.len - n)).bytes = data.bytes.drop n := by
  have hrest : n + (data.len - n) ≤ data.len := (Nat.add_sub_cancel' h).le
  rw [BufferT.shortenedTo_eq hrest]
  exact List.take_of_length_le (List.length_drop ..).le

theorem stripsNoise_of_accepted {data' : BufferT} (h : (preParseHeaderIn behind data).Yields (some data', true))
    (hbytes : data'.bytes = stripped data.bytes) : StripsNoise behind data := by
  rcases h with ⟨hmet, hvalue⟩
  refine ⟨hmet, fun _ => ⟨data', congrArg Prod.fst hvalue, hbytes⟩, fun hfalse => ?_⟩
  rw [hvalue] at hfalse
  cases hfalse

theorem stripsNoise_of_refused (h : (preParseHeaderIn behind data).Yields (some data, false)) :
    StripsNoise behind data := by
  rcases h with ⟨hmet, hvalue⟩
  refine ⟨hmet, fun htrue => ?_, fun _ => congrArg Prod.fst hvalue⟩
  rw [hvalue] at htrue
  cases htrue

theorem region_read (behind : ℕ → UInt8) {i : ℕ} (h : i < data.len) :
    ((data.region behind).read i).Yields (byteAt data.bytes i) :=
  ⟨(Region.met_read _ _).2 h, get_eq_byteAt h⟩

theorem region_readSlice (behind : ℕ → UInt8) (off : ℕ) {n : ℕ} (h : off + n ≤ data.len) :
    ((data.region behind).readSlice off n).Yields (window data.bytes off n) :=
  ⟨(Region.met_readSlice _ _ _).2 h, slice_eq_window h⟩

theorem preParse_nil (behind : ℕ → UInt8) (h : data.len = 0) :
    (preParseHeaderIn behind data).Yields (some data, false) := by
  simp only [preParseHeaderIn, h, if_true, yields_pure]

theorem preParse_80 (behind : ℕ → UInt8) (hlen : data.len ≠ 0) (htype : byteAt data.bytes 0 = 0x80) :
    (preParseHeaderIn behind data).Yields
      (if data.len ≤ 2 ∨ data.len ≤ (byteAt data.bytes 1).toNat + 2 then (some data, false)
        else (some (data.shortenedTo ((byteAt data.bytes 1).toNat + 2)
          (data.len - ((byteAt data.bytes 1).toNat + 2))), true)) := by
  have hread := region_read behind (Nat.pos_of_ne_zero hlen)
  by_cases hshort : data.len ≤ 2
  · rw [if_pos (.inl hshort)]
    simp only [preParseHeaderIn, hlen, if_false, hread.bind, htype, if_true, hshort, yields_pure]
  have hrand := region_read behind (i := 1) (Nat.lt_of_succ_lt (Nat.not_le.1 hshort))
  by_cases hcut : data.len ≤ (byteAt data.bytes 1).toNat + 2
  · rw [if_pos (.inr hcut)]
    simp only [preParseHeaderIn, hlen, if_false, hread.bind, htype, if_true, hshort, hrand.bind, hcut, yields_pure]
  · rw [if_neg (not_or.2 ⟨hshort, hcut⟩)]
    simp only [preParseHeaderIn, hlen, if_false, hread.bind, htype, if_true, hshort, hrand.bind, hcut, yields_pure]

theorem preParse_81 (behind : ℕ → UInt8) (hlen : data.len ≠ 0) (htype : byteAt data.bytes 0 = 0x81) :
    (preParseHeaderIn behind data).Yields (some (data.shortenedTo 1 (data.len - 1)), true) := by
  have hread := region_read behind (Nat.pos_of_ne_zero hlen)
  have hne : ¬ (0x81 : UInt8) = 0x80 := by decide
  simp only [preParseHeaderIn, hlen, if_false, hread.bind, htype, hne, if_true, yields_pure]

theorem preParse_82 (behind : ℕ → UInt8) (hlen : data.len ≠ 0) (htype : byteAt data.bytes 0 = 0x82) :
    (preParseHeaderIn behind data).Yields
      (if data.len ≤ 3 ∨ data.len ≤ rdBe16 data.bytes 1 + 3 then (some data, false)
        else (some (data.shortenedTo (rdBe16 data.bytes 1 + 3) (data.len - (rdBe16 data.bytes 1 + 3))),
          true)) := by
  have hread := region_read behind (Nat.pos_of_ne_zero hlen)
  have hne₀ : ¬ (0x82 : UInt8) = 0x80 := by decide
  have hne₁ : ¬ (0x82 : UInt8) = 0x81 := by decide
  by_cases hshort : data.len ≤ 3
  · rw [if_pos (.inl hshort)]
    simp only [preParseHeaderIn, hlen, if_false, hread.bind, htype, hne₀, hne₁, if_true, hshort, yields_pure]
  have hrand := region_readSlice behind 1 (n := 2) (Nat.le_of_not_le hshort)
  by_cases hcut : data.len ≤ rdBe16 data.bytes 1 + 3
  · rw [if_pos (.inr hcut)]
    simp only [preParseHeaderIn, hlen, if_false, hread.bind, htype, hne₀, hne₁, if_true, hshort, hrand.bind,
      rdBe16_window, hcut, yields_pure]
  · rw [if_neg (not_or.2 ⟨hshort, hcut⟩)]
    simp only [preParseHeaderIn, hlen, if_false, hread.bind, htype, hne₀, hne₁, if_true, hshort, hrand.bind,
      rdBe16_window, hcut, yields_pure]

theorem preParse_ordinary (behind : ℕ → UInt8) (hlen : data.len ≠ 0) (h80 : byteAt data.bytes 0 ≠ 0x80)
    (h81 : byteAt data.bytes 0 ≠ 0x81) (h82 : byteAt data.bytes 0 ≠ 0x82)
    (hchecked : ¬ isChecked (byteAt data.bytes 0)) :
    (preParseHeaderIn behind data).Yields (some data, true) := by
  have hread := region_read behind (Nat.pos_of_ne_zero hlen)
  simp only [preParseHeaderIn, hlen, if_false, hread.bind, h80, h81, h82, hchecked, yields_pure]

/-- Whatever has no checksum is stripped. -/
theorem stripsNoise_unchecked (hchecked : ¬ isChecked (byteAt data.bytes 0)) : StripsNoise behind data := by
  by_cases hlen : data.len = 0
  · exact stripsNoise_of_refused (preParse_nil behind hlen)
  by_cases h80 : byteAt data.bytes 0 = 0x80
  · have hyields := preParse_80 behind hlen h80
    split_ifs at hyields with hshort
    · exact stripsNoise_of_refused hyields
    · refine stripsNoise_of_accepted hyields ?_
      rw [shortenedTo_bytes (Nat.le_of_not_le (not_or.1 hshort).2), stripped, if_pos h80, Nat.add_comm]
  by_cases h81 : byteAt data.bytes 0 = 0x81
  · refine stripsNoise_of_accepted (preParse_81 behind hlen h81) ?_
    rw [shortenedTo_bytes (Nat.pos_of_ne_zero hlen), stripped, if_neg h80, if_pos h81]
  by_cases h82 : byteAt data.bytes 0 = 0x82
  · have hyields := preParse_82 behind hlen h82
    split_ifs at hyields with hshort
    · exact stripsNoise_of_refused hyields
    · refine stripsNoise_of_accepted hyields ?_
      rw [shortenedTo_bytes (Nat.le_of_not_le (not_or.1 hshort).2), stripped, if_neg h80, if_neg h81, if_pos h82,
        Nat.add_comm]
  · refine stripsNoise_of_accepted (preParse_ordinary behind hlen h80 h81 h82 hchecked) ?_
    rw [stripped, if_neg h80, if_neg h81, if_neg h82, if_neg hchecked]

end Types

/-! ## Packets with a checksum -/

section Packets

variable {behind : ℕ → UInt8} {data : BufferT}

theorem isChecked.ne {datatype : UInt8} (h : isChecked datatype) :
    datatype ≠ 0x80 ∧ datatype ≠ 0x81 ∧ datatype ≠ 0x82 := by
  refine ⟨?_, ?_, ?_⟩
  all_goals
    rintro rfl
    exact absurd h (by decide)

theorem isChecked.nonempty {l : Bytes} (h : isChecked (byteAt l 0)) : l.length ≠ 0 := by
  intro hnil
  rw [List.length_eq_zero_iff.1 hnil] at h
  exact absurd h (by decide)

/-- What is done when the checksum is right. -/
def splice (data : BufferT) : Option BufferT :=
  let short := data.shortenedTo (payloadStart data.bytes)
    (subSize (packetSize data.bytes) (4 + payloadStart data.bytes))
  if packetSize data.bytes < data.len then
    short.concatenateOwn (packetSize data.bytes) (data.len - packetSize data.bytes)
  else some short

theorem preParse_short (behind : ℕ → UInt8) (hchecked : isChecked (byteAt data.bytes 0)) (hshort : data.len ≤ 14) :
    (preParseHeaderIn behind data).Yields (some data, false) := by
  rcases hchecked.ne with ⟨h80, h81, h82⟩
  have hread := region_read behind (Nat.pos_of_ne_zero hchecked.nonempty)
  have hlen : data.len ≠ 0 := hchecked.nonempty
  simp only [preParseHeaderIn, hlen, if_false, hread.bind, h80, h81, h82, hchecked, if_true, hshort, yields_pure]

/-- The size is read, and then as many bytes as it says. -/
theorem packetSize_le_of_met (hchecked : isChecked (byteAt data.bytes 0)) (hlong : 14 < data.len)
    (hmet : (preParseHeaderIn behind data).Met) : packetSize data.bytes ≤ data.len := by
  rcases hchecked.ne with ⟨h80, h81, h82⟩
  have hread := region_read behind (Nat.pos_of_ne_zero hchecked.nonempty)
  have hfield := region_readSlice behind 1 (n := 2) (Nat.le_trans (by decide : 3 ≤ 15) hlong)
  have hlen : data.len ≠ 0 := hchecked.nonempty
  have hnot : ¬ data.len ≤ 14 := Nat.not_le.2 hlong
  simp only [preParseHeaderIn, hlen, if_false, hread.met_bind, h80, h81, h82, hchecked, if_true, hnot,
    hfield.met_bind, rdBe16_window, met_bind, Region.met_readSlice, Nat.zero_add] at hmet
  exact hmet.1

theorem preParse_of_le (behind : ℕ → UInt8) (hchecked : isChecked (byteAt data.bytes 0)) (hlong : 14 < data.len)
    (hsize : packetSize data.bytes ≤ data.len) :
    (preParseHeaderIn behind data).Yields
      (if crc32Imp (data.bytes.take (packetSize data.bytes)) = 0xffffffff then (splice data, true)
        else (some data, false)) := by
  rcases hchecked.ne with ⟨h80, h81, h82⟩
  have hread := region_read behind (Nat.pos_of_ne_zero hchecked.nonempty)
  have hfield := region_readSlice behind 1 (n := 2) (Nat.le_trans (by decide : 3 ≤ 15) hlong)
  have hpacket := region_readSlice behind 0 (n := packetSize data.bytes) (by rw [Nat.zero_add]; exact hsize)
  have hpadding := region_read behind (i := 3) (Nat.lt_trans (by decide : 3 < 14) hlong)
  have hlen : data.len ≠ 0 := hchecked.nonempty
  have hnot : ¬ data.len ≤ 14 := Nat.not_le.2 hlong
  have htake : window data.bytes 0 (packetSize data.bytes) = data.bytes.take (packetSize data.bytes) := by
    rw [window_eq_take (by rw [Nat.zero_add]; exact hsize), List.drop_zero]
  rw [packetSize] at hpacket htake
  simp only [preParseHeaderIn, hlen, if_false, hread.bind, h80, h81, h82, hchecked, if_true, hnot, hfield.bind,
    rdBe16_window, hpacket.bind, htake, packetSize, ne_eq, ite_not]
  by_cases hcrc : crc32Imp (data.bytes.take (rdBe16 data.bytes 1)) = 0xffffffff
  · simp only [hcrc, if_true, hpadding.bind, splice, packetSize, payloadStart]
    -- the bytes behind the packet end where the buffer ended
    by_cases hmore : rdBe16 data.bytes 1 < data.len
    · have htail := demand_yields (Nat.add_sub_cancel' hmore.le).le
      simp only [hmore, if_true, htail.bind, yields_pure]
    · simp only [hmore, if_false, yields_pure]
  · simp only [hcrc, if_false, yields_pure]

/-- A packet whose padding has room is cut out, and zeros take the place of what is behind it. -/
theorem splice_of_room (hroom : 4 + payloadStart data.bytes ≤ packetSize data.bytes)
    (hsize : packetSize data.bytes ≤ data.len) :
    ∃ b, splice data = some b ∧
      b.bytes = (data.bytes.take (packetSize data.bytes - 4)).drop (payloadStart data.bytes) ++
        List.replicate (data.len - packetSize data.bytes) 0 := by
  unfold splice
  dsimp only
  generalize packetSize data.bytes = size at hroom hsize ⊢
  generalize payloadStart data.bytes = start at hroom ⊢
  have hcut : (data.bytes.drop start).take (size - (4 + start)) = (data.bytes.take (size - 4)).drop start := by
    rw [List.drop_take, Nat.sub_sub]
  have hinside : start + (size - (4 + start)) ≤ data.len := by omega
  rw [subSize_of_le hroom, BufferT.shortenedTo_eq hinside, hcut]
  by_cases hmore : size < data.len
  · have hshort : ((data.bytes.take (size - 4)).drop start).length = size - (4 + start) := by
      rw [← hcut, List.length_take, List.length_drop]
      exact Nat.min_eq_left (Nat.le_sub_of_add_le' hinside)
    have hcap := data.len_le_capacity
    have hfits : (size - (4 + start)) + (data.len - size) ≤
        (size - (4 + start)) + (data.capacity - (size - (4 + start))) := by
      omega
    -- what is copied was erased by the first step
    have hzeros : window ((data.bytes.take (size - 4)).drop start ++
        List.replicate (data.capacity - (size - (4 + start))) 0) size (data.len - size) =
        List.replicate (data.len - size) 0 := by
      rw [window_append_right (by rw [hshort]; omega), window_eq_take (by rw [hshort, List.length_replicate]; omega),
        List.drop_replicate, List.take_replicate]
      congr 1
      rw [hshort]
      omega
    rw [if_pos hmore, BufferT.concatenateOwn_eq (by simpa [BufferT.len, BufferT.capacity, hshort] using hfits)]
    exact ⟨_, rfl, congrArg (_ ++ ·) hzeros⟩
  · have hnone : data.len - size = 0 := Nat.sub_eq_zero_of_le (Nat.not_lt.1 hmore)
    rw [if_neg hmore, hnone, List.replicate_zero, List.append_nil]
    exact ⟨_, rfl, rfl⟩

/-- A packet that is shorter than its padding is not cut out, and the bytes behind it come twice. -/
theorem splice_of_not_room (hroom : ¬ 4 + payloadStart data.bytes ≤ packetSize data.bytes) (hlen : 0 < data.len)
    {b : BufferT} (h : splice data = some b) :
    data.len - packetSize data.bytes < b.bytes.length := by
  have hstart : payloadStart data.bytes < 259 := by
    have hpad := (byteAt data.bytes 3).toNat_lt
    rw [payloadStart]
    omega
  unfold splice at h
  dsimp only at h
  generalize packetSize data.bytes = size at hroom h ⊢
  generalize payloadStart data.bytes = start at hroom hstart h
  have hwrap : 0 < subSize size (4 + start) := by
    rw [subSize, if_neg hroom]
    omega
  have hshort : 0 < (data.shortenedTo start (subSize size (4 + start))).len := by
    rw [BufferT.len, BufferT.bytes_shortenedTo, Bytes.shortenedTo]
    split_ifs with hguard
    · rw [List.length_take, List.length_drop, Nat.min_eq_left hguard.2]
      exact hwrap
    · exact hlen
  by_cases hmore : size < data.len
  · rw [if_pos hmore] at h
    generalize data.shortenedTo start (subSize size (4 + start)) = short at hshort h
    have hfits : short.len + (data.len - size) ≤ short.capacity := by
      by_contra hlarge
      rw [BufferT.concatenateOwn, if_pos (Nat.not_le.1 hlarge)] at h
      cases h
    rw [BufferT.concatenateOwn_eq hfits, Option.some.injEq] at h
    subst h
    rw [List.length_append, window_length]
    exact Nat.lt_add_of_pos_left hshort
  · rw [if_neg hmore, Option.some.injEq] at h
    subst h
    rw [Nat.sub_eq_zero_of_le (Nat.not_lt.1 hmore)]
    exact hshort

/-- Nothing is embedded in such a packet. -/
theorem stripped_length_of_not_room (hchecked : isChecked (byteAt data.bytes 0))
    (hroom : ¬ 4 + payloadStart data.bytes ≤ packetSize data.bytes) :
    (stripped data.bytes).length = data.len - packetSize data.bytes := by
  rcases hchecked.ne with ⟨h80, h81, h82⟩
  rw [stripped, if_neg h80, if_neg h81, if_neg h82, if_pos hchecked, List.length_append, List.length_drop,
    List.length_drop, List.length_take, BufferT.len]
  omega

/-- Zeros are what stands behind the packet. -/
theorem stripped_of_zeros_iff (hchecked : isChecked (byteAt data.bytes 0)) :
    (data.bytes.take (packetSize data.bytes - 4)).drop (payloadStart data.bytes) ++
        List.replicate (data.len - packetSize data.bytes) 0 = stripped data.bytes ↔
      ∀ x ∈ data.bytes.drop (packetSize data.bytes), x = 0 := by
  rcases hchecked.ne with ⟨h80, h81, h82⟩
  rw [stripped, if_neg h80, if_neg h81, if_neg h82, if_pos hchecked, List.append_cancel_left_eq]
  have hlen : data.len - packetSize data.bytes = (data.bytes.drop (packetSize data.bytes)).length :=
    (List.length_drop ..).symm
  rw [hlen, eq_comm, List.eq_replicate_iff]
  exact and_iff_right rfl

theorem stripsNoise_checked_iff (hchecked : isChecked (byteAt data.bytes 0)) (hlong : 14 < data.len) :
    StripsNoise behind data ↔
      packetSize data.bytes ≤ data.len ∧
        (crc32Imp (data.bytes.take (packetSize data.bytes)) = 0xffffffff →
          4 + payloadStart data.bytes ≤ packetSize data.bytes ∧
            ∀ x ∈ data.bytes.drop (packetSize data.bytes), x = 0) := by
  constructor
  · intro hstrips
    have hsize := packetSize_le_of_met hchecked hlong hstrips.reads
    refine ⟨hsize, fun hcrc => ?_⟩
    have hvalue := (preParse_of_le behind hchecked hlong hsize).2
    rw [if_pos hcrc] at hvalue
    rcases hstrips.accepted (congrArg Prod.snd hvalue) with ⟨b, hb, hbytes⟩
    have hsplice : splice data = some b := (congrArg Prod.fst hvalue).symm.trans hb
    have hroom : 4 + payloadStart data.bytes ≤ packetSize data.bytes := by
      by_contra hnot
      have hlt := splice_of_not_room hnot (Nat.lt_trans (by decide) hlong) hsplice
      rw [hbytes, stripped_length_of_not_room hchecked hnot] at hlt
      exact absurd hlt (Nat.lt_irrefl _)
    rcases splice_of_room hroom hsize with ⟨b', hb', hbytes'⟩
    have hsame : b' = b := Option.some.inj (hb'.symm.trans hsplice)
    subst hsame
    exact ⟨hroom, (stripped_of_zeros_iff hchecked).1 (hbytes'.symm.trans hbytes)⟩
  · rintro ⟨hsize, hregular⟩
    have hyields := preParse_of_le behind hchecked hlong hsize
    by_cases hcrc : crc32Imp (data.bytes.take (packetSize data.bytes)) = 0xffffffff
    · rcases hregular hcrc with ⟨hroom, hzeros⟩
      rcases splice_of_room hroom hsize with ⟨b, hb, hbytes⟩
      rw [if_pos hcrc, hb] at hyields
      exact stripsNoise_of_accepted hyields (hbytes.trans ((stripped_of_zeros_iff hchecked).2 hzeros))
    · rw [if_neg hcrc] at hyields
      exact stripsNoise_of_refused hyields

end Packets

/-! ## All buffers -/

/-- The noise is stripped from every buffer but those whose packet with a checksum is longer than the buffer,
or has a checksum that is right and is shorter than its padding or has other bytes than zeros behind it. -/
theorem strips_noise_iff (behind : ℕ → UInt8) (data : BufferT) :
    StripsNoise behind data ↔ PacketRegular data.bytes := by
  by_cases hchecked : isChecked (byteAt data.bytes 0)
  · by_cases hlong : 14 < data.len
    · rw [stripsNoise_checked_iff hchecked hlong]
      exact ⟨fun h _ _ => h, fun h => h hchecked hlong⟩
    · refine iff_of_true ?_ fun _ h => absurd h hlong
      exact stripsNoise_of_refused (preParse_short behind hchecked (Nat.not_lt.1 hlong))
  · exact iff_of_true (stripsNoise_unchecked hchecked) fun h => absurd h hchecked

/-- A packet of 15 bytes with the payload 1 to 7. -/
def samplePacket : Bytes := [0x88, 0, 15, 1, 1, 2, 3, 4, 5, 6, 7, 0x70, 0xe2, 0xc1, 0xa7]

/-- A size of 65535 in a buffer of 15 bytes, and a byte behind a packet, which is lost. -/
theorem noise_not_stripped :
    ¬ StripsNoise (fun _ => 0) ⟨[0x88, 0xff, 0xff, 0, 0, 0, 0, 0, 0, 0, 0, 0, 0, 0, 0], []⟩ ∧
      ¬ StripsNoise (fun _ => 0) ⟨samplePacket ++ [0x61], []⟩ := by
  constructor
  · intro h
    have hsize := packetSize_le_of_met (by decide) (by decide) h.reads
    exact absurd hsize (by decide)
  · intro h
    have hregular := (stripsNoise_checked_iff (by decide) (by decide)).1 h
    have hzeros := (hregular.2 (by decide +kernel)).2
    exact absurd (hzeros 0x61 (by decide)) (by decide)

/-! ## Buffers without a capacity -/

/-- Behind the bytes of a buffer that was shortened there are zeros, and if it was not shortened the bytes up
to its length are its own. -/
theorem window_shortenedTo (data : BufferT) (begin n : ℕ) {size : ℕ} (hsize : size ≤ data.len) :
    window (data.shortenedTo begin n).buffer size (data.len - size) =
      window (data.shortenedTo begin n).bytes size (data.len - size) := by
  by_cases hguard : begin ≤ data.len ∧ n ≤ data.len - begin
  · have hsum : begin + n ≤ data.len := by omega
    rw [BufferT.shortenedTo_eq hsum, BufferT.buffer]
    exact window_congr fun i _ => byteAt_zeros _ _ i
  · rw [BufferT.shortenedTo_refused hguard, BufferT.buffer]
    exact window_append_left (Nat.add_sub_cancel' hsize).le

/-- The spliced bytes, where nothing was copied from memory that was given back. -/
theorem splice_bytes {data b : BufferT} (h : splice data = some b) :
    b.bytes =
      (let short := Bytes.shortenedTo data.bytes (payloadStart data.bytes)
          (subSize (packetSize data.bytes) (4 + payloadStart data.bytes))
        if packetSize data.bytes < data.len then
          short ++ window short (packetSize data.bytes) (data.len - packetSize data.bytes)
        else short) := by
  unfold splice at h
  dsimp only at h ⊢
  rw [← BufferT.bytes_shortenedTo]
  by_cases hmore : packetSize data.bytes < data.len
  · have hwin := window_shortenedTo data (payloadStart data.bytes)
      (subSize (packetSize data.bytes) (4 + payloadStart data.bytes)) hmore.le
    generalize data.shortenedTo (payloadStart data.bytes)
      (subSize (packetSize data.bytes) (4 + payloadStart data.bytes)) = short at h hwin ⊢
    rw [if_pos hmore] at h ⊢
    have hfits : short.len + (data.len - packetSize data.bytes) ≤ short.capacity := by
      by_contra hlarge
      rw [BufferT.concatenateOwn, if_pos (Nat.not_le.1 hlarge)] at h
      cases h
    rw [BufferT.concatenateOwn_eq hfits, Option.some.injEq] at h
    rw [← h, ← hwin]
  · rw [if_neg hmore, Option.some.injEq] at h
    rw [if_neg hmore, h]

theorem preParseHeader_of_checked {behind : ℕ → UInt8} {data b : BufferT} {ok : Bool}
    (hchecked : isChecked (byteAt data.bytes 0))
    (h : (preParseHeaderIn behind data).Yields (some b, ok)) : preParseHeader data.bytes = (b.bytes, ok) := by
  rcases hchecked.ne with ⟨h80, h81, h82⟩
  have hlen : data.bytes.length ≠ 0 := hchecked.nonempty
  have hor : byteAt data.bytes 0 = 0x88 ∨ ~~~byteAt data.bytes 0 = 0x88 := hchecked
  rw [preParseHeader]
  dsimp only
  rw [if_neg hlen, if_neg h80, if_neg h81, if_neg h82, if_pos hor]
  by_cases hlong : 14 < data.len
  · have hsize := packetSize_le_of_met hchecked hlong h.1
    have hvalue := (preParse_of_le behind hchecked hlong hsize).unique h
    have hnot : ¬ data.bytes.length ≤ 14 := Nat.not_le.2 hlong
    have htake : window data.bytes 0 (rdBe16 data.bytes 1) = data.bytes.take (packetSize data.bytes) := by
      rw [window_eq_take (by rw [Nat.zero_add]; exact hsize), List.drop_zero]
      rfl
    rw [htake]
    by_cases hcrc : crc32Imp (data.bytes.take (packetSize data.bytes)) = 0xffffffff
    · rw [if_pos hcrc, Prod.mk.injEq] at hvalue
      rcases hvalue with ⟨hsplice, rfl⟩
      rw [if_neg (not_or.2 ⟨hnot, not_not.2 hcrc⟩), splice_bytes hsplice]
      exact (apply_ite (·, true) ..).symm
    · rw [if_neg hcrc, Prod.mk.injEq, Option.some.injEq] at hvalue
      rcases hvalue with ⟨rfl, rfl⟩
      rw [if_pos (.inr hcrc)]
  · have hshort : data.len ≤ 14 := Nat.not_lt.1 hlong
    have hvalue := (preParse_short behind hchecked hshort).unique h
    rw [Prod.mk.injEq, Option.some.injEq] at hvalue
    rcases hvalue with ⟨rfl, rfl⟩
    exact if_pos (.inl hshort)

/-- Where only bytes of the buffer are read, and nothing is copied from memory that was given back, the
buffer is left as on a memory of zeros. -/
theorem preParseHeader_of_yields {behind : ℕ → UInt8} {data b : BufferT} {ok : Bool}
    (h : (preParseHeaderIn behind data).Yields (some b, ok)) : preParseHeader data.bytes = (b.bytes, ok) := by
  by_cases hchecked : isChecked (byteAt data.bytes 0)
  · exact preParseHeader_of_checked hchecked h
  have hor : ¬ (byteAt data.bytes 0 = 0x88 ∨ ~~~byteAt data.bytes 0 = 0x88) := hchecked
  have hlenEq : data.bytes.length = data.len := rfl
  rw [preParseHeader]
  dsimp only
  rw [hlenEq]
  by_cases hlen : data.len = 0
  · cases (preParse_nil behind hlen).unique h
    rw [if_pos hlen]
  rw [if_neg hlen]
  by_cases h80 : byteAt data.bytes 0 = 0x80
  · have hvalue := (preParse_80 behind hlen h80).unique h
    rw [if_pos h80]
    split_ifs at hvalue ⊢ with hshort
    · cases hvalue
      rfl
    · cases hvalue
      rw [BufferT.bytes_shortenedTo]
  rw [if_neg h80]
  by_cases h81 : byteAt data.bytes 0 = 0x81
  · cases (preParse_81 behind hlen h81).unique h
    rw [if_pos h81, BufferT.bytes_shortenedTo]
  rw [if_neg h81]
  by_cases h82 : byteAt data.bytes 0 = 0x82
  · have hvalue := (preParse_82 behind hlen h82).unique h
    rw [if_pos h82]
    split_ifs at hvalue ⊢ with hshort
    · cases hvalue
      rfl
    · cases hvalue
      rw [BufferT.bytes_shortenedTo]
  · cases (preParse_ordinary behind hlen h80 h81 h82 hchecked).unique h
    rw [if_neg h82, if_neg hor]

end Server
end SsrNative
