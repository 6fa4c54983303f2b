import SsrNative.Bytes
import SsrNative.Lib.Delimited

/-!
# Websocket — building and reading frames

`websocket_build_frame` and `websocket_retrieve_payload` of `websocket_basic.c`.  The reader answers
with a payload or with nothing, and nothing can mean that the frame is not there yet or that it never
will be (`retrieve_eq_none_iff`, `begins_iff`).
-/

namespace SsrNative
namespace Websocket

open Bytes
open Lib.Delimited

/-! ## Data -/

def WS_OPCODE_CONTINUATION : UInt8 := 0x0
def WS_OPCODE_TEXT : UInt8 := 0x1
def WS_OPCODE_BINARY : UInt8 := 0x2
def WS_OPCODE_CLOSE : UInt8 := 0x8
def WS_OPCODE_PING : UInt8 := 0x9
def WS_OPCODE_PONG : UInt8 := 0xa

def WS_CLOSE_REASON_UNKNOWN : ℕ := 0
def WS_CLOSE_REASON_NORMAL : ℕ := 1000
def WS_CLOSE_REASON_UNEXPECTED_DATA : ℕ := 1003
def WS_CLOSE_REASON_TOO_BIG : ℕ := 1009

/-- `ws_frame_info`. -/
structure WsFrameInfo where
  opcode : UInt8
  fin : Bool
  masking : Bool
  reason : ℕ
  frameSize : ℕ
  payloadSize : ℕ

/-- `ws_frame_binary_alone`. -/
def wsFrameBinaryAlone (masking : Bool) (info : WsFrameInfo) : WsFrameInfo :=
  { info with opcode := WS_OPCODE_BINARY, fin := true, masking := masking }

/-- `ws_frame_binary_first`. -/
def wsFrameBinaryFirst (masking : Bool) (info : WsFrameInfo) : WsFrameInfo :=
  { info with opcode := WS_OPCODE_BINARY, fin := false, masking := masking }

/-- `ws_frame_binary_continuous`. -/
def wsFrameBinaryContinuous (masking : Bool) (info : WsFrameInfo) : WsFrameInfo :=
  { info with opcode := WS_OPCODE_CONTINUATION, fin := false, masking := masking }

/-- `ws_hton64` laid out in memory. -/
def be64 (n : ℕ) : Bytes := be32 (n / 4294967296) ++ be32 n

/-- `ws_ntoh64` of the eight bytes at `i`. -/
def rdBe64 (b : Bytes) (i : ℕ) : ℕ :=
  ((rdBe16 b i * 65536 + rdBe16 b (i + 2)) * 65536 + rdBe16 b (i + 4)) * 65536 + rdBe16 b (i + 6)

/-- The payload under a mask of four bytes. -/
def applyMask (mask payload : Bytes) : Bytes :=
  payload.mapIdx fun i x => x ^^^ byteAt mask (i % 4)

/-! ## Building -/

/-- The length that stands in the second byte. -/
def payloadLenSmall (n : ℕ) : ℕ := if n ≤ 125 then n else if n ≤ 0xffff then 126 else 127

/-- The length behind the second byte. -/
def payloadLenField (n : ℕ) : Bytes :=
  if n ≤ 125 then [] else if n ≤ 0xffff then be16 n else be64 n

/-- `websocket_build_frame`; `rand` is what `random_bytes_generator` gives for the mask. -/
def websocketBuildFrame (info : WsFrameInfo) (rand : ℕ → UInt8) (payload : Bytes) :
    Bytes × WsFrameInfo :=
  let finNopcode := (if info.fin then 0x80 else 0x00) ||| info.opcode
  let small := UInt8.ofNat (payloadLenSmall payload.length)
  let mask := randBytes rand 4
  let data :=
    if info.masking then
      [finNopcode, small ||| 0x80] ++
        (payloadLenField payload.length ++ (mask ++ applyMask mask payload))
    else [finNopcode, small &&& 0x7F] ++ (payloadLenField payload.length ++ payload)
  (data, { info with frameSize := data.length, payloadSize := payload.length })

/-! ## Reading -/

/-- The opcodes that the reader knows; any other only leaves a trace in `reason`. -/
def knownOpcode (opcode : UInt8) : Bool :=
  opcode ∈ [WS_OPCODE_CONTINUATION, WS_OPCODE_TEXT, WS_OPCODE_BINARY, WS_OPCODE_CLOSE, WS_OPCODE_PING,
    WS_OPCODE_PONG]

/-- `websocket_retrieve_payload`, with what it leaves in `*info`. -/
def websocketRetrievePayload (data : Bytes) (info : WsFrameInfo) : Option Bytes × WsFrameInfo :=
  if data.length < 2 then
    (none, ⟨0, false, false, WS_CLOSE_REASON_UNEXPECTED_DATA, 0, 0⟩)
  else
    let opcode := byteAt data 0 &&& 0x0F
    let reason :=
      if knownOpcode opcode then WS_CLOSE_REASON_NORMAL else WS_CLOSE_REASON_UNEXPECTED_DATA
    let flagFIN := decide (byteAt data 0 &&& 0x80 = 0x80)
    if byteAt data 0 &&& 0x70 ≠ 0 then
      (none, ⟨opcode, flagFIN, false, WS_CLOSE_REASON_UNEXPECTED_DATA, 0, 0⟩)
    else
      let flagMask := decide (byteAt data 1 &&& 0x80 = 0x80)
      let count := if flagMask then 4 else 0
      let small := (byteAt data 1 &&& 0x7F).toNat
      if small = 126 ∧ data.length < 4 then (none, info)
      else if small = 127 ∧ data.length < 10 then (none, info)
      else if small = 127 ∧ window data 2 4 ≠ List.replicate 4 0 then
        (none, ⟨opcode, flagFIN, flagMask, WS_CLOSE_REASON_TOO_BIG, 127, 127⟩)
      else
        let len := if small = 126 then rdBe16 data 2 else if small = 127 then rdBe64 data 2 else small
        let maskAt := if small = 126 then 4 else if small = 127 then 10 else 2
        let packageHeadLen := maskAt + count
        let info := ⟨opcode, flagFIN, flagMask, reason, len + packageHeadLen, len⟩
        if data.length < packageHeadLen + len then (none, info)
        else
          let body := window data packageHeadLen len
          (some (if flagMask then applyMask (window data maskAt 4) body else body), info)

/-! ## What the reader needs -/

/-- Bytes that no frame starts with: reserved bits are set, or the length needs more than four bytes. -/
def Malformed (data : Bytes) : Prop :=
  byteAt data 0 &&& 0x70 ≠ 0 ∨
    (byteAt data 1 &&& 0x7F = 127 ∧ window data 2 4 ≠ List.replicate 4 0)

instance (data : Bytes) : Decidable (Malformed data) := by
  unfold Malformed
  infer_instance

/-- Where the mask stands, if there is one. -/
def maskPos (data : Bytes) : ℕ :=
  if byteAt data 1 &&& 0x7F = 126 then 4 else if byteAt data 1 &&& 0x7F = 127 then 10 else 2

def headLen (data : Bytes) : ℕ := maskPos data + if byteAt data 1 &&& 0x80 = 0x80 then 4 else 0

def payloadLen (data : Bytes) : ℕ :=
  if byteAt data 1 &&& 0x7F = 126 then rdBe16 data 2
  else if byteAt data 1 &&& 0x7F = 127 then rdBe64 data 2
  else (byteAt data 1 &&& 0x7F).toNat

/-- The size of the frame at the front, as far as its header has arrived. -/
def frameLen (data : Bytes) : ℕ := headLen data + payloadLen data

/-- The payload of the frame at the front. -/
def framePayload (data : Bytes) : Bytes :=
  let body := window data (headLen data) (payloadLen data)
  if byteAt data 1 &&& 0x80 = 0x80 then applyMask (window data (maskPos data) 4) body else body

/-- A frame that the reader takes, and nothing behind it. -/
def WellFormed (frame : Bytes) : Prop := ¬ Malformed frame ∧ frameLen frame = frame.length

/-- Bytes at which a frame has begun: a strict prefix of one. -/
def Begins (data : Bytes) : Prop := ∃ more, more ≠ [] ∧ WellFormed (data ++ more)

section Reading

theorem toNat_eq_iff (x : UInt8) (n : ℕ) (h : n < 256) : x.toNat = n ↔ x = UInt8.ofNat n := by
  rw [← UInt8.toNat_inj, UInt8.toNat_ofNat', Nat.mod_eq_of_lt h]

theorem maskPos_mem (data : Bytes) : maskPos data = 2 ∨ maskPos data = 4 ∨ maskPos data = 10 := by
  unfold maskPos
  split
  · exact .inr (.inl rfl)
  · split
    · exact .inr (.inr rfl)
    · exact .inl rfl

theorem two_le_headLen (data : Bytes) : 2 ≤ headLen data := by
  unfold headLen
  rcases maskPos_mem data with h | h | h <;> omega

/-- The information about the frame at the front. -/
def frameInfo (data : Bytes) : WsFrameInfo where
  opcode := byteAt data 0 &&& 0x0F
  fin := decide (byteAt data 0 &&& 0x80 = 0x80)
  masking := decide (byteAt data 1 &&& 0x80 = 0x80)
  reason :=
    if knownOpcode (byteAt data 0 &&& 0x0F) then WS_CLOSE_REASON_NORMAL
    else WS_CLOSE_REASON_UNEXPECTED_DATA
  frameSize := frameLen data
  payloadSize := payloadLen data

theorem len_guards {data : Bytes} (h : frameLen data ≤ data.length) :
    ¬ data.length < 2 ∧ ¬ (byteAt data 1 &&& 0x7F = 126 ∧ data.length < 4) ∧
      ¬ (byteAt data 1 &&& 0x7F = 127 ∧ data.length < 10) := by
  have hhead := two_le_headLen data
  unfold frameLen at h
  refine ⟨by omega, ?_, ?_⟩
  · rintro ⟨h126, hlen⟩
    have hpos : maskPos data = 4 := if_pos h126
    unfold headLen at h
    omega
  · rintro ⟨h127, hlen⟩
    have hne : ¬ (127 : UInt8) = 126 := by decide
    have hpos : maskPos data = 10 := by rw [maskPos, h127, if_neg hne, if_pos rfl]
    unfold headLen at h
    omega

/-- The reader with its local values named. -/
theorem retrieve_def (data : Bytes) (info : WsFrameInfo) :
    websocketRetrievePayload data info =
      if data.length < 2 then (none, ⟨0, false, false, WS_CLOSE_REASON_UNEXPECTED_DATA, 0, 0⟩)
      else if byteAt data 0 &&& 0x70 ≠ 0 then
        (none, ⟨byteAt data 0 &&& 0x0F, decide (byteAt data 0 &&& 0x80 = 0x80), false,
          WS_CLOSE_REASON_UNEXPECTED_DATA, 0, 0⟩)
      else if byteAt data 1 &&& 0x7F = 126 ∧ data.length < 4 then (none, info)
      else if byteAt data 1 &&& 0x7F = 127 ∧ data.length < 10 then (none, info)
      else if byteAt data 1 &&& 0x7F = 127 ∧ window data 2 4 ≠ List.replicate 4 0 then
        (none, ⟨byteAt data 0 &&& 0x0F, decide (byteAt data 0 &&& 0x80 = 0x80),
          decide (byteAt data 1 &&& 0x80 = 0x80), WS_CLOSE_REASON_TOO_BIG, 127, 127⟩)
      else if data.length < frameLen data then (none, frameInfo data)
      else (some (framePayload data), frameInfo data) := by
  have hsmall126 : (byteAt data 1 &&& 0x7F).toNat = 126 ↔ byteAt data 1 &&& 0x7F = 126 :=
    toNat_eq_iff _ 126 (by decide)
  have hsmall127 : (byteAt data 1 &&& 0x7F).toNat = 127 ↔ byteAt data 1 &&& 0x7F = 127 :=
    toNat_eq_iff _ 127 (by decide)
  have hcount : (if decide (byteAt data 1 &&& 0x80 = 0x80) = true then 4 else 0) =
      if byteAt data 1 &&& 0x80 = 0x80 then 4 else 0 := by
    simp only [decide_eq_true_eq]
  unfold websocketRetrievePayload
  dsimp only
  simp only [hsmall126, hsmall127]
  rw [hcount, ← maskPos, ← payloadLen, ← headLen, ← frameLen, Nat.add_comm (payloadLen data), ← frameLen]
  simp only [decide_eq_true_eq]
  rfl

theorem retrieve_of_le {data : Bytes} (hsound : ¬ Malformed data) (hlen : frameLen data ≤ data.length)
    (info : WsFrameInfo) :
    websocketRetrievePayload data info = (some (framePayload data), frameInfo data) := by
  obtain ⟨h2, h4, h10⟩ := len_guards hlen
  rw [retrieve_def, if_neg h2, if_neg fun h => hsound (.inl h), if_neg h4, if_neg h10,
    if_neg fun h => hsound (.inr h), if_neg (Nat.not_lt.2 hlen)]

theorem retrieve_of_malformed {data : Bytes} (h : Malformed data) (info : WsFrameInfo) :
    (websocketRetrievePayload data info).1 = none := by
  rw [retrieve_def]
  rcases h with h | h
  · rw [if_pos h]
    split <;> rfl
  · rw [if_pos h]
    split_ifs <;> rfl

theorem retrieve_of_lt {data : Bytes} (h : data.length < frameLen data) (info : WsFrameInfo) :
    (websocketRetrievePayload data info).1 = none := by
  rw [retrieve_def, if_pos h]
  split_ifs <;> rfl

/-- A payload is found when the header is sound and the whole frame is there. -/
theorem retrieve_eq_none_iff (data : Bytes) (info : WsFrameInfo) :
    (websocketRetrievePayload data info).1 = none ↔
      Malformed data ∨ data.length < frameLen data := by
  constructor
  · intro hnone
    by_contra hcon
    rw [not_or, Nat.not_lt] at hcon
    rw [retrieve_of_le hcon.1 hcon.2] at hnone
    cases hnone
  · rintro (h | h)
    · exact retrieve_of_malformed h info
    · exact retrieve_of_lt h info

/-! ## Where a frame ends -/

theorem rdBe16_congr {a b : Bytes} {i : ℕ} (h : ∀ j < i + 2, byteAt a j = byteAt b j) :
    rdBe16 a i = rdBe16 b i := by
  rw [rdBe16, rdBe16, h i (by omega), h (i + 1) (by omega)]

/-- The header is read from its own bytes. -/
theorem header_congr {a b : Bytes} (h : ∀ i < headLen a, byteAt a i = byteAt b i) :
    (Malformed a ↔ Malformed b) ∧ maskPos a = maskPos b ∧ headLen a = headLen b ∧
      payloadLen a = payloadLen b := by
  have htwo := two_le_headLen a
  have h0 : byteAt a 0 = byteAt b 0 := h 0 (by omega)
  have h1 : byteAt a 1 = byteAt b 1 := h 1 (by omega)
  have hpos : maskPos a = maskPos b := by rw [maskPos, maskPos, h1]
  have hhead : headLen a = headLen b := by rw [headLen, headLen, hpos, h1]
  have hle : maskPos a ≤ headLen a := Nat.le_add_right _ _
  refine ⟨?_, hpos, hhead, ?_⟩
  · unfold Malformed
    rw [h0, h1]
    by_cases h127 : byteAt b 1 &&& 0x7F = 127
    · have hne : ¬ (127 : UInt8) = 126 := by decide
      have hten : maskPos a = 10 := by rw [maskPos, h1, h127, if_neg hne, if_pos rfl]
      rw [window_congr fun i hi => h i (by omega)]
    · simp only [h127, false_and]
  · unfold payloadLen
    rw [h1]
    by_cases h126 : byteAt b 1 &&& 0x7F = 126
    · have hfour : maskPos a = 4 := by rw [maskPos, h1, if_pos h126]
      rw [if_pos h126, if_pos h126, rdBe16_congr fun i hi => h i (by omega)]
    · rw [if_neg h126, if_neg h126]
      by_cases h127 : byteAt b 1 &&& 0x7F = 127
      · have hten : maskPos a = 10 := by rw [maskPos, h1, if_neg h126, if_pos h127]
        rw [if_pos h127, if_pos h127, rdBe64, rdBe64, rdBe16_congr fun i hi => h i (by omega),
          rdBe16_congr fun i hi => h i (by omega), rdBe16_congr fun i hi => h i (by omega),
          rdBe16_congr fun i hi => h i (by omega)]
      · rw [if_neg h127, if_neg h127]

theorem frameLen_congr {a b : Bytes} (h : ∀ i < headLen a, byteAt a i = byteAt b i) :
    frameLen a = frameLen b := by
  obtain ⟨-, -, hhead, hpayload⟩ := header_congr h
  rw [frameLen, frameLen, hhead, hpayload]

theorem headLen_le_frameLen (data : Bytes) : headLen data ≤ frameLen data := Nat.le_add_right _ _

theorem framePayload_congr {a b : Bytes} (h : ∀ i < frameLen a, byteAt a i = byteAt b i) :
    framePayload a = framePayload b := by
  have hle := headLen_le_frameLen a
  have htwo := two_le_headLen a
  obtain ⟨-, hpos, hhead, hpayload⟩ := header_congr fun i hi => h i (by omega)
  have h1 : byteAt a 1 = byteAt b 1 := h 1 (by omega)
  have hbody : window a (headLen a) (payloadLen a) = window b (headLen a) (payloadLen a) :=
    window_congr h
  unfold framePayload
  rw [← hhead, ← hpayload, ← hpos, ← h1, hbody]
  by_cases hmask : byteAt a 1 &&& 0x80 = 0x80
  · have hhead' : headLen a = maskPos a + 4 := by rw [headLen, if_pos hmask]
    rw [if_pos hmask, if_pos hmask, window_congr (show ∀ i < maskPos a + 4, byteAt a i = byteAt b i from fun i hi => h i (by omega))]
  · rw [if_neg hmask, if_neg hmask]

/-- What the reader needs of `a` is at the front of `b`. -/
theorem frame_congr {a b : Bytes} (h : ∀ i < frameLen a, byteAt a i = byteAt b i) :
    (Malformed a ↔ Malformed b) ∧ frameLen a = frameLen b ∧ framePayload a = framePayload b := by
  have hle := headLen_le_frameLen a
  have hhead : ∀ i < headLen a, byteAt a i = byteAt b i := fun i hi => h i (by omega)
  exact ⟨(header_congr hhead).1, frameLen_congr hhead, framePayload_congr h⟩

theorem frame_append {data : Bytes} (h : frameLen data ≤ data.length) (l : Bytes) :
    (Malformed data ↔ Malformed (data ++ l)) ∧ frameLen data = frameLen (data ++ l) ∧
      framePayload data = framePayload (data ++ l) :=
  frame_congr fun i hi => (byteAt_append_left (by omega)).symm

theorem frame_take {data : Bytes} (h : frameLen data ≤ data.length) :
    (Malformed data ↔ Malformed (data.take (frameLen data))) ∧
      frameLen data = frameLen (data.take (frameLen data)) ∧
      framePayload data = framePayload (data.take (frameLen data)) := by
  refine frame_congr fun i hi => ?_
  conv_lhs => rw [← List.take_append_drop (frameLen data) data]
  exact byteAt_append_left (by rw [List.length_take]; omega)

/-- The frames of a stream, as the reader tells them apart. -/
def wsFrames : Delimiter UInt8 where
  size data := if Malformed data ∨ data.length < frameLen data then none else some (frameLen data)
  size_pos {l n} h := by
    have htwo := two_le_headLen l
    have hle := headLen_le_frameLen l
    split at h
    · cases h
    · rw [← Option.some.inj h]
      omega
  size_le {l n} h := by
    split at h
    · cases h
    case isFalse hsound =>
      rw [not_or] at hsound
      rw [← Option.some.inj h]
      omega
  size_append {l n} h m := by
    split at h
    · cases h
    case isFalse hsound =>
      rw [not_or, Nat.not_lt] at hsound
      obtain ⟨hmal, hlen, -⟩ := frame_append hsound.2 m
      have hshort : ¬ (l ++ m).length < frameLen (l ++ m) := by
        rw [← hlen, List.length_append]
        omega
      rw [if_neg (not_or.2 ⟨fun hm => hsound.1 (hmal.2 hm), hshort⟩), ← hlen, h]
  size_take {l n} h := by
    split at h
    · cases h
    case isFalse hsound =>
      rw [not_or, Nat.not_lt] at hsound
      obtain ⟨hmal, hlen, -⟩ := frame_take hsound.2
      have hn : frameLen l = n := Option.some.inj h
      rw [hn] at hmal hlen hsound
      have hshort : ¬ (l.take n).length < frameLen (l.take n) := by
        rw [← hlen, List.length_take]
        omega
      rw [if_neg (not_or.2 ⟨fun hm => hsound.1 (hmal.2 hm), hshort⟩), ← hlen]

theorem wsFrames_size (data : Bytes) :
    wsFrames.size data =
      if Malformed data ∨ data.length < frameLen data then none else some (frameLen data) := rfl

theorem isFrame_iff (f : Bytes) : wsFrames.IsFrame f ↔ WellFormed f := by
  rw [Delimiter.IsFrame, wsFrames_size, WellFormed]
  constructor
  · intro h
    split at h
    · cases h
    case isFalse hsound => exact ⟨fun hm => hsound (.inl hm), Option.some.inj h⟩
  · rintro ⟨hsound, hlen⟩
    rw [if_neg (not_or.2 ⟨hsound, by omega⟩), hlen]

theorem retrieve_of_size_none {data : Bytes} (h : wsFrames.size data = none) (info : WsFrameInfo) :
    (websocketRetrievePayload data info).1 = none := by
  rw [wsFrames_size] at h
  rw [retrieve_eq_none_iff]
  by_contra hcon
  rw [if_neg hcon] at h
  cases h

theorem retrieve_of_size_some {data : Bytes} {n : ℕ} (h : wsFrames.size data = some n)
    (info : WsFrameInfo) :
    websocketRetrievePayload data info = (some (framePayload (data.take n)), frameInfo data) ∧
      frameLen data = n := by
  rw [wsFrames_size] at h
  split at h
  · cases h
  case isFalse hsound =>
    rw [not_or, Nat.not_lt] at hsound
    have hn : frameLen data = n := Option.some.inj h
    refine ⟨?_, hn⟩
    rw [retrieve_of_le hsound.1 hsound.2, (frame_take hsound.2).2.2, hn]

/-! ## Bytes that wait for more -/

theorem byteAt_of_ne_zero {data : Bytes} {i : ℕ} (h : byteAt data i ≠ 0) : i < data.length := by
  by_contra hle
  apply h
  rw [byteAt, List.getD_eq_getElem?_getD, List.getElem?_eq_none (Nat.not_lt.1 hle)]
  rfl

/-- What is wrong with a header stays wrong when more arrives. -/
theorem Malformed.append {data : Bytes} (h : Malformed data) (l : Bytes) : Malformed (data ++ l) := by
  rcases h with h | ⟨h127, hbig⟩
  · have h0 : byteAt data 0 ≠ 0 := by
      intro h0
      rw [h0] at h
      exact h rfl
    exact .inl (by rwa [byteAt_append_left (byteAt_of_ne_zero h0)])
  · have h1 : byteAt data 1 ≠ 0 := by
      intro h1
      rw [h1] at h127
      exact absurd h127 (by decide)
    refine .inr ⟨by rwa [byteAt_append_left (byteAt_of_ne_zero h1)], ?_⟩
    intro hzero
    apply hbig
    rw [window, List.eq_replicate_iff] at hzero ⊢
    refine ⟨by simp, ?_⟩
    intro x hx
    obtain ⟨i, hi, rfl⟩ := List.mem_map.1 hx
    by_contra hne
    apply hne
    have hmem : byteAt (data ++ l) (2 + i) = 0 := hzero.2 _ (List.mem_map.2 ⟨i, hi, rfl⟩)
    rwa [byteAt_append_left (byteAt_of_ne_zero hne)] at hmem

/-- A frame has begun when the header is sound as far as it goes and bytes are missing. -/
theorem begins_iff (data : Bytes) : Begins data ↔ ¬ Malformed data ∧ data.length < frameLen data := by
  constructor
  · rintro ⟨more, hmore, hsound, hlen⟩
    refine ⟨fun h => hsound (h.append more), ?_⟩
    by_contra hle
    obtain ⟨-, hsame, -⟩ := frame_append (Nat.not_lt.1 hle) more
    have hpos := List.length_pos_iff.2 hmore
    rw [← hsame, List.length_append] at hlen
    omega
  · rintro ⟨hsound, hlt⟩
    refine ⟨List.replicate (frameLen data - data.length) 0, ?_, ?_⟩
    · rw [ne_eq, List.replicate_eq_nil_iff]
      omega
    · obtain ⟨hmal, hlen, -⟩ := frame_congr (a := data)
        (b := data ++ List.replicate (frameLen data - data.length) 0)
        fun i _ => (byteAt_zeros data _ i).symm
      refine ⟨fun h => hsound (hmal.2 h), ?_⟩
      rw [← hlen, List.length_append, List.length_replicate]
      omega

theorem Begins.size_none {data : Bytes} (h : Begins data) : wsFrames.size data = none := by
  rw [wsFrames_size, if_pos (.inr ((begins_iff data).1 h).2)]

end Reading

/-! ## Frames that were built -/

section Built

theorem rdBe64_be64_append {n : ℕ} (h : n < 4294967296) (l : Bytes) : rdBe64 (be64 n ++ l) 0 = n := by
  simp [rdBe64, rdBe16, be64, be32, byteAt]
  omega

theorem rdBe64_append_right {a l : Bytes} {i : ℕ} (h : a.length ≤ i) :
    rdBe64 (a ++ l) i = rdBe64 l (i - a.length) := by
  rw [rdBe64, rdBe64, rdBe16_append_right h, rdBe16_append_right (by omega),
    rdBe16_append_right (by omega), rdBe16_append_right (by omega), Nat.sub_add_comm h,
    Nat.sub_add_comm h, Nat.sub_add_comm h]

theorem applyMask_applyMask (mask payload : Bytes) : applyMask mask (applyMask mask payload) = payload := by
  unfold applyMask
  apply List.ext_getElem
  · simp
  · intro i hi hi'
    simp only [List.getElem_mapIdx]
    rw [UInt8.xor_assoc, UInt8.xor_self, UInt8.xor_zero]

@[simp] theorem applyMask_length (mask payload : Bytes) :
    (applyMask mask payload).length = payload.length := by
  simp [applyMask]

theorem small_byte (m : ℕ) (h : m < 128) (masking : Bool) :
    (let b := if masking then UInt8.ofNat m ||| 0x80 else UInt8.ofNat m &&& 0x7F
     b &&& 0x7F = UInt8.ofNat m ∧ (b &&& 0x80 = 0x80 ↔ masking = true)) := by
  have hall : ∀ (m : Fin 128) (masking : Bool),
      (let b := if masking then UInt8.ofNat m.1 ||| 0x80 else UInt8.ofNat m.1 &&& 0x7F
       b &&& 0x7F = UInt8.ofNat m.1 ∧ (b &&& 0x80 = 0x80 ↔ masking = true)) := by decide
  exact hall ⟨m, h⟩ masking

theorem first_byte {opcode : UInt8} (h : knownOpcode opcode = true) (fin : Bool) :
    (let b := (if fin then 0x80 else 0x00) ||| opcode
     b &&& 0x70 = 0 ∧ b &&& 0x0F = opcode ∧ (b &&& 0x80 = 0x80 ↔ fin = true)) := by
  simp only [knownOpcode, List.mem_cons, List.not_mem_nil, or_false, decide_eq_true_eq] at h
  rcases h with rfl | rfl | rfl | rfl | rfl | rfl <;> cases fin <;> decide

theorem payloadLenSmall_lt (n : ℕ) : payloadLenSmall n < 128 := by
  unfold payloadLenSmall
  split_ifs <;> omega

/-- The mask of a frame, nothing when it has none. -/
def maskField (masking : Bool) (mask : Bytes) : Bytes := if masking then mask else []

/-- A frame, field by field. -/
theorem buildFrame_eq (info : WsFrameInfo) (rand : ℕ → UInt8) (payload : Bytes) :
    (websocketBuildFrame info rand payload).1 =
      [(if info.fin then 0x80 else 0x00) ||| info.opcode,
        if info.masking then UInt8.ofNat (payloadLenSmall payload.length) ||| 0x80
        else UInt8.ofNat (payloadLenSmall payload.length) &&& 0x7F] ++
      (payloadLenField payload.length ++ (maskField info.masking (randBytes rand 4) ++
        if info.masking then applyMask (randBytes rand 4) payload else payload)) := by
  unfold websocketBuildFrame maskField
  cases info.masking <;> rfl

/-- The length of the payload is read back from the header. -/
theorem header_built (b₀ : UInt8) {b₁ : UInt8} {n : ℕ} (hn : n < 4294967296)
    (h₁ : b₁ &&& 0x7F = UInt8.ofNat (payloadLenSmall n)) (l : Bytes) :
    maskPos ([b₀, b₁] ++ (payloadLenField n ++ l)) = 2 + (payloadLenField n).length ∧
      payloadLen ([b₀, b₁] ++ (payloadLenField n ++ l)) = n ∧
      (b₀ &&& 0x70 = 0 → ¬ Malformed ([b₀, b₁] ++ (payloadLenField n ++ l))) := by
  have hbyte : byteAt ([b₀, b₁] ++ (payloadLenField n ++ l)) 1 = b₁ := rfl
  have hzero : byteAt ([b₀, b₁] ++ (payloadLenField n ++ l)) 0 = b₀ := rfl
  unfold maskPos payloadLen Malformed
  rw [hbyte, hzero, h₁]
  -- the three forms of the length: one byte, two bytes behind 126, eight behind 127
  by_cases hsmall : n ≤ 125
  · have hs : payloadLenSmall n = n := if_pos hsmall
    have hfield : payloadLenField n = [] := if_pos hsmall
    have hval : (UInt8.ofNat n).toNat = n := by
      rw [UInt8.toNat_ofNat', Nat.mod_eq_of_lt (by omega)]
    have h126 : ¬ UInt8.ofNat n = 126 := fun h => by
      have h' : n = 126 := by rw [← hval, h]; rfl
      omega
    have h127 : ¬ UInt8.ofNat n = 127 := fun h => by
      have h' : n = 127 := by rw [← hval, h]; rfl
      omega
    rw [hs, if_neg h126, if_neg h127, if_neg h126, if_neg h127, hfield]
    refine ⟨rfl, hval, ?_⟩
    rintro h₀ (h | h)
    · exact h h₀
    · exact h127 h.1
  · by_cases hmid : n ≤ 0xffff
    · have hs : payloadLenSmall n = 126 := by rw [payloadLenSmall, if_neg hsmall, if_pos hmid]
      have hfield : payloadLenField n = be16 n := by rw [payloadLenField, if_neg hsmall, if_pos hmid]
      have h126 : UInt8.ofNat 126 = 126 := rfl
      rw [hs, hfield, if_pos h126, if_pos h126]
      refine ⟨rfl, ?_, ?_⟩
      · have hlen : [b₀, b₁].length = 2 := rfl
        rw [rdBe16_field hlen, Nat.mod_eq_of_lt (by omega)]
      · rintro h₀ (h | h)
        · exact h h₀
        · exact absurd h.1 (by decide)
    · have hs : payloadLenSmall n = 127 := by rw [payloadLenSmall, if_neg hsmall, if_neg hmid]
      have hfield : payloadLenField n = be64 n := by rw [payloadLenField, if_neg hsmall, if_neg hmid]
      have h126 : ¬ UInt8.ofNat 127 = 126 := by decide
      have h127 : UInt8.ofNat 127 = 127 := rfl
      have htop : n / 4294967296 = 0 := Nat.div_eq_of_lt hn
      rw [hs, hfield, if_neg h126, if_pos h127, if_neg h126, if_pos h127]
      refine ⟨rfl, ?_, ?_⟩
      · have hlen : [b₀, b₁].length ≤ 2 := Nat.le_refl 2
        rw [rdBe64_append_right hlen]
        exact rdBe64_be64_append hn l
      · rintro h₀ (h | ⟨-, h⟩)
        · exact h h₀
        · -- the upper half of the eight bytes is zero, as the length has 32 bits
          apply h
          have hlen : [b₀, b₁].length = 2 := rfl
          rw [be64, htop, List.append_assoc, window_field hlen (be32_length 0)]
          rfl

/-- A frame that was built is well formed, and its payload is found again. -/
theorem buildFrame_spec (info : WsFrameInfo) (hop : knownOpcode info.opcode = true) (rand : ℕ → UInt8)
    {payload : Bytes} (hlen : payload.length < 4294967296) :
    WellFormed (websocketBuildFrame info rand payload).1 ∧
      framePayload (websocketBuildFrame info rand payload).1 = payload ∧
      (frameInfo (websocketBuildFrame info rand payload).1).opcode = info.opcode ∧
      (frameInfo (websocketBuildFrame info rand payload).1).fin = info.fin ∧
      (frameInfo (websocketBuildFrame info rand payload).1).masking = info.masking := by
  obtain ⟨hrsv, hopcode, hfin⟩ := first_byte hop info.fin
  obtain ⟨hlow, hmask⟩ := small_byte _ (payloadLenSmall_lt payload.length) info.masking
  have heq := buildFrame_eq info rand payload
  generalize hf : (websocketBuildFrame info rand payload).1 = f at heq
  generalize (if info.fin = true then (0x80 : UInt8) else 0x00) ||| info.opcode = b₀ at *
  generalize (if info.masking = true then UInt8.ofNat (payloadLenSmall payload.length) ||| 0x80
    else UInt8.ofNat (payloadLenSmall payload.length) &&& 0x7F) = b₁ at *
  generalize hbody : (if info.masking = true then applyMask (randBytes rand 4) payload else payload) =
    body at heq
  have hblen : body.length = payload.length := by
    rw [← hbody]
    split
    · exact applyMask_length _ _
    · rfl
  -- what the header says about itself, then the fields that stand behind it
  obtain ⟨hpos, hpayload, hsound⟩ := header_built b₀ hlen hlow
    (maskField info.masking (randBytes rand 4) ++ body)
  rw [← heq] at hpos hpayload hsound
  have h0 : byteAt f 0 = b₀ := by rw [heq]; rfl
  have h1 : byteAt f 1 = b₁ := by rw [heq]; rfl
  have hmlen : (maskField info.masking (randBytes rand 4)).length =
      if byteAt f 1 &&& 0x80 = 0x80 then 4 else 0 := by
    simp only [h1, hmask, maskField]
    split <;> simp
  have hhead : headLen f = 2 + (payloadLenField payload.length).length +
      (maskField info.masking (randBytes rand 4)).length := by
    rw [headLen, hpos, hmlen]
  refine ⟨⟨hsound hrsv, ?_⟩, ?_, ?_, ?_, ?_⟩
  · rw [frameLen, hhead, hpayload, heq, List.length_append, List.length_append, List.length_append,
      hblen, List.length_cons, List.length_cons, List.length_nil]
    omega
  · have hwin : window f (headLen f) (payloadLen f) = body := by
      have hcat : f = ([b₀, b₁] ++ (payloadLenField payload.length ++
          maskField info.masking (randBytes rand 4))) ++ (body ++ []) := by
        rw [heq, List.append_nil, List.append_assoc, List.append_assoc]
      rw [hpayload, hhead]
      conv_lhs => rw [hcat]
      refine window_field ?_ hblen
      simp only [List.length_append, List.length_cons, List.length_nil]
      omega
    rw [framePayload, hwin]
    by_cases hm : info.masking = true
    · -- masking twice with one mask changes nothing
      have hwinm : window f (maskPos f) 4 = randBytes rand 4 := by
        have hcat : f = ([b₀, b₁] ++ payloadLenField payload.length) ++ (randBytes rand 4 ++ body) := by
          rw [heq, List.append_assoc, maskField, if_pos hm]
        rw [hpos]
        conv_lhs => rw [hcat]
        refine window_field ?_ (randBytes_length rand 4)
        simp only [List.length_append, List.length_cons, List.length_nil]
      rw [h1, if_pos (hmask.2 hm), hwinm, ← hbody, if_pos hm, applyMask_applyMask]
    · rw [h1, if_neg fun h => hm (hmask.1 h), ← hbody, if_neg hm]
  · rw [frameInfo, h0, hopcode]
  · rw [frameInfo, h0]
    cases hc : info.fin <;> simp [hfin, hc]
  · rw [frameInfo, h1]
    cases hc : info.masking <;> simp [hmask, hc]

/-- The frame of `tls_cli_send_websocket_data`. -/
def clientFrame (rand : ℕ → UInt8) (buf : Bytes) : Bytes :=
  (websocketBuildFrame (wsFrameBinaryAlone true ⟨WS_OPCODE_BINARY, true, true, 0, 0, 0⟩) rand buf).1

theorem clientFrame_spec (rand : ℕ → UInt8) {buf : Bytes} (hlen : buf.length < 4294967296) :
    WellFormed (clientFrame rand buf) ∧ framePayload (clientFrame rand buf) = buf := by
  obtain ⟨hform, hpayload, -⟩ := buildFrame_spec
    (wsFrameBinaryAlone true ⟨WS_OPCODE_BINARY, true, true, 0, 0, 0⟩) (by decide) rand hlen
  exact ⟨hform, hpayload⟩

end Built

end Websocket
end SsrNative
