import SsrNative.Websocket
import SsrNative.Lib.ByteOrder
import SsrNative.SsrBuffer

/-!
# WebsocketMemory — frames in the memory of a host

The length of a frame is a number of the host that is swapped into the order of the network
(`_ws_hton`), and the parser is given no more than what has arrived.  `codec_on_host` is the round trip on
hosts of both orders, and `parser_stays_inside_iff` says for which bytes the parser looks at no others.
-/

namespace SsrNative
namespace Websocket

open Bytes
open Lib.ByteOrder
open Lib.Demand
open Lib.Demand.Demanding

/-! ## The order of the bytes -/

/-- Exchange two bytes. -/
def exchange (bytes : Bytes) (i j : ℕ) : Bytes := (bytes.set i (byteAt bytes j)).set j (byteAt bytes i)

/-- `WS_IS_LITTLE_ENDIAN`. -/
def wsIsLittleEndian (host : Order) : Bool := host.value [0, 1] >>> 8 != 0

/-- The loop of `_ws_hton`, for the first `mid` bytes. -/
def swapFirst (mem : Bytes) (mid : ℕ) : Bytes :=
  (List.range mid).foldl (fun bytes i => exchange bytes i (mem.length - i - 1)) mem

/-- `_ws_hton`. -/
def wsHton (host : Order) (mem : Bytes) : Bytes :=
  if wsIsLittleEndian host then
    if mem.length % 2 ≠ 0 then mem else swapFirst mem (mem.length / 2)
  else mem

/-- `ws_hton16`, `ws_hton32` and `ws_hton64` on numbers of `w` bytes, and the functions back. -/
def wsHtonNum (host : Order) (w n : ℕ) : ℕ := host.value (wsHton host (host.lay w n))

theorem byteAt_set (b : Bytes) (i j : ℕ) (x : UInt8) (hi : i < b.length) :
    byteAt (b.set j x) i = if i = j then x else byteAt b i := by
  rw [byteAt, byteAt, List.getD_eq_getElem?_getD, List.getD_eq_getElem?_getD, List.getElem?_set]
  by_cases h : i = j
  · subst h
    rw [if_pos rfl, if_pos hi, if_pos rfl]
    rfl
  · rw [if_neg (Ne.symm h), if_neg h]

@[simp] theorem exchange_length (b : Bytes) (i j : ℕ) : (exchange b i j).length = b.length := by
  simp [exchange]

theorem byteAt_exchange (b : Bytes) (i j k : ℕ) (hk : k < b.length) :
    byteAt (exchange b i j) k = if k = j then byteAt b i else if k = i then byteAt b j else byteAt b k := by
  rw [exchange, byteAt_set _ _ _ _ (by rwa [List.length_set]), byteAt_set _ _ _ _ hk]

theorem swapFirst_succ (mem : Bytes) (mid : ℕ) :
    swapFirst mem (mid + 1) = exchange (swapFirst mem mid) mid (mem.length - mid - 1) := by
  rw [swapFirst, List.range_succ, List.foldl_append]
  rfl

/-- After `mid` steps as many bytes at either end are where they belong. -/
theorem swapFirst_spec (mem : Bytes) (mid : ℕ) (hmid : 2 * mid ≤ mem.length) :
    (swapFirst mem mid).length = mem.length ∧
      ∀ k < mem.length, byteAt (swapFirst mem mid) k =
        byteAt mem (if k < mid ∨ mem.length - mid ≤ k then mem.length - 1 - k else k) := by
  induction mid with
  | zero =>
      refine ⟨rfl, fun k hk => ?_⟩
      rw [if_neg (by omega)]
      rfl
  | succ mid ih =>
      rcases ih (by omega) with ⟨hlen, hbyte⟩
      rw [swapFirst_succ]
      refine ⟨by rw [exchange_length, hlen], fun k hk => ?_⟩
      rw [byteAt_exchange _ _ _ _ (hlen ▸ hk), hbyte mid (by omega), hbyte _ (by omega), hbyte k hk]
      -- the two bytes of this step, and the bytes that it leaves alone
      by_cases hlast : k = mem.length - mid - 1
      · rw [if_pos hlast]
        congr 1
        split_ifs <;> omega
      · by_cases hfirst : k = mid
        · rw [if_neg hlast, if_pos hfirst]
          congr 1
          split_ifs <;> omega
        · rw [if_neg hlast, if_neg hfirst]
          congr 1
          split_ifs <;> omega

theorem swapFirst_half (mem : Bytes) (heven : mem.length % 2 = 0) :
    swapFirst mem (mem.length / 2) = mem.reverse := by
  rcases swapFirst_spec mem (mem.length / 2) (by omega) with ⟨hlen, hbyte⟩
  apply List.ext_getElem
  · rw [hlen, List.length_reverse]
  · intro k hk hk'
    have hlt : k < mem.length := hlen ▸ hk
    have hmirror : mem.length - 1 - k < mem.length := by omega
    have hval := hbyte k hlt
    rw [if_pos (by omega)] at hval
    rw [List.getElem_reverse]
    simpa [byteAt, List.getD_eq_getElem?_getD, List.getElem?_eq_getElem hk, List.getElem?_eq_getElem hmirror]
      using hval

/-- A number is laid out in the order of the network, on every host. -/
theorem wsHton_lay (host : Order) {w : ℕ} (heven : w % 2 = 0) (n : ℕ) :
    wsHton host (host.lay w n) = Order.big.lay w n := by
  cases host with
  | little =>
      have hlittle : wsIsLittleEndian .little = true := rfl
      have hlen : (Order.little.lay w n).length = w := Order.lay_length _ w n
      rw [wsHton, if_pos hlittle, hlen, if_neg (by omega)]
      have hswap := swapFirst_half (Order.little.lay w n) (by rw [hlen, heven])
      rw [hlen] at hswap
      exact hswap
  | big => rfl

theorem lay_wsHtonNum (host : Order) {w : ℕ} (heven : w % 2 = 0) (n : ℕ) :
    host.lay w (wsHtonNum host w n) = Order.big.lay w n := by
  rw [wsHtonNum, wsHton_lay host heven]
  exact host.lay_value_of_length (Order.lay_length _ w n)

/-- Bytes of the network are read as the number that they are, on every host. -/
theorem wsHtonNum_value (host : Order) (bytes : Bytes) (heven : bytes.length % 2 = 0) :
    wsHtonNum host bytes.length (host.value bytes) = Order.big.value bytes := by
  have hlay : host.lay bytes.length (host.value bytes) = bytes := host.lay_value bytes
  rw [wsHtonNum, hlay]
  cases host with
  | little =>
      have hlittle : wsIsLittleEndian .little = true := rfl
      rw [wsHton, if_pos hlittle, if_neg (by omega), swapFirst_half bytes heven]
      rfl
  | big => rfl

theorem big_lay_two (n : ℕ) : Order.big.lay 2 n = be16 n := rfl

theorem big_lay_eight (n : ℕ) : Order.big.lay 8 n = be64 n := by
  simp [Order.lay, Lib.Counter.leBytes, be64, be32, Nat.div_div_eq_div_mul]

theorem big_value_two (b : Bytes) (i : ℕ) : Order.big.value (window b i 2) = rdBe16 b i := by
  simp [Order.value, leValue, window, rdBe16, List.range_succ]
  omega

theorem big_value_eight (b : Bytes) (i : ℕ) : Order.big.value (window b i 8) = rdBe64 b i := by
  simp [Order.value, leValue, window, rdBe64, rdBe16, List.range_succ, Nat.add_assoc]
  omega

/-! ## Building -/

/-- `len_size`. -/
def lenSize (payloadLen : ℕ) : ℕ := if payloadLen ≤ 125 then 0 else if payloadLen ≤ 0xffff then 2 else 8

/-- `websocket_frame_size`. -/
def websocketFrameSize (masking : Bool) (payloadLen : ℕ) : ℕ :=
  let payloadOffset := 2 + lenSize payloadLen + if masking then 4 else 0
  payloadOffset + payloadLen

/-- `websocket_build_frame` on a host, write by write. -/
def websocketBuildFrameOn (host : Order) (info : WsFrameInfo) (rand : ℕ → UInt8) (payload : Bytes) :
    Bytes × WsFrameInfo :=
  let finNopcode := (if info.fin then 0x80 else 0x00) ||| info.opcode
  let payloadLen := payload.length
  let small := payloadLenSmall payloadLen
  let payloadOffset := 2 + lenSize payloadLen + if info.masking then 4 else 0
  let frameSize := payloadOffset + payloadLen
  let data := List.replicate frameSize 0
  let data := writeAt data 0 [finNopcode]
  let data :=
    if info.masking then writeAt data 1 [UInt8.ofNat small ||| 0x80]
    else writeAt data 1 [UInt8.ofNat small &&& 0x7F]
  let data := if small = 126 then writeAt data 2 (host.lay 2 (wsHtonNum host 2 payloadLen)) else data
  let data := if small = 127 then writeAt data 2 (host.lay 8 (wsHtonNum host 8 payloadLen)) else data
  let data := writeAt data payloadOffset payload
  let data :=
    if info.masking then
      let mask := randBytes rand 4
      let data := writeAt data (payloadOffset - 4) mask
      writeAt data payloadOffset (applyMask mask (window data payloadOffset payloadLen))
    else data
  (data, { info with frameSize := frameSize, payloadSize := payloadLen })

theorem payloadLenField_length (n : ℕ) : (payloadLenField n).length = lenSize n := by
  unfold payloadLenField lenSize
  split_ifs
  · rfl
  · rfl
  · rfl

/-- The length field that is written on a host. -/
theorem writeAt_lenField (host : Order) (n : ℕ) (a l : Bytes) (ha : a.length = 2) :
    (let data := a ++ (List.replicate (lenSize n) 0 ++ l)
     let data := if payloadLenSmall n = 126 then writeAt data 2 (host.lay 2 (wsHtonNum host 2 n)) else data
     if payloadLenSmall n = 127 then writeAt data 2 (host.lay 8 (wsHtonNum host 8 n)) else data) =
      a ++ (payloadLenField n ++ l) := by
  dsimp only
  rw [lay_wsHtonNum host rfl, lay_wsHtonNum host rfl, big_lay_two, big_lay_eight]
  unfold payloadLenSmall payloadLenField lenSize
  by_cases hone : n ≤ 125
  · simp only [hone, if_true]
    rw [if_neg (by omega), if_neg (by omega)]
    rfl
  · by_cases htwo : n ≤ 0xffff
    · simp only [hone, htwo, if_false, if_true]
      exact writeAt_field ha rfl
    · simp only [hone, htwo, if_false, if_true]
      exact writeAt_field ha rfl

theorem writeAt_header (b₀ b₁ : UInt8) (l : Bytes) :
    writeAt (writeAt ([0, 0] ++ l) 0 [b₀]) 1 [b₁] = [b₀, b₁] ++ l := by
  simp [writeAt]

/-- The zeros that the allocated frame starts as, field by field. -/
theorem replicate_fields (m k n : ℕ) :
    List.replicate (2 + m + k + n) (0 : UInt8) =
      [0, 0] ++ (List.replicate m 0 ++ (List.replicate k 0 ++ List.replicate n 0)) := by
  have htwo : [(0 : UInt8), 0] = List.replicate 2 0 := rfl
  rw [htwo, List.replicate_append_replicate, List.replicate_append_replicate, List.replicate_append_replicate,
    Nat.add_assoc, Nat.add_assoc]

/-- A payload is masked where it stands, and the mask is written in front of it. -/
theorem writeAt_masked (payload : Bytes) {hdr mask : Bytes} {off : ℕ} (hoff : hdr.length = off)
    (hmask : mask.length = 4) :
    (let data := hdr ++ (List.replicate 4 0 ++ List.replicate payload.length 0)
     let data := writeAt data (off + 4) payload
     let data := writeAt data (off + 4 - 4) mask
     writeAt data (off + 4) (applyMask mask (window data (off + 4) payload.length))) =
      hdr ++ (mask ++ applyMask mask payload) := by
  have hzeros : (hdr ++ List.replicate 4 0).length = off + 4 := by
    rw [List.length_append, hoff, List.length_replicate]
  have hfront : (hdr ++ mask).length = off + 4 := by rw [List.length_append, hoff, hmask]
  dsimp only
  rw [← List.append_assoc, writeAt_last hzeros List.length_replicate, Nat.add_sub_cancel, List.append_assoc,
    writeAt_field hoff (List.length_replicate.trans hmask.symm)]
  have hwin : window (hdr ++ (mask ++ payload)) (off + 4) payload.length = payload := by
    rw [← List.append_assoc, ← hfront, window_append_right (Nat.le_refl _), Nat.sub_self]
    exact window_eq_take (Nat.zero_add _).le |>.trans (List.take_length)
  rw [hwin, ← List.append_assoc, writeAt_last hfront (applyMask_length mask payload).symm, List.append_assoc]

/-- Every host builds the same frame. -/
theorem websocketBuildFrameOn_fst (host : Order) (info : WsFrameInfo) (rand : ℕ → UInt8) (payload : Bytes) :
    (websocketBuildFrameOn host info rand payload).1 = (websocketBuildFrame info rand payload).1 := by
  rw [buildFrame_eq]
  unfold websocketBuildFrameOn
  dsimp only
  generalize (if info.fin = true then (0x80 : UInt8) else 0x00) ||| info.opcode = b₀
  by_cases hmasking : info.masking = true
  · simp only [hmasking, if_true, maskField]
    generalize UInt8.ofNat (payloadLenSmall payload.length) ||| 0x80 = b₁
    have hlen := writeAt_lenField host payload.length [b₀, b₁]
      (List.replicate 4 0 ++ List.replicate payload.length 0) rfl
    have hhdr : ([b₀, b₁] ++ payloadLenField payload.length).length = 2 + lenSize payload.length := by
      rw [List.length_append, payloadLenField_length]
      rfl
    have hbody := writeAt_masked payload hhdr (randBytes_length rand 4)
    dsimp only at hlen hbody
    rw [replicate_fields, writeAt_header, hlen, ← List.append_assoc, hbody, List.append_assoc]
  · simp only [hmasking, Bool.false_eq_true, if_false, maskField]
    generalize UInt8.ofNat (payloadLenSmall payload.length) &&& 0x7F = b₁
    have hlen := writeAt_lenField host payload.length [b₀, b₁]
      (List.replicate 0 0 ++ List.replicate payload.length 0) rfl
    have hhdr : ([b₀, b₁] ++ payloadLenField payload.length).length = 2 + lenSize payload.length := by
      rw [List.length_append, payloadLenField_length]
      rfl
    dsimp only at hlen
    rw [replicate_fields, writeAt_header, hlen, ← List.append_assoc]
    have hzeros : (List.replicate payload.length (0 : UInt8)).length = payload.length := List.length_replicate
    rw [List.replicate_zero, List.nil_append, Nat.add_zero, writeAt_last hhdr hzeros, List.nil_append,
      List.append_assoc]

theorem buildFrame_length (info : WsFrameInfo) (rand : ℕ → UInt8) (payload : Bytes) :
    (websocketBuildFrame info rand payload).1.length = websocketFrameSize info.masking payload.length := by
  have hfield := payloadLenField_length payload.length
  rw [buildFrame_eq]
  unfold websocketFrameSize maskField
  cases info.masking with
  | true =>
      simp only [if_true, List.length_append, List.length_cons, List.length_nil, hfield, randBytes_length,
        applyMask_length]
      omega
  | false =>
      simp only [Bool.false_eq_true, if_false, List.length_append, List.length_cons, List.length_nil, hfield]
      omega

theorem websocketBuildFrameOn_snd (host : Order) (info : WsFrameInfo) (rand : ℕ → UInt8) (payload : Bytes) :
    (websocketBuildFrameOn host info rand payload).2 =
      { info with
        frameSize := websocketFrameSize info.masking payload.length
        payloadSize := payload.length } := rfl

/-! ## Reading -/

/-- The width of `size_t`. -/
inductive SizeT where
  | bits32
  | bits64

/-- What a `size_t` stays below. -/
def SizeT.limit : SizeT → ℕ
  | .bits32 => 2 ^ 32
  | .bits64 => 2 ^ 64

section Reader

variable (host : Order) (size : SizeT) (r : Region UInt8)

/-- `ws_ntoh16` and `ws_ntoh64` of a field. -/
def ntohField (off w : ℕ) : Demanding ℕ := do
  let field ← r.readSlice off w
  return wsHtonNum host w (host.value field)

/-- `memcpy(maskKey, data + off, 4)`, if there is a mask. -/
def readMaskKey (flagMask : Bool) (off : ℕ) : Demanding Bytes :=
  if flagMask then r.readSlice off 4 else pure (List.replicate 4 0)

/-- The end of `websocket_retrieve_payload`, when the length and the mask are known; `closeReason` is not
touched any more. -/
def unpack (info : WsFrameInfo) (maskKey : Bytes) (packageHeadLen len : ℕ) :
    Demanding (Option Bytes × WsFrameInfo) := do
  -- the sum is a `size_t`
  demand (packageHeadLen + len + 1) size.limit
  let info := { info with frameSize := (len + packageHeadLen) % size.limit, payloadSize := len }
  if r.cells.length < (packageHeadLen + len) % size.limit then return (none, info)
  else do
    let body ← r.readSlice packageHeadLen len
    return (some (if info.masking then applyMask maskKey body else body), info)

/-- `websocket_retrieve_payload` on the `dataLen` bytes that have arrived. -/
def websocketRetrievePayloadIn (info : WsFrameInfo) : Demanding (Option Bytes × WsFrameInfo) :=
  if r.cells.length < 2 then
    return (none, ⟨0, false, false, WS_CLOSE_REASON_UNEXPECTED_DATA, 0, 0⟩)
  else do
    let first ← r.read 0
    let opcode := first &&& 0x0F
    let reason := if knownOpcode opcode then WS_CLOSE_REASON_NORMAL else WS_CLOSE_REASON_UNEXPECTED_DATA
    let flagFIN := decide (first &&& 0x80 = 0x80)
    if first &&& 0x70 ≠ 0 then
      return (none, ⟨opcode, flagFIN, false, WS_CLOSE_REASON_UNEXPECTED_DATA, 0, 0⟩)
    else do
      let second ← r.read 1
      let flagMask := decide (second &&& 0x80 = 0x80)
      let count := if flagMask then 4 else 0
      let len := (second &&& 0x7F).toNat
      if len = 126 then
        if r.cells.length < 4 then return (none, info)
        else do
          let len ← ntohField host r 2 2
          let maskKey ← readMaskKey r flagMask 4
          unpack size r ⟨opcode, flagFIN, flagMask, reason, 0, 0⟩ maskKey (4 + count) len
      else if len = 127 then
        if r.cells.length < 10 then return (none, info)
        else do
          let high ← r.readSlice 2 4
          if host.value high ≠ 0 then
            return (none, ⟨opcode, flagFIN, flagMask, WS_CLOSE_REASON_TOO_BIG, 127, 127⟩)
          else do
            let len ← ntohField host r 2 8
            let maskKey ← readMaskKey r flagMask 10
            unpack size r ⟨opcode, flagFIN, flagMask, reason, 0, 0⟩ maskKey (10 + count) (len % size.limit)
      else do
        let maskKey ← readMaskKey r flagMask 2
        unpack size r ⟨opcode, flagFIN, flagMask, reason, 0, 0⟩ maskKey (2 + count) len

end Reader

/-! ## What the reader does -/

/-- The header has arrived up to its length, and is sound. -/
def LengthRead (data : Bytes) : Prop := maskPos data ≤ data.length ∧ ¬ Malformed data

section Spec

variable {host : Order} {size : SizeT} {r : Region UInt8}

theorem value_ntohField (host : Order) {off w : ℕ} (heven : w % 2 = 0) (h : off + w ≤ r.cells.length) :
    (ntohField host r off w).value = Order.big.value (window r.cells off w) := by
  have hlen : (window r.cells off w).length = w := window_length _ _ _
  have hread : (ntohField host r off w).value = wsHtonNum host w (host.value (window r.cells off w)) := by
    rw [← slice_eq_window h]
    rfl
  have hnum := wsHtonNum_value host (window r.cells off w) (by rw [hlen, heven])
  rw [hlen] at hnum
  rw [hread, hnum]

@[simp] theorem met_ntohField (host : Order) (off w : ℕ) :
    (ntohField host r off w).Met ↔ off + w ≤ r.cells.length := by
  simp [ntohField]

@[simp] theorem met_readMaskKey (flagMask : Bool) (off : ℕ) :
    (readMaskKey r flagMask off).Met ↔ (flagMask = true → off + 4 ≤ r.cells.length) := by
  cases flagMask with
  | true => simp [readMaskKey]
  | false => simp [readMaskKey]

/-- What is behind the sum is read when the sum is as large as it looks. -/
@[simp] theorem met_unpack (info : WsFrameInfo) (maskKey : Bytes) (packageHeadLen len : ℕ) :
    (unpack size r info maskKey packageHeadLen len).Met ↔ packageHeadLen + len < size.limit := by
  simp only [unpack, met_bind, met_demand, Nat.succ_le_iff, and_iff_left_iff_imp]
  intro hsum
  rw [Nat.mod_eq_of_lt hsum, met_ite]
  by_cases hshort : r.cells.length < packageHeadLen + len
  · rw [if_pos hshort]
    exact met_pure _
  · rw [if_neg hshort]
    simpa using hshort

theorem value_unpack {packageHeadLen len : ℕ} (hsum : packageHeadLen + len < size.limit) (info : WsFrameInfo)
    (maskKey : Bytes) :
    (unpack size r info maskKey packageHeadLen len).value =
      if r.cells.length < packageHeadLen + len then
        (none, { info with frameSize := packageHeadLen + len, payloadSize := len })
      else
        (some (if info.masking then applyMask maskKey (window r.cells packageHeadLen len)
          else window r.cells packageHeadLen len),
          { info with frameSize := packageHeadLen + len, payloadSize := len }) := by
  have hsum' : (len + packageHeadLen) % size.limit = packageHeadLen + len := by
    rw [Nat.add_comm, Nat.mod_eq_of_lt hsum]
  simp only [unpack, value_bind, hsum', Nat.mod_eq_of_lt hsum]
  rw [value_ite]
  by_cases hshort : r.cells.length < packageHeadLen + len
  · rw [if_pos hshort, if_pos hshort]
    rfl
  · have hslice := slice_eq_window (r := r) (Nat.not_lt.1 hshort)
    rw [if_neg hshort, if_neg hshort]
    simp only [value_bind, Region.value_readSlice, hslice]
    rfl

/-- The reader behind the two first bytes, the length and its field having been found. -/
def behindLength (size : SizeT) (r : Region UInt8) : Demanding (Option Bytes × WsFrameInfo) := do
  let maskKey ← readMaskKey r (frameInfo r.cells).masking (maskPos r.cells)
  unpack size r { frameInfo r.cells with frameSize := 0, payloadSize := 0 } maskKey (headLen r.cells)
    (payloadLen r.cells)

theorem count_eq (data : Bytes) (k : ℕ) (h : maskPos data = k) :
    k + (if decide (byteAt data 1 &&& 0x80 = 0x80) = true then 4 else 0) = headLen data := by
  simp only [headLen, h, decide_eq_true_eq]

/-- A length whose upper half is zero. -/
theorem rdBe64_lt {data : Bytes} (h : window data 2 4 = List.replicate 4 0) : rdBe64 data 2 < 2 ^ 32 := by
  simp only [window, List.range_succ, List.range_zero, List.nil_append, List.cons_append, List.map_cons,
    List.map_nil, List.replicate, List.cons.injEq, and_true] at h
  rcases h with ⟨h2, h3, h4, h5⟩
  have hlow := rdBe16_lt data (2 + 4)
  have hlow' := rdBe16_lt data (2 + 6)
  have hhigh : rdBe16 data 2 = 0 ∧ rdBe16 data 4 = 0 := by
    simp only [Nat.add_zero] at h2
    simp only [rdBe16, h2, h3, h4, h5]
    exact ⟨rfl, rfl⟩
  rw [rdBe64, hhigh.1, hhigh.2]
  omega

theorem limit_ge (size : SizeT) : 2 ^ 32 ≤ size.limit := by
  cases size with
  | bits32 => exact Nat.le_refl _
  | bits64 => exact Nat.pow_le_pow_right (by decide) (by decide)

/-- The four bytes in front of the length are compared with zero on the host. -/
theorem value_slice_eq_zero_iff (host : Order) (h : 2 + 4 ≤ r.cells.length) :
    host.value (r.slice 2 4) = 0 ↔ window r.cells 2 4 = List.replicate 4 0 := by
  rw [host.value_eq_zero_iff, Region.slice_length, slice_eq_window h]

theorem LengthRead.guards {data : Bytes} (h : LengthRead data) :
    ¬ data.length < 2 ∧ ¬ (byteAt data 1 &&& 0x7F = 126 ∧ data.length < 4) ∧
      ¬ (byteAt data 1 &&& 0x7F = 127 ∧ data.length < 10) := by
  have hpos := h.1
  refine ⟨?_, ?_, ?_⟩
  · rcases maskPos_mem data with hm | hm | hm <;> omega
  · rintro ⟨hc, hlen⟩
    have hfour : maskPos data = 4 := if_pos hc
    omega
  · rintro ⟨hd, hlen⟩
    have hne : ¬ (127 : UInt8) = 126 := by decide
    have hten : maskPos data = 10 := by rw [maskPos, hd, if_neg hne, if_pos rfl]
    omega

/-- The reader comes to the mask when the length has been read. -/
theorem retrieveIn_of_lengthRead (h : LengthRead r.cells) (info : WsFrameInfo) :
    ((websocketRetrievePayloadIn host size r info).Met ↔ (behindLength size r).Met) ∧
      (websocketRetrievePayloadIn host size r info).value = (behindLength size r).value := by
  rcases h with ⟨hpos, hsound⟩
  rw [Malformed, not_or, not_not] at hsound
  rcases hsound with ⟨hrsv, hhigh⟩
  have htwo : 2 ≤ r.cells.length := by
    rcases maskPos_mem r.cells with h | h | h <;> omega
  have h0 := get_eq_byteAt (r := r) (i := 0) (by omega)
  have h1 := get_eq_byteAt (r := r) (i := 1) (by omega)
  have h126 : (byteAt r.cells 1 &&& 0x7F).toNat = 126 ↔ byteAt r.cells 1 &&& 0x7F = 126 :=
    toNat_eq_iff _ 126 (by decide)
  have h127 : (byteAt r.cells 1 &&& 0x7F).toNat = 127 ↔ byteAt r.cells 1 &&& 0x7F = 127 :=
    toNat_eq_iff _ 127 (by decide)
  have hzero : 0 < r.cells.length := by omega
  have hone : 1 < r.cells.length := by omega
  rw [websocketRetrievePayloadIn, if_neg (Nat.not_lt.2 htwo)]
  simp only [met_bind, value_bind, Region.met_read, Region.value_read, h0, h1, hzero, hone, true_and, h126, h127,
    hrsv, ne_eq, not_true_eq_false, if_false]
  by_cases hc : byteAt r.cells 1 &&& 0x7F = 126
  · have hat : maskPos r.cells = 4 := if_pos hc
    have hlen : payloadLen r.cells = rdBe16 r.cells 2 := if_pos hc
    have hfield : 2 + 2 ≤ r.cells.length := by omega
    rw [if_pos hc, if_neg (by omega : ¬ r.cells.length < 4), behindLength, hat, hlen]
    simp only [met_bind, value_bind, met_ntohField, value_ntohField host (w := 2) rfl hfield,
      big_value_two, count_eq _ 4 hat, hfield, true_and]
    exact ⟨Iff.rfl, rfl⟩
  · by_cases hd : byteAt r.cells 1 &&& 0x7F = 127
    · have hat : maskPos r.cells = 10 := by rw [maskPos, if_neg hc, if_pos hd]
      have hlen : payloadLen r.cells = rdBe64 r.cells 2 := by rw [payloadLen, if_neg hc, if_pos hd]
      have hfield : 2 + 8 ≤ r.cells.length := by omega
      have hhalf : 2 + 4 ≤ r.cells.length := by omega
      have hhigh' : window r.cells 2 4 = List.replicate 4 0 := not_not.1 fun h => hhigh ⟨hd, h⟩
      have hmod : rdBe64 r.cells 2 % size.limit = rdBe64 r.cells 2 :=
        Nat.mod_eq_of_lt (Nat.lt_of_lt_of_le (rdBe64_lt hhigh') (limit_ge size))
      rw [if_neg hc, if_pos hd, if_neg (by omega : ¬ r.cells.length < 10), behindLength, hat, hlen]
      simp only [met_bind, value_bind, Region.met_readSlice, Region.value_readSlice, hhalf, true_and,
        (value_slice_eq_zero_iff host hhalf).2 hhigh', not_true_eq_false, if_false, met_ntohField,
        value_ntohField host (w := 8) rfl hfield, big_value_eight, hmod, count_eq _ 10 hat, hfield]
      exact ⟨Iff.rfl, rfl⟩
    · have hat : maskPos r.cells = 2 := by rw [maskPos, if_neg hc, if_neg hd]
      have hlen : payloadLen r.cells = (byteAt r.cells 1 &&& 0x7F).toNat := by
        rw [payloadLen, if_neg hc, if_neg hd]
      rw [if_neg hc, if_neg hd, behindLength, hat, hlen]
      simp only [met_bind, value_bind, count_eq _ 2 hat]
      exact ⟨Iff.rfl, rfl⟩

/-- In front of that nothing is read that has not arrived, and the answer is that of the other model. -/
theorem retrieveIn_of_not_lengthRead (h : ¬ LengthRead r.cells) (info : WsFrameInfo) :
    (websocketRetrievePayloadIn host size r info).Met ∧
      (websocketRetrievePayloadIn host size r info).value = websocketRetrievePayload r.cells info := by
  have h126 : (byteAt r.cells 1 &&& 0x7F).toNat = 126 ↔ byteAt r.cells 1 &&& 0x7F = 126 :=
    toNat_eq_iff _ 126 (by decide)
  have h127 : (byteAt r.cells 1 &&& 0x7F).toNat = 127 ↔ byteAt r.cells 1 &&& 0x7F = 127 :=
    toNat_eq_iff _ 127 (by decide)
  rw [retrieve_def]
  by_cases htwo : r.cells.length < 2
  · rw [websocketRetrievePayloadIn, if_pos htwo, if_pos htwo]
    exact ⟨met_pure _, rfl⟩
  have hzero : 0 < r.cells.length := by omega
  have hone : 1 < r.cells.length := by omega
  rw [websocketRetrievePayloadIn, if_neg htwo, if_neg htwo]
  simp only [met_bind, value_bind, Region.met_read, Region.value_read, get_eq_byteAt hzero, hzero, true_and]
  by_cases hrsv : byteAt r.cells 0 &&& 0x70 ≠ 0
  · rw [if_pos hrsv, if_pos hrsv]
    exact ⟨met_pure _, rfl⟩
  rw [if_neg hrsv, if_neg hrsv]
  simp only [met_bind, value_bind, Region.met_read, Region.value_read, get_eq_byteAt hone, hone, true_and, h126,
    h127]
  by_cases hc : byteAt r.cells 1 &&& 0x7F = 126
  · have hne : ¬ (126 : UInt8) = 127 := by decide
    have hshort : r.cells.length < 4 := by
      by_contra hlong
      refine h ⟨by rw [maskPos, if_pos hc]; omega, ?_⟩
      rintro (hm | ⟨hm, -⟩)
      · exact hrsv hm
      · exact hne (hc.symm.trans hm)
    rw [if_pos hc, if_pos hshort, if_pos ⟨hc, hshort⟩]
    exact ⟨met_pure _, rfl⟩
  have hnot : ¬ (byteAt r.cells 1 &&& 0x7F = 126 ∧ r.cells.length < 4) := fun hand => hc hand.1
  rw [if_neg hc, if_neg hnot]
  by_cases hd : byteAt r.cells 1 &&& 0x7F = 127
  · rw [if_pos hd]
    by_cases hshort : r.cells.length < 10
    · rw [if_pos hshort, if_pos ⟨hd, hshort⟩]
      exact ⟨met_pure _, rfl⟩
    · -- the upper half of the length is there, and is not zero
      have hhalf : 2 + 4 ≤ r.cells.length := by omega
      have hhigh : window r.cells 2 4 ≠ List.replicate 4 0 := by
        intro hz
        refine h ⟨by rw [maskPos, if_neg hc, if_pos hd]; omega, ?_⟩
        rintro (hm | ⟨-, hm⟩)
        · exact hrsv hm
        · exact hm hz
      have hvalue : host.value (r.slice 2 4) ≠ 0 := fun hz => hhigh ((value_slice_eq_zero_iff host hhalf).1 hz)
      have hnot' : ¬ (byteAt r.cells 1 &&& 0x7F = 127 ∧ r.cells.length < 10) := fun hand => hshort hand.2
      have htop : byteAt r.cells 1 &&& 0x7F = 127 ∧ window r.cells 2 4 ≠ List.replicate 4 0 := ⟨hd, hhigh⟩
      rw [if_neg hshort, if_neg hnot', if_pos htop]
      simp only [met_bind, value_bind, Region.met_readSlice, Region.value_readSlice, hhalf, true_and, ne_eq,
        hvalue, not_false_eq_true, if_true]
      exact ⟨met_pure _, rfl⟩
  · exfalso
    refine h ⟨by rw [maskPos, if_neg hc, if_neg hd]; omega, ?_⟩
    rintro (hm | ⟨hm, -⟩)
    · exact hrsv hm
    · exact hd hm

/-! ## Inside the bytes that have arrived -/

theorem met_behindLength :
    (behindLength size r).Met ↔
      (byteAt r.cells 1 &&& 0x80 = 0x80 → headLen r.cells ≤ r.cells.length) ∧
        headLen r.cells + payloadLen r.cells < size.limit := by
  simp only [behindLength, met_bind, met_readMaskKey, met_unpack, frameInfo, decide_eq_true_eq]
  refine and_congr_left fun _ => forall_congr' fun hmask => ?_
  rw [headLen, if_pos hmask]

/-- The answer is that of the other model, whatever stands behind the bytes. -/
theorem value_behindLength (hsum : headLen r.cells + payloadLen r.cells < size.limit) :
    (behindLength size r).value =
      if r.cells.length < frameLen r.cells then (none, frameInfo r.cells)
      else (some (framePayload r.cells), frameInfo r.cells) := by
  simp only [behindLength, value_bind]
  rw [value_unpack hsum, ← frameLen]
  by_cases hshort : r.cells.length < frameLen r.cells
  · rw [if_pos hshort, if_pos hshort]
    rfl
  rw [if_neg hshort, if_neg hshort]
  by_cases hmask : byteAt r.cells 1 &&& 0x80 = 0x80
  · have hhead : headLen r.cells = maskPos r.cells + 4 := by rw [headLen, if_pos hmask]
    have hle := headLen_le_frameLen r.cells
    have hkey : r.slice (maskPos r.cells) 4 = window r.cells (maskPos r.cells) 4 := slice_eq_window (by omega)
    simp only [framePayload, frameInfo, hmask, decide_true, if_true, readMaskKey, Region.value_readSlice, hkey,
      frameLen]
  · simp only [framePayload, frameInfo, hmask, decide_false, Bool.false_eq_true, if_false, frameLen]

theorem headLen_le (data : Bytes) : headLen data ≤ 14 := by
  unfold headLen
  rcases maskPos_mem data with h | h | h
  all_goals
    rw [h]
    split_ifs <;> omega

theorem payloadLen_lt {data : Bytes} (h : ¬ Malformed data) : payloadLen data < 2 ^ 32 := by
  unfold payloadLen
  split_ifs with hc hd
  · exact Nat.lt_of_lt_of_le (rdBe16_lt data 2) (by decide)
  · exact rdBe64_lt (not_not.1 fun hne => h (.inr ⟨hd, hne⟩))
  · exact Nat.lt_of_lt_of_le (UInt8.toNat_lt _) (by decide)

/-- On 64 bits the sum does not wrap around. -/
theorem sum_lt_bits64 (h : LengthRead r.cells) : headLen r.cells + payloadLen r.cells < SizeT.bits64.limit :=
  calc headLen r.cells + payloadLen r.cells
      ≤ 14 + payloadLen r.cells := Nat.add_le_add_right (headLen_le _) _
    _ < 14 + 2 ^ 32 := Nat.add_lt_add_left (payloadLen_lt h.2) 14
    _ ≤ SizeT.bits64.limit := by decide

/-- Where the sum does not wrap around, the reader answers as on a buffer of zeros. -/
theorem value_retrieveIn (hsum : LengthRead r.cells → headLen r.cells + payloadLen r.cells < size.limit)
    (info : WsFrameInfo) :
    (websocketRetrievePayloadIn host size r info).value = websocketRetrievePayload r.cells info := by
  by_cases h : LengthRead r.cells
  · rw [(retrieveIn_of_lengthRead h info).2, value_behindLength (hsum h)]
    by_cases hshort : r.cells.length < frameLen r.cells
    · rcases h.guards with ⟨h2, h4, h10⟩
      rw [if_pos hshort, retrieve_def, if_neg h2, if_neg fun hm => h.2 (.inl hm), if_neg h4, if_neg h10,
        if_neg fun hm => h.2 (.inr hm), if_pos hshort]
    · rw [if_neg hshort, retrieve_of_le h.2 (Nat.not_lt.1 hshort)]
  · exact (retrieveIn_of_not_lengthRead h info).2

/-- The parser reads nothing that has not arrived, the sum of the two lengths is what it is in ℕ, and a
payload is a part of its frame, which has arrived. -/
structure StaysInside (host : Order) (size : SizeT) (r : Region UInt8) (info : WsFrameInfo) : Prop where
  reads : (websocketRetrievePayloadIn host size r info).Met
  payload : ∀ p info', (websocketRetrievePayloadIn host size r info).value = (some p, info') →
    info'.frameSize ≤ r.cells.length ∧ p.length = info'.payloadSize ∧
      ∃ off maskKey, off + info'.payloadSize ≤ info'.frameSize ∧
        p = if info'.masking then applyMask maskKey (window r.cells off info'.payloadSize)
          else window r.cells off info'.payloadSize

theorem met_retrieveIn (host : Order) (size : SizeT) (r : Region UInt8) (info : WsFrameInfo) :
    (websocketRetrievePayloadIn host size r info).Met ↔
      (LengthRead r.cells →
        (byteAt r.cells 1 &&& 0x80 = 0x80 → headLen r.cells ≤ r.cells.length) ∧
          headLen r.cells + payloadLen r.cells < size.limit) := by
  by_cases h : LengthRead r.cells
  · rw [(retrieveIn_of_lengthRead h info).1, met_behindLength]
    exact ⟨fun hmet _ => hmet, fun hmet => hmet h⟩
  · exact iff_of_true (retrieveIn_of_not_lengthRead h info).1 fun hread => absurd hread h

theorem framePayload_length (data : Bytes) : (framePayload data).length = payloadLen data := by
  unfold framePayload
  dsimp only
  split_ifs
  · rw [applyMask_length, window_length]
  · exact window_length _ _ _

/-- The parser stays inside exactly when, once the length has arrived, the mask of a masked frame has arrived
too, and the header and the payload are not longer together than a `size_t` can say. -/
theorem parser_stays_inside_iff (host : Order) (size : SizeT) (r : Region UInt8) (info : WsFrameInfo) :
    StaysInside host size r info ↔
      (LengthRead r.cells →
        (byteAt r.cells 1 &&& 0x80 = 0x80 → maskPos r.cells + 4 ≤ r.cells.length) ∧
          headLen r.cells + payloadLen r.cells < size.limit) := by
  have hmask : (byteAt r.cells 1 &&& 0x80 = 0x80 → headLen r.cells ≤ r.cells.length) ↔
      (byteAt r.cells 1 &&& 0x80 = 0x80 → maskPos r.cells + 4 ≤ r.cells.length) :=
    forall_congr' fun h => by rw [headLen, if_pos h]
  rw [← hmask, ← met_retrieveIn host size r info]
  refine ⟨StaysInside.reads, fun hmet => ⟨hmet, fun p info' hvalue => ?_⟩⟩
  have hsum : LengthRead r.cells → headLen r.cells + payloadLen r.cells < size.limit :=
    fun h => ((met_retrieveIn host size r info).1 hmet h).2
  rw [value_retrieveIn hsum] at hvalue
  have hsome : (websocketRetrievePayload r.cells info).1 ≠ none := by
    rw [hvalue]
    exact Option.some_ne_none p
  rw [ne_eq, retrieve_eq_none_iff, not_or, Nat.not_lt] at hsome
  rw [retrieve_of_le hsome.1 hsome.2] at hvalue
  rcases hvalue with ⟨rfl, rfl⟩
  refine ⟨hsome.2, framePayload_length _, headLen r.cells, window r.cells (maskPos r.cells) 4, ?_, ?_⟩
  · exact Nat.le_refl _
  · simp only [framePayload, frameInfo, decide_eq_true_eq]

/-- Two bytes of a masked frame: its mask is looked for behind them.  And a length on 32 bits whose sum with
that of the header is ten. -/
theorem parser_leaves_bytes :
    ¬ StaysInside .little .bits64 ⟨[0x82, 0x80], fun _ => 0⟩ ⟨0, false, false, 0, 0, 0⟩ ∧
      ¬ StaysInside .little .bits32 ⟨[0x82, 127, 0, 0, 0, 0, 0xff, 0xff, 0xff, 0xff], fun _ => 0⟩
        ⟨0, false, false, 0, 0, 0⟩ := by
  constructor
  · intro h
    have hmask := ((met_retrieveIn _ _ _ _).1 h.reads ⟨by decide, by decide⟩).1 (by decide)
    exact absurd hmask (by decide)
  · intro h
    have hsum := ((met_retrieveIn _ _ _ _).1 h.reads ⟨by decide, by decide⟩).2
    exact absurd hsum (by decide)

/-! ## The round trip -/

/-- A frame that one host has built is read by another one as what it was built from, whatever stands behind
it, and no strict prefix of it is a frame. -/
theorem codec_on_host (builder reader : Order) (info : WsFrameInfo) (hop : knownOpcode info.opcode = true)
    (rand : ℕ → UInt8) {p : Bytes} (hlen : p.length < 2 ^ 32) (l : Bytes) (beyond : ℕ → UInt8)
    (info₀ : WsFrameInfo) :
    let built := websocketBuildFrameOn builder info rand p
    let retrieve := fun data => (websocketRetrievePayloadIn reader .bits64 ⟨data, beyond⟩ info₀).value
    (∃ info', retrieve (built.1 ++ l) = (some p, info') ∧ info'.opcode = info.opcode ∧ info'.fin = info.fin ∧
        info'.masking = info.masking ∧ info'.payloadSize = p.length ∧
        info'.frameSize = websocketFrameSize info.masking p.length ∧ info'.frameSize = built.2.frameSize) ∧
      ∀ n < built.1.length, (retrieve (built.1.take n)).1 = none := by
  intro built retrieve
  have hbuilt : built.1 = (websocketBuildFrame info rand p).1 := websocketBuildFrameOn_fst builder info rand p
  have hretrieve : ∀ data, retrieve data = websocketRetrievePayload data info₀ :=
    fun data => value_retrieveIn (fun h => sum_lt_bits64 h) info₀
  rcases buildFrame_spec info hop rand hlen with ⟨⟨hsound, hframe⟩, hpayload, hopcode, hfin, hmasking⟩
  have hsize := buildFrame_length info rand p
  rw [← hbuilt] at hsound hframe hpayload hopcode hfin hmasking hsize
  constructor
  · rcases frame_append hframe.le l with ⟨hsound', hframe', hpayload'⟩
    have htwo : 2 ≤ built.1.length := hframe ▸ (two_le_headLen _).trans (headLen_le_frameLen _)
    have hsize' : frameLen (built.1 ++ l) = websocketFrameSize info.masking p.length := by
      rw [← hframe', hframe, hsize]
    have h0 : byteAt (built.1 ++ l) 0 = byteAt built.1 0 := byteAt_append_left (by omega)
    have h1 : byteAt (built.1 ++ l) 1 = byteAt built.1 1 := byteAt_append_left (by omega)
    refine ⟨frameInfo (built.1 ++ l), ?_, ?_, ?_, ?_, ?_, hsize', hsize'⟩
    · rw [hretrieve, retrieve_of_le (mt hsound'.2 hsound), ← hpayload', hpayload]
      rw [← hframe', hframe, List.length_append]
      exact Nat.le_add_right _ _
    · rw [← hopcode, frameInfo, frameInfo, h0]
    · rw [← hfin, frameInfo, frameInfo, h0]
    · rw [← hmasking, frameInfo, frameInfo, h1]
    · calc payloadLen (built.1 ++ l)
          = (framePayload (built.1 ++ l)).length := (framePayload_length _).symm
        _ = p.length := by rw [← hpayload', hpayload]
  · intro n hn
    have hdrop : built.1.drop n ≠ [] := by simpa using hn
    have hform : WellFormed (built.1.take n ++ built.1.drop n) := by
      rw [List.take_append_drop]
      exact ⟨hsound, hframe⟩
    have hbegins := (begins_iff (built.1.take n)).1 ⟨built.1.drop n, hdrop, hform⟩
    rw [hretrieve, retrieve_eq_none_iff]
    exact .inr hbegins.2

/-- A text from a host of one order for a host of the other. -/
theorem codec_on_host_text :
    let built := websocketBuildFrameOn .little ⟨WS_OPCODE_TEXT, true, true, 0, 0, 0⟩ (fun i => UInt8.ofNat i)
      (ascii "hello")
    let retrieve := fun data =>
      (websocketRetrievePayloadIn .big .bits64 ⟨data, fun _ => 7⟩ ⟨0, false, false, 0, 0, 0⟩).value
    (∃ info', retrieve (built.1 ++ [1, 2]) = (some (ascii "hello"), info') ∧ info'.opcode = WS_OPCODE_TEXT ∧
        info'.fin = true ∧ info'.masking = true ∧ info'.payloadSize = (ascii "hello").length ∧
        info'.frameSize = websocketFrameSize true (ascii "hello").length ∧
        info'.frameSize = built.2.frameSize) ∧
      ∀ n < built.1.length, (retrieve (built.1.take n)).1 = none :=
  codec_on_host .little .big ⟨WS_OPCODE_TEXT, true, true, 0, 0, 0⟩ (by decide) (fun i => UInt8.ofNat i)
    (by decide) [1, 2] (fun _ => 7) ⟨0, false, false, 0, 0, 0⟩

end Spec

end Websocket
end SsrNative
