import SsrNative.Client.S5Messages
import SsrNative.Socks5Address

/-!
# S5Address — a request read twice

The client reads the address of a request with `socks5_address_parse` and then gives the same bytes to
`s5_parse`.  The first is called with `data + 3` and `size - 3` before anything is known about `size`;
the second reads a byte for a name of length zero.  `addresses_agree_iff` says for which bytes the two
find the same address and nothing behind the received bytes is read.
-/

namespace SsrNative

open Bytes

/-! ## The reader on memory -/

/-- `n` bytes from `off` on. -/
def copyAt (data : ℕ → UInt8) (off n : ℕ) : Bytes := (List.range n).map fun i => data (off + i)

/-- `ntohs` of the two bytes at `i`. -/
def portAt (data : ℕ → UInt8) (i : ℕ) : ℕ := (data i).toNat * 256 + (data (i + 1)).toNat

/-- `socks5_address_parse` on memory: the address, and the offsets that are read, in their order. -/
def socks5AddressParseAt (data : ℕ → UInt8) (len : ℕ) : Option Socks5Address × List ℕ :=
  if len = 0 then (none, [])
  else if data 0 = 0x01 then
    if len < 7 then (none, [0]) else (some ⟨.ipv4, copyAt data 1 4, portAt data 5⟩, List.range 7)
  else if data 0 = 0x03 then
    let addrSize := (data 1).toNat
    if len < 2 + addrSize + 2 then (none, [0, 1])
    else
      (some ⟨.domainname, domainArray (copyAt data 2 addrSize), portAt data (2 + addrSize)⟩,
        List.range (2 + addrSize + 2))
  else if data 0 = 0x04 then
    if len < 19 then (none, [0]) else (some ⟨.ipv6, copyAt data 1 16, portAt data 17⟩, List.range 19)
  else (none, [0])

section Memory

variable {data : ℕ → UInt8} {b : Bytes}

theorem copyAt_eq_window (h : ∀ i < b.length, data i = byteAt b i) {off n : ℕ} (hle : off + n ≤ b.length) :
    copyAt data off n = window b off n := by
  simp only [copyAt, window, List.map_inj_left, List.mem_range]
  intro i hi
  exact h (off + i) (by omega)

theorem portAt_eq_rdBe16 (h : ∀ i < b.length, data i = byteAt b i) {i : ℕ} (hle : i + 2 ≤ b.length) :
    portAt data i = rdBe16 b i := by
  rw [portAt, rdBe16, h i (by omega), h (i + 1) (by omega)]

/-- The address is the one of the bytes in front of `len`, whatever stands behind them. -/
theorem socks5AddressParseAt_fst (h : ∀ i < b.length, data i = byteAt b i) :
    (socks5AddressParseAt data b.length).1 = socks5AddressParse b := by
  unfold socks5AddressParseAt socks5AddressParse
  by_cases hnil : b.length = 0
  · rw [if_pos hnil, if_pos hnil]
  rw [if_neg hnil, if_neg hnil, h 0 (by omega)]
  by_cases h1 : byteAt b 0 = 0x01
  · rw [if_pos h1, if_pos h1]
    by_cases hlen : b.length < 7
    · rw [if_pos hlen, if_pos hlen]
    · rw [if_neg hlen, if_neg hlen, copyAt_eq_window h (by omega), portAt_eq_rdBe16 h (by omega)]
  rw [if_neg h1, if_neg h1]
  by_cases h3 : byteAt b 0 = 0x03
  · rw [if_pos h3, if_pos h3]
    by_cases hone : b.length = 1
    · -- the length of the name is not among the bytes, and too long whatever it is
      rw [if_pos (by omega), if_pos (by omega)]
    · rw [h 1 (by omega)]
      by_cases hlen : b.length < 2 + (byteAt b 1).toNat + 2
      · rw [if_pos hlen, if_pos hlen]
      · rw [if_neg hlen, if_neg hlen, copyAt_eq_window h (by omega), portAt_eq_rdBe16 h (by omega)]
  rw [if_neg h3, if_neg h3]
  by_cases h4 : byteAt b 0 = 0x04
  · rw [if_pos h4, if_pos h4]
    by_cases hlen : b.length < 19
    · rw [if_pos hlen, if_pos hlen]
    · rw [if_neg hlen, if_neg hlen, copyAt_eq_window h (by omega), portAt_eq_rdBe16 h (by omega)]
  · rw [if_neg h4, if_neg h4]

/-- The type is always read. -/
theorem zero_mem_reads {len : ℕ} (hlen : len ≠ 0) : 0 ∈ (socks5AddressParseAt data len).2 := by
  have hrange : ∀ n, 0 ∈ List.range (n + 1) := fun n => List.mem_range.2 (Nat.succ_pos n)
  unfold socks5AddressParseAt
  dsimp only
  rw [if_neg hlen]
  split_ifs
  all_goals first
    | exact List.mem_cons_self
    | exact hrange _

/-- The length of a name is read before there is a byte for it. -/
theorem reads_lt_iff (len : ℕ) :
    (∀ i ∈ (socks5AddressParseAt data len).2, i < len) ↔ ¬ (len = 1 ∧ data 0 = 0x03) := by
  have htype : (∀ i ∈ [0], i < len) ↔ 0 < len := by simp
  have hname : (∀ i ∈ [0, 1], i < len) ↔ 1 < len := by
    simp only [List.mem_cons, List.not_mem_nil, or_false, forall_eq_or_imp, forall_eq]
    omega
  have hrange : ∀ n, n ≤ len → ∀ i ∈ List.range n, i < len :=
    fun n hle i hi => Nat.lt_of_lt_of_le (List.mem_range.1 hi) hle
  unfold socks5AddressParseAt
  dsimp only
  by_cases hzero : len = 0
  · rw [if_pos hzero]
    simp [hzero]
  rw [if_neg hzero]
  have hpos : 0 < len := Nat.pos_of_ne_zero hzero
  by_cases h3 : data 0 = 0x03
  · have h1 : data 0 ≠ 0x01 := by rw [h3]; decide
    rw [if_neg h1, if_pos h3]
    -- `data[1]` is read before `len` is compared
    by_cases hlen : len < 2 + (data 1).toNat + 2
    · rw [if_pos hlen, hname]
      simp only [h3, and_true]
      omega
    · rw [if_neg hlen]
      refine iff_of_true (hrange _ (Nat.not_lt.1 hlen)) ?_
      omega
  · -- the other types compare `len` first
    simp only [h3, and_false, not_false_eq_true, if_false, iff_true]
    split_ifs with h1 hlen h4 hlen
    · exact htype.2 hpos
    · exact hrange 7 (Nat.not_lt.1 hlen)
    · exact htype.2 hpos
    · exact hrange 19 (Nat.not_lt.1 hlen)
    · exact htype.2 hpos

end Memory

/-! ## The reader on fields -/

/-- A field of `k` bytes behind a header, and the port behind it. -/
theorem window_rdBe16_of_drop (hd : Bytes) {l rest : Bytes} {k : ℕ} {p₀ p₁ : UInt8}
    (h : l.drop k = p₀ :: p₁ :: rest) :
    window (hd ++ l) hd.length k = l.take k ∧
      rdBe16 (hd ++ l) (hd.length + k) = p₀.toNat * 256 + p₁.toNat ∧ k + 2 ≤ l.length := by
  have hlen : (l.drop k).length = rest.length + 2 := congrArg List.length h
  rw [List.length_drop] at hlen
  have htake : (l.take k).length = k := by
    rw [List.length_take]
    omega
  have hcat : l = l.take k ++ p₀ :: p₁ :: rest := by rw [← h, List.take_append_drop]
  refine ⟨?_, ?_, by omega⟩
  · rw [window_append_right (Nat.le_refl _), Nat.sub_self, window_eq_take (by omega), List.drop_zero]
  · rw [rdBe16_append_right (Nat.le_add_right _ _), Nat.add_sub_cancel_left, hcat,
      rdBe16_append_right (by omega), htake, Nat.sub_self]
    rfl

theorem socks5AddressParse_ipv4 {l rest : Bytes} {p₀ p₁ : UInt8} (h : l.drop 4 = p₀ :: p₁ :: rest) :
    socks5AddressParse (0x01 :: l) = some ⟨.ipv4, l.take 4, p₀.toNat * 256 + p₁.toNat⟩ := by
  have hone : [(0x01 : UInt8)].length = 1 := rfl
  obtain ⟨hwin, hport, hlen⟩ := window_rdBe16_of_drop [0x01] h
  have htype : byteAt (0x01 :: l) 0 = 0x01 := rfl
  rw [hone, List.singleton_append] at hwin hport
  rw [socks5AddressParse, if_neg (by simp), htype, if_pos rfl, if_neg (by rw [List.length_cons]; omega), hwin,
    hport]

theorem socks5AddressParse_ipv6 {l rest : Bytes} {p₀ p₁ : UInt8} (h : l.drop 16 = p₀ :: p₁ :: rest) :
    socks5AddressParse (0x04 :: l) = some ⟨.ipv6, l.take 16, p₀.toNat * 256 + p₁.toNat⟩ := by
  have hone : [(0x04 : UInt8)].length = 1 := rfl
  obtain ⟨hwin, hport, hlen⟩ := window_rdBe16_of_drop [0x04] h
  have htype : byteAt (0x04 :: l) 0 = 0x04 := rfl
  rw [hone, List.singleton_append] at hwin hport
  rw [socks5AddressParse, if_neg (by simp), htype, if_neg (by decide), if_neg (by decide), if_pos rfl,
    if_neg (by rw [List.length_cons]; omega), hwin, hport]

theorem socks5AddressParse_domainname {len : UInt8} {l rest : Bytes} {p₀ p₁ : UInt8}
    (h : l.drop len.toNat = p₀ :: p₁ :: rest) :
    socks5AddressParse (0x03 :: len :: l) =
      some ⟨.domainname, domainArray (l.take len.toNat), p₀.toNat * 256 + p₁.toNat⟩ := by
  have htwo : [(0x03 : UInt8), len].length = 2 := rfl
  have hcat : [0x03, len] ++ l = 0x03 :: len :: l := rfl
  obtain ⟨hwin, hport, hlen⟩ := window_rdBe16_of_drop [0x03, len] h
  have htype : byteAt (0x03 :: len :: l) 0 = 0x03 := rfl
  have hsize : byteAt (0x03 :: len :: l) 1 = len := rfl
  rw [htwo, hcat] at hwin hport
  rw [socks5AddressParse, if_neg (by simp), htype, if_neg (by decide), if_pos rfl]
  dsimp only
  rw [hsize, if_neg (by rw [List.length_cons, List.length_cons]; omega), hwin, hport]

/-! ## The two calls -/

namespace S5

/-- What has been read from a client: the bytes, and what stands in the buffer behind them. -/
structure Received where
  bytes : Bytes
  stale : ℕ → UInt8
  size_lt : bytes.length < 2 ^ 64

def Received.memory (r : Received) (i : ℕ) : UInt8 :=
  if i < r.bytes.length then byteAt r.bytes i else r.stale (i - r.bytes.length)

/-- `size - 3` as a `size_t`. -/
def addressSize (size : ℕ) : ℕ := (size + 2 ^ 64 - 3) % 2 ^ 64

/-- `socks5_address_parse(data + 3, size - 3, …)` as `do_s5_handshake` and
`do_parse_s5_request_from_client_app` call it, with the offsets counted from `data` on. -/
def addressCall (r : Received) : Option Socks5Address × List ℕ :=
  let call := socks5AddressParseAt (fun i => r.memory (3 + i)) (addressSize r.bytes.length)
  (call.1, call.2.map (3 + ·))

/-- The two fields of `struct s5_ctx` and the port, as `struct socks5_address` holds them. -/
def heldAddress (atyp : Option Atyp) (addr : Bytes) (port : ℕ) : Option Socks5Address :=
  atyp.map fun
    | .ipv4 => ⟨.ipv4, addr, port⟩
    | .host => ⟨.domainname, domainArray addr, port⟩
    | .ipv6 => ⟨.ipv6, addr, port⟩

/-- The address that `s5_parse` has put into the context. -/
def Ctx.address (cx : Ctx) : Option Socks5Address :=
  heldAddress cx.atyp (cx.daddr.toList.take cx.arg1) cx.dport

/-- If the parser, without authentication, reads a request, the other reader has found the same address. -/
def AddressesAgree (cx : Ctx) (r : Received) : Prop :=
  (parse (selectAuth cx .none) r.bytes).2.2 = .execCmd →
    ∃ a, (addressCall r).1 = some a ∧ (parse (selectAuth cx .none) r.bytes).1.address = some a

/-- Nothing behind the received bytes is looked at. -/
def ReadsReceived (r : Received) : Prop := ∀ i ∈ (addressCall r).2, i < r.bytes.length

/-- In a complete request for the empty name the byte that is read for it and those of the port are
equal. -/
def NameRegular (l : Bytes) : Prop :=
  8 ≤ l.length → byteAt l 0 = 5 → command (byteAt l 1) ≠ none → byteAt l 3 = 0x03 → byteAt l 4 = 0 →
    byteAt l 5 = byteAt l 6 ∧ byteAt l 6 = byteAt l 7

/-! ## What is looked at -/

theorem addressSize_of_le {r : Received} (h : 3 ≤ r.bytes.length) :
    addressSize r.bytes.length = (r.bytes.drop 3).length := by
  have hlt := r.size_lt
  rw [List.length_drop, addressSize]
  omega

/-- Fewer than three bytes are taken for almost `2 ^ 64`. -/
theorem addressSize_ne_zero {r : Received} (h : ¬ 3 ≤ r.bytes.length) : addressSize r.bytes.length ≠ 0 := by
  rw [addressSize]
  omega

theorem readsReceived_iff_offsets (r : Received) :
    ReadsReceived r ↔
      ∀ i ∈ (socks5AddressParseAt (fun i => r.memory (3 + i)) (addressSize r.bytes.length)).2,
        3 + i < r.bytes.length := by
  rw [ReadsReceived, addressCall]
  simp only [List.mem_map, forall_exists_index, and_imp, forall_apply_eq_imp_iff₂]

theorem readsReceived_iff (r : Received) :
    ReadsReceived r ↔ 3 ≤ r.bytes.length ∧ ¬ (r.bytes.length = 4 ∧ byteAt r.bytes 3 = 0x03) := by
  rw [readsReceived_iff_offsets]
  by_cases h : 3 ≤ r.bytes.length
  · have hoff : ∀ i, 3 + i < r.bytes.length ↔ i < (r.bytes.drop 3).length := by
      intro i
      rw [List.length_drop]
      omega
    have hmem : r.bytes.length = 4 → r.memory (3 + 0) = byteAt r.bytes 3 := fun h4 =>
      if_pos (by omega)
    simp only [addressSize_of_le h, hoff, reads_lt_iff, h, true_and]
    refine not_congr (Iff.intro ?_ ?_)
    · rintro ⟨hone, htype⟩
      have h4 : r.bytes.length = 4 := by
        rw [List.length_drop] at hone
        omega
      exact ⟨h4, (hmem h4).symm.trans htype⟩
    · rintro ⟨h4, htype⟩
      exact ⟨by rw [List.length_drop, h4], (hmem h4).trans htype⟩
  · -- `size - 3` wraps around
    refine iff_of_false ?_ fun hc => h hc.1
    intro hread
    have hlt := hread 0 (zero_mem_reads (addressSize_ne_zero h))
    omega

theorem addressCall_fst {r : Received} (h : 3 ≤ r.bytes.length) :
    (addressCall r).1 = socks5AddressParse (r.bytes.drop 3) := by
  rw [addressCall, addressSize_of_le h]
  refine socks5AddressParseAt_fst ?_
  intro i hi
  rw [List.length_drop] at hi
  have hmem : r.memory (3 + i) = byteAt r.bytes (3 + i) := if_pos (by omega)
  rw [hmem]
  simp [byteAt, List.getD_eq_getElem?_getD, List.getElem?_drop]

/-! ## What is found -/

/-- The port of one call. -/
abbrev callPort : ℕ → UInt8 → UInt8 → ℕ := keptPort fun _ => false

theorem head_untilError (es : List Report) : (untilError es).head? = es.head? := by
  cases es with
  | nil => rfl
  | cons e es =>
      rw [untilError]
      split_ifs
      · rfl
      · rfl

/-- One call of the parser returns the first thing that the bytes say. -/
theorem head_requestMessage {cx : Ctx} (hstage : cx.stage = .reqVersion) (l : Bytes) :
    ∃ n, (requestMessage fieldWidth callPort 0 l).head? =
      if (parse cx l).2.2 = .needMore then none else some (report (parse cx l).1 n (parse cx l).2.2) := by
  have hevents : events (fun _ => .none) (fun _ => false) (cx, 0) 0 l =
      requestMessage fieldWidth callPort 0 l := events_requestMessage hstage 0 0 l
  have hloop := reportLoop_eq_run (fun _ => .none) (l.length + 1) cx 0 l (Nat.lt_succ_self _)
  rw [reportLoop_succ] at hloop
  have hbytes : byteEvents (fun _ => .none) (fun _ => false) (cx, 0) 0 l =
      (continueReport (fun _ => .none) l.length 0 l.length (parse cx l)).2 := (congrArg Prod.snd hloop).symm
  rw [← hevents, events, head_untilError, hbytes, continueReport]
  by_cases hmore : (parse cx l).2.2 = .needMore
  · exact ⟨0, by rw [if_pos hmore, if_pos hmore]; rfl⟩
  · exact ⟨_, by rw [if_neg hmore, if_neg hmore]; rfl⟩

/-- If a request is reported first, it has the address that has been found. -/
def ReportsFound (found : Option Socks5Address) (es : List Report) : Prop :=
  ∀ n cmd atyp addr port, es.head? = some (.execCmd n cmd atyp addr port) →
    ∃ a, found = some a ∧ heldAddress atyp addr port = some a

theorem addressesAgree_iff_reports (cx : Ctx) (r : Received) :
    AddressesAgree cx r ↔ ReportsFound (addressCall r).1 (requestMessage fieldWidth callPort 0 r.bytes) := by
  have hstage : (selectAuth cx .none).stage = .reqVersion := rfl
  obtain ⟨n, hhead⟩ := head_requestMessage hstage r.bytes
  rw [AddressesAgree, ReportsFound, hhead]
  rcases parse (selectAuth cx .none) r.bytes with ⟨cx', rest, result⟩
  dsimp only
  constructor
  · -- a request is reported first only if the parser returns one
    intro hagree m cmd atyp addr port hrep
    split_ifs at hrep with hmore
    cases result with
    | execCmd =>
        simp only [report, Option.some.injEq, Report.execCmd.injEq] at hrep
        obtain ⟨-, -, rfl, rfl, rfl⟩ := hrep
        exact hagree rfl
    | _ => simp [report] at hrep
  · intro hfound hexec
    subst hexec
    exact hfound n _ _ _ _ rfl

theorem reportsFound_nil (found : Option Socks5Address) : ReportsFound found [] := nofun

theorem reportsFound_error (found : Option Socks5Address) (n : ℕ) (r : Result) :
    ReportsFound found [.error n r] := nofun

theorem reportsFound_request (found : Option Socks5Address) (n : ℕ) (cmd : Option Cmd) (atyp : Atyp)
    (addr : Bytes) (port : ℕ) :
    ReportsFound found [.execCmd n cmd (some atyp) addr port] ↔ found = heldAddress (some atyp) addr port := by
  constructor
  · intro h
    obtain ⟨a, hfound, hheld⟩ := h _ _ _ _ _ rfl
    rw [hfound, hheld]
  · rintro rfl n' cmd' atyp' addr' port' hhead
    simp only [List.head?_cons, Option.some.injEq, Report.execCmd.injEq] at hhead
    obtain ⟨-, -, rfl, rfl, rfl⟩ := hhead
    exact ⟨_, rfl, rfl⟩

/-- An address of `k` bytes and the port, as both read them. -/
theorem reportsFound_addressPort {found : Option Socks5Address} {cmd : Cmd} {atyp : Atyp} {k n : ℕ} {l : Bytes}
    (h : ∀ p₀ p₁ rest, l.drop (fieldWidth k) = p₀ :: p₁ :: rest →
      found = heldAddress (some atyp) (l.take k) (p₀.toNat * 256 + p₁.toNat)) :
    ReportsFound found (addressPort fieldWidth callPort cmd atyp k n l) := by
  rw [addressPort]
  rcases hdrop : l.drop (fieldWidth k) with _ | ⟨p₀, _ | ⟨p₁, rest⟩⟩
  · exact reportsFound_nil found
  · exact reportsFound_nil found
  · exact (reportsFound_request _ _ _ _ _ _).2 (h p₀ p₁ rest hdrop)

/-- A name of length zero: the parser takes the byte behind the length, and reads the port after it. -/
theorem reportsFound_emptyName {cmd : Cmd} (l : Bytes) :
    ReportsFound (socks5AddressParse (0x03 :: 0 :: l)) (addressPort fieldWidth callPort cmd .host 0 5 l) ↔
      (3 ≤ l.length → byteAt l 0 = byteAt l 1 ∧ byteAt l 1 = byteAt l 2) := by
  match l with
  | [] => exact iff_of_true (reportsFound_nil _) nofun
  | [_] => exact iff_of_true (reportsFound_nil _) fun h => absurd h (by simp)
  | [_, _] => exact iff_of_true (reportsFound_nil _) fun h => absurd h (by simp)
  | b₀ :: b₁ :: b₂ :: l =>
      have hreport : addressPort fieldWidth callPort cmd .host 0 5 (b₀ :: b₁ :: b₂ :: l) =
          [.execCmd 8 (some cmd) (some .host) [] (b₁.toNat * 256 + b₂.toNat)] := rfl
      have hfound : socks5AddressParse (0x03 :: 0 :: b₀ :: b₁ :: b₂ :: l) =
          some ⟨.domainname, domainArray [], b₀.toNat * 256 + b₁.toNat⟩ := socks5AddressParse_domainname rfl
      have hlong : 3 ≤ (b₀ :: b₁ :: b₂ :: l).length := by simp
      have h₀ : byteAt (b₀ :: b₁ :: b₂ :: l) 0 = b₀ := rfl
      have h₁ : byteAt (b₀ :: b₁ :: b₂ :: l) 1 = b₁ := rfl
      have h₂ : byteAt (b₀ :: b₁ :: b₂ :: l) 2 = b₂ := rfl
      -- the parser takes `b₀` for the name; the other reader has it as the first byte of the port
      have hport : b₀.toNat * 256 + b₁.toNat = b₁.toNat * 256 + b₂.toNat ↔ b₀ = b₁ ∧ b₁ = b₂ := by
        have hlt₁ := b₁.toNat_lt
        have hlt₂ := b₂.toNat_lt
        rw [← UInt8.toNat_inj, ← UInt8.toNat_inj]
        omega
      rw [hreport, reportsFound_request, hfound, h₀, h₁, h₂, ← hport]
      simp only [heldAddress, Option.map_some, Option.some.injEq, Socks5Address.mk.injEq, true_and, hlong,
        true_implies]

/-- The two read the same behind a version byte, a command and a reserved byte, the empty name apart. -/
theorem reportsFound_atyp (cmd : Cmd) (atyp : UInt8) (l : Bytes) :
    ReportsFound (socks5AddressParse (atyp :: l))
        (match atyp.toNat with
          | 1 => addressPort fieldWidth callPort cmd .ipv4 4 4 l
          | 3 =>
              match l with
              | [] => []
              | len :: l => addressPort fieldWidth callPort cmd .host len.toNat 5 l
          | 4 => addressPort fieldWidth callPort cmd .ipv6 16 4 l
          | _ => [.error 4 .badAtyp]) ↔
      (4 ≤ l.length → atyp = 0x03 → byteAt l 0 = 0 → byteAt l 1 = byteAt l 2 ∧ byteAt l 2 = byteAt l 3) := by
  have hother : atyp.toNat ≠ 3 → atyp ≠ 0x03 := fun hne h => hne (congrArg UInt8.toNat h)
  match htype : atyp.toNat with
  | 1 =>
      have hatyp : atyp = 0x01 := UInt8.toNat_inj.1 htype
      -- the width of the parser is that of the standard
      refine iff_of_true ?_ fun _ h => absurd h (hother (by omega))
      refine reportsFound_addressPort fun p₀ p₁ rest hdrop => ?_
      rw [hatyp]
      exact socks5AddressParse_ipv4 hdrop
  | 4 =>
      have hatyp : atyp = 0x04 := UInt8.toNat_inj.1 htype
      refine iff_of_true ?_ fun _ h => absurd h (hother (by omega))
      refine reportsFound_addressPort fun p₀ p₁ rest hdrop => ?_
      rw [hatyp]
      exact socks5AddressParse_ipv6 hdrop
  | 3 =>
      have hatyp : atyp = 0x03 := UInt8.toNat_inj.1 htype
      subst hatyp
      cases l with
      | nil => exact iff_of_true (reportsFound_nil _) nofun
      | cons len l =>
          dsimp only
          by_cases hlen : len = 0
          · subst hlen
            refine (reportsFound_emptyName l).trans ?_
            simp [byteAt]
          · have hwidth : fieldWidth len.toNat = len.toNat :=
              fieldWidth_of_ne fun h => hlen (UInt8.toNat_inj.1 h)
            refine iff_of_true ?_ fun _ _ h => absurd h hlen
            refine reportsFound_addressPort fun p₀ p₁ rest hdrop => ?_
            rw [hwidth] at hdrop
            exact socks5AddressParse_domainname hdrop
  | 0 => exact iff_of_true (reportsFound_error _ _ _) fun _ h => absurd h (hother (by omega))
  | 2 => exact iff_of_true (reportsFound_error _ _ _) fun _ h => absurd h (hother (by omega))
  | m + 5 => exact iff_of_true (reportsFound_error _ _ _) fun _ h => absurd h (hother (by omega))

theorem reportsFound_requestMessage (l : Bytes) :
    ReportsFound (socks5AddressParse (l.drop 3)) (requestMessage fieldWidth callPort 0 l) ↔ NameRegular l := by
  have hshort : l.length < 8 → NameRegular l := fun hlt hle => absurd hle (Nat.not_le.2 hlt)
  match l with
  | [] => exact iff_of_true (reportsFound_nil _) (hshort (by decide))
  | ver :: l =>
      unfold requestMessage
      dsimp only
      by_cases hver : ver ≠ 5
      · rw [if_pos hver]
        exact iff_of_true (reportsFound_error _ _ _) fun _ h => absurd h hver
      rw [if_neg hver]
      match l with
      | [] => exact iff_of_true (reportsFound_nil _) (hshort (by simp))
      | c :: l =>
          dsimp only
          cases hcmd : command c with
          | none => exact iff_of_true (reportsFound_error _ _ _) fun _ _ h => absurd hcmd h
          | some cmd =>
              match l with
              | [] => exact iff_of_true (reportsFound_nil _) (hshort (by simp))
              | [_] => exact iff_of_true (reportsFound_nil _) (hshort (by simp))
              | rsv :: atyp :: l =>
                  refine (reportsFound_atyp cmd atyp l).trans ?_
                  simp [NameRegular, byteAt, not_not.1 hver, hcmd]

/-- Both readers find the same address and look at nothing that was not received, exactly for those
bytes. -/
theorem addresses_agree_iff (cx : Ctx) (r : Received) :
    AddressesAgree cx r ∧ ReadsReceived r ↔
      NameRegular r.bytes ∧ 3 ≤ r.bytes.length ∧ ¬ (r.bytes.length = 4 ∧ byteAt r.bytes 3 = 0x03) := by
  rw [readsReceived_iff]
  refine and_congr_left ?_
  rintro ⟨hlen, -⟩
  rw [addressesAgree_iff_reports, addressCall_fst hlen, reportsFound_requestMessage]

/-- One byte is received, and the type of the address looked for behind it; a request for the empty name
has two ports. -/
theorem empty_name_two_ports :
    ¬ ReadsReceived ⟨[5], fun _ => 0, by decide⟩ ∧
      ¬ AddressesAgree ctxCreate ⟨[5, 1, 0, 3, 0, 0, 80, 1], fun _ => 0, by decide⟩ := by
  constructor
  · rw [readsReceived_iff]
    exact fun h => absurd h.1 (by decide)
  · have hlong : 3 ≤ [(5 : UInt8), 1, 0, 3, 0, 0, 80, 1].length := by decide
    rw [addressesAgree_iff_reports, addressCall_fst hlong, reportsFound_requestMessage]
    intro h
    have hports := (h (by decide) rfl (by decide) rfl rfl).1
    exact absurd hports (by decide)

end S5
end SsrNative
