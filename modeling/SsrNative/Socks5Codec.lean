import SsrNative.Client.S5Address

/-!
# Socks5Codec — the reader and the writer of addresses

`socks5_address_parse` is told how long the bytes are and how long the name is.  `socks5_address_size`
and `socks5_address_binary` look for the NUL behind the name.  `codec_iff` says for which bytes the three
agree.
-/

namespace SsrNative

open Bytes

/-! ## Headers -/

/-- `ntohs` of two bytes. -/
def portOf (p₀ p₁ : UInt8) : ℕ := p₀.toNat * 256 + p₁.toNat

/-- A complete header, type, address and port, and the address that it names. -/
inductive Header : Bytes → Socks5Address → Prop where
  | ipv4 {addr : Bytes} (p₀ p₁ : UInt8) (size : addr.length = 4) :
      Header (0x01 :: (addr ++ [p₀, p₁])) ⟨.ipv4, addr, portOf p₀ p₁⟩
  | domainname {name : Bytes} (len p₀ p₁ : UInt8) (size : name.length = len.toNat) :
      Header (0x03 :: len :: (name ++ [p₀, p₁])) ⟨.domainname, domainArray name, portOf p₀ p₁⟩
  | ipv6 {addr : Bytes} (p₀ p₁ : UInt8) (size : addr.length = 16) :
      Header (0x04 :: (addr ++ [p₀, p₁])) ⟨.ipv6, addr, portOf p₀ p₁⟩

/-- The bytes start with a complete header. -/
def StartsWithHeader (b : Bytes) : Prop := ∃ hdr a rest, b = hdr ++ rest ∧ Header hdr a

/-- If the bytes start with the header of a domain name, the name has no NUL. -/
def NameNulFree (b : Bytes) : Prop :=
  ∀ (len : UInt8) (name : Bytes) (p₀ p₁ : UInt8) (rest : Bytes),
    b = 0x03 :: len :: (name ++ p₀ :: p₁ :: rest) → name.length = len.toNat → (0 : UInt8) ∉ name

theorem be16_portOf (p₀ p₁ : UInt8) : be16 (portOf p₀ p₁) = [p₀, p₁] := by
  have h₀ := p₀.toNat_lt
  have h₁ := p₁.toNat_lt
  have hhigh : UInt8.ofNat (portOf p₀ p₁ / 256) = p₀ := by
    apply UInt8.toNat_inj.1
    rw [UInt8.toNat_ofNat', portOf]
    omega
  have hlow : UInt8.ofNat (portOf p₀ p₁) = p₁ := by
    apply UInt8.toNat_inj.1
    rw [UInt8.toNat_ofNat', portOf]
    omega
  rw [be16, hhigh, hlow]

theorem portOf_lt (p₀ p₁ : UInt8) : portOf p₀ p₁ < 65536 := by
  have h₀ := p₀.toNat_lt
  have h₁ := p₁.toNat_lt
  rw [portOf]
  omega

/-! ## Names in their array -/

/-- A name ends at a NUL whatever stands behind it. -/
theorem cString_append_zero (name l : Bytes) : cString (name ++ 0 :: l) = cString name := by
  by_cases hnul : (0 : UInt8) ∈ name
  · -- the name ends in front of that NUL
    rw [cString, cString, List.takeWhile_append, if_neg]
    intro hall
    have hsame : cString name = name := (cString_initial name).eq_of_length hall
    rw [← hsame] at hnul
    exact not_mem_cString name hnul
  · rw [cString_append hnul, cString_of_not_mem hnul]
    simp [cString]

theorem cString_domainArray {name : Bytes} (h : name.length < 256) :
    cString (domainArray name) = cString name := by
  have hpad : List.replicate (256 - name.length) (0 : UInt8) =
      0 :: List.replicate (256 - name.length - 1) 0 := by
    rw [← List.replicate_succ, Nat.sub_add_cancel (Nat.sub_pos_of_lt h)]
  rw [domainArray, hpad, cString_append_zero]

theorem cString_length_eq_iff (s : Bytes) : (cString s).length = s.length ↔ (0 : UInt8) ∉ s := by
  constructor
  · intro h
    rw [← (cString_initial s).eq_of_length h]
    exact not_mem_cString s
  · exact fun h => congrArg List.length (cString_of_not_mem h)

/-! ## What is read -/

section Read

variable {hdr rest : Bytes} {a : Socks5Address}

/-- A field of `n` bytes, with a port behind it. -/
theorem field_port {addr : Bytes} {n : ℕ} (size : addr.length = n) (p₀ p₁ : UInt8) (rest : Bytes) :
    (addr ++ [p₀, p₁] ++ rest).take n = addr ∧ (addr ++ [p₀, p₁] ++ rest).drop n = p₀ :: p₁ :: rest := by
  rw [List.append_assoc, ← size, List.take_left, List.drop_left]
  exact ⟨rfl, rfl⟩

theorem Header.parse (h : Header hdr a) (rest : Bytes) : socks5AddressParse (hdr ++ rest) = some a := by
  cases h with
  | ipv4 p₀ p₁ size =>
      rcases field_port size p₀ p₁ rest with ⟨haddr, hport⟩
      rw [List.cons_append, socks5AddressParse_ipv4 hport, haddr]
      rfl
  | domainname len p₀ p₁ size =>
      rcases field_port size p₀ p₁ rest with ⟨hname, hport⟩
      rw [List.cons_append, List.cons_append, socks5AddressParse_domainname hport, hname]
      rfl
  | ipv6 p₀ p₁ size =>
      rcases field_port size p₀ p₁ rest with ⟨haddr, hport⟩
      rw [List.cons_append, socks5AddressParse_ipv6 hport, haddr]
      rfl

/-- A field of `n` bytes and a port cut out of the front of `l`. -/
theorem exists_field_port {l : Bytes} {n : ℕ} (h : n + 2 ≤ l.length) :
    ∃ addr p₀ p₁ rest, l = addr ++ p₀ :: p₁ :: rest ∧ addr.length = n := by
  have hlen : 2 ≤ (l.drop n).length := by
    rw [List.length_drop]
    omega
  have htake : (l.take n).length = n := by
    rw [List.length_take]
    omega
  match hdrop : l.drop n, hlen with
  | p₀ :: p₁ :: rest, _ => exact ⟨l.take n, p₀, p₁, rest, by rw [← hdrop, List.take_append_drop], htake⟩

/-- Bytes that are long enough for their type start with a header. -/
theorem startsWithHeader_of_parse {b : Bytes} (h : socks5AddressParse b = some a) : StartsWithHeader b := by
  cases b with
  | nil => cases h
  | cons type l =>
      have htype : byteAt (type :: l) 0 = type := rfl
      rw [socks5AddressParse, if_neg (by simp), htype] at h
      by_cases h1 : type = 0x01
      · rw [if_pos h1] at h
        split_ifs at h with hlen
        rw [List.length_cons] at hlen
        rcases exists_field_port (l := l) (n := 4) (by omega) with ⟨addr, p₀, p₁, rest, rfl, size⟩
        exact ⟨_, _, rest, by simp [h1], .ipv4 p₀ p₁ size⟩
      rw [if_neg h1] at h
      by_cases h3 : type = 0x03
      · rw [if_pos h3] at h
        dsimp only at h
        split_ifs at h with hlen
        rw [List.length_cons] at hlen
        cases l with
        | nil => exact absurd hlen (by simp)
        | cons len l =>
            have hsecond : byteAt (type :: len :: l) 1 = len := rfl
            rw [List.length_cons, hsecond] at hlen
            rcases exists_field_port (l := l) (n := len.toNat) (by omega) with
              ⟨name, p₀, p₁, rest, rfl, size⟩
            exact ⟨_, _, rest, by simp [h3], .domainname len p₀ p₁ size⟩
      rw [if_neg h3] at h
      split_ifs at h with h4 hlen
      rw [List.length_cons] at hlen
      rcases exists_field_port (l := l) (n := 16) (by omega) with ⟨addr, p₀, p₁, rest, rfl, size⟩
      exact ⟨_, _, rest, by simp [h4], .ipv6 p₀ p₁ size⟩

/-- The reader accepts what starts with a header, and finds the address that the header names. -/
theorem socks5AddressParse_eq_some_iff {b : Bytes} :
    socks5AddressParse b = some a ↔ ∃ hdr rest, b = hdr ++ rest ∧ Header hdr a := by
  constructor
  · intro h
    rcases startsWithHeader_of_parse h with ⟨hdr, a', rest, rfl, hhdr⟩
    have hsame : a' = a := Option.some.inj ((hhdr.parse rest).symm.trans h)
    exact ⟨hdr, rest, rfl, hsame ▸ hhdr⟩
  · rintro ⟨hdr, rest, rfl, hhdr⟩
    exact hhdr.parse rest

theorem isSome_parse_iff (b : Bytes) : (socks5AddressParse b).isSome ↔ StartsWithHeader b := by
  simp only [Option.isSome_iff_exists, socks5AddressParse_eq_some_iff, StartsWithHeader]
  constructor
  · rintro ⟨a, hdr, rest, hb, hhdr⟩
    exact ⟨hdr, a, rest, hb, hhdr⟩
  · rintro ⟨hdr, a, rest, hb, hhdr⟩
    exact ⟨a, hdr, rest, hb, hhdr⟩

theorem Header.offset (h : Header hdr a) (rest : Bytes) : socks5AddressOffset (hdr ++ rest) = hdr.length := by
  cases h with
  | ipv4 p₀ p₁ size => simp [socks5AddressOffset, byteAt, size]
  | domainname len p₀ p₁ size =>
      simp [socks5AddressOffset, byteAt, size]
      omega
  | ipv6 p₀ p₁ size => simp [socks5AddressOffset, byteAt, size]

/-! ## What is written -/

/-- `strlen` finds the length of a name that has no NUL. -/
theorem size_domainname_iff {name : Bytes} {len : UInt8} (p₀ p₁ : UInt8) (size : name.length = len.toNat) :
    (⟨.domainname, domainArray name, portOf p₀ p₁⟩ : Socks5Address).size =
        (0x03 :: len :: (name ++ [p₀, p₁])).length ↔
      (0 : UInt8) ∉ name := by
  have hlt : name.length < 256 := size ▸ len.toNat_lt
  rw [← cString_length_eq_iff]
  simp only [Socks5Address.size, cString_domainArray hlt, List.length_cons, List.length_append, List.length_nil]
  omega

theorem Header.size_iff (h : Header hdr a) (rest : Bytes) : a.size = hdr.length ↔ NameNulFree (hdr ++ rest) := by
  cases h with
  | ipv4 p₀ p₁ size =>
      refine iff_of_true (by simp [Socks5Address.size, size]) ?_
      intro len name q₀ q₁ rest' hb
      exact absurd (List.cons.inj hb).1 (by decide)
  | domainname len p₀ p₁ size =>
      rename_i name
      refine (size_domainname_iff p₀ p₁ size).trans ⟨?_, ?_⟩
      · -- the bytes can be read as a header in one way only
        intro hnul len' name' q₀ q₁ rest' hb hsize
        simp only [List.cons_append, List.append_assoc, List.cons.injEq, true_and] at hb
        rcases hb with ⟨rfl, hb⟩
        rw [← (List.append_inj hb (size.trans hsize.symm)).1]
        exact hnul
      · intro hfree
        exact hfree len name p₀ p₁ rest (by simp) size
  | ipv6 p₀ p₁ size =>
      refine iff_of_true (by simp [Socks5Address.size, size]) ?_
      intro len name q₀ q₁ rest' hb
      exact absurd (List.cons.inj hb).1 (by decide)

/-- A header whose size is found is written as it was read. -/
theorem Header.binary_of_size (h : Header hdr a) (hsize : a.size = hdr.length) : a.binary = hdr := by
  cases h with
  | ipv4 p₀ p₁ size => simp [Socks5Address.binary, be16_portOf]
  | domainname len p₀ p₁ size =>
      rename_i name
      have hnul := (size_domainname_iff p₀ p₁ size).1 hsize
      have hname : cString (domainArray name) = name := by
        rw [cString_domainArray (size ▸ len.toNat_lt), cString_of_not_mem hnul]
      have hlen : UInt8.ofNat name.length = len := by rw [size, UInt8.ofNat_toNat]
      simp only [Socks5Address.binary, hname, be16_portOf, hlen]
      rfl
  | ipv6 p₀ p₁ size => simp [Socks5Address.binary, be16_portOf]

end Read

/-! ## The codec on memory -/

/-- `socks5_address_parse` accepts complete headers only and all of them, looks at the bytes in front of
`len` only, and the two other functions give back the length and the bytes of what it has read. -/
def CodecAgrees (data : ℕ → UInt8) (len : ℕ) : Prop :=
  ((socks5AddressParseAt data len).1.isSome ↔ StartsWithHeader (copyAt data 0 len)) ∧
    (∀ i ∈ (socks5AddressParseAt data len).2, i < len) ∧
    ∀ a, (socks5AddressParseAt data len).1 = some a →
      socks5AddressOffset (copyAt data 0 len) = a.size ∧
        a.binary = (copyAt data 0 len).take (socks5AddressOffset (copyAt data 0 len))

@[simp] theorem copyAt_length (data : ℕ → UInt8) (off n : ℕ) : (copyAt data off n).length = n := by
  simp [copyAt]

theorem byteAt_copyAt (data : ℕ → UInt8) (off n : ℕ) {i : ℕ} (h : i < n) :
    byteAt (copyAt data off n) i = data (off + i) := by
  simp [byteAt, copyAt, List.getD_eq_getElem?_getD, List.getElem?_range h]

theorem socks5AddressParseAt_copyAt (data : ℕ → UInt8) (len : ℕ) :
    (socks5AddressParseAt data len).1 = socks5AddressParse (copyAt data 0 len) := by
  have hdata : ∀ i < (copyAt data 0 len).length, data i = byteAt (copyAt data 0 len) i := by
    intro i hi
    rw [copyAt_length] at hi
    rw [byteAt_copyAt data 0 len hi, Nat.zero_add]
  have hfst := socks5AddressParseAt_fst hdata
  rwa [copyAt_length] at hfst

/-- What was accepted has the size and the binary form of the bytes that were read. -/
theorem reread_iff (b : Bytes) :
    (∀ a, socks5AddressParse b = some a →
        socks5AddressOffset b = a.size ∧ a.binary = b.take (socks5AddressOffset b)) ↔ NameNulFree b := by
  constructor
  · intro h len name p₀ p₁ rest hb size
    have hhdr := Header.domainname len p₀ p₁ size
    have hcat : b = 0x03 :: len :: (name ++ [p₀, p₁]) ++ rest := by simp [hb]
    have hsome := hhdr.parse rest
    rw [← hcat] at hsome
    have hoff := (h _ hsome).1
    rw [hcat, hhdr.offset rest] at hoff
    exact (size_domainname_iff p₀ p₁ size).1 hoff.symm
  · intro hfree a hsome
    rcases socks5AddressParse_eq_some_iff.1 hsome with ⟨hdr, rest, rfl, hhdr⟩
    have hsize := (hhdr.size_iff rest).2 hfree
    rw [hhdr.offset rest, List.take_left]
    exact ⟨hsize.symm, hhdr.binary_of_size hsize⟩

/-- The three functions agree on all bytes except a single byte that announces a name, and headers whose
name has a NUL; and a header that is written is read back. -/
theorem codec_iff (data : ℕ → UInt8) (len : ℕ) (a : Socks5Address) (l : Bytes) :
    (CodecAgrees data len ↔ ¬ (len = 1 ∧ data 0 = 0x03) ∧ NameNulFree (copyAt data 0 len)) ∧
      (a.WellFormed → socks5AddressParse (a.binary ++ l) = some a) := by
  refine ⟨?_, fun h => Socks5Address.parse_binary h l⟩
  rw [CodecAgrees, socks5AddressParseAt_copyAt, reads_lt_iff, reread_iff]
  exact and_iff_right (isSome_parse_iff _)

theorem codec_example :
    socks5AddressParse ((⟨.domainname, domainArray (ascii "a.b"), 443⟩ : Socks5Address).binary ++ [22, 3]) =
      some ⟨.domainname, domainArray (ascii "a.b"), 443⟩ :=
  (codec_iff (fun _ => 0) 0 ⟨.domainname, domainArray (ascii "a.b"), 443⟩ [22, 3]).2
    ⟨by decide, by decide, by decide +kernel⟩

/-- The length of a name is looked for behind the only byte, and a name with a NUL is written shorter than
it was read. -/
theorem codec_disagrees :
    ¬ CodecAgrees (fun _ => 0x03) 1 ∧
      ¬ CodecAgrees (byteAt [0x03, 3, 0x61, 0, 0x62, 0, 0x50]) 7 := by
  constructor
  · rintro ⟨-, hread, -⟩
    exact absurd (hread 1 (by decide)) (by decide)
  · rintro ⟨-, -, hagree⟩
    have hsize := (hagree _ rfl).1
    exact absurd hsize (by decide +kernel)

end SsrNative
