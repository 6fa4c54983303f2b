import SsrNative.Socks5Codec
import SsrNative.SsrBuffer
import SsrNative.Udp.Session

/-!
# Header — the address in front of a datagram

`udprelay_parse_header` and `socks5_address_parse` read the same header.  The first looks at the type
before it looks at the length, and the client calls it with the length of the datagram less three.
`headers_agree_iff` says for which datagrams nothing behind them is read and the two agree.
-/

namespace SsrNative
namespace Udp
namespace Header

open Bytes
open Lib.Demand Lib.Demand.Demanding
open Session

/-! ## The function -/

/-- What the pointers `host`, `port` and `storage` point to; `none` is `NULL`. -/
structure Pointers where
  host : Option Bytes
  port : Option Bytes
  storage : Option SockaddrUniversal

/-- A write through a pointer that may be `NULL`. -/
def through {σ : Type} (ptr : Option σ) (f : σ → Demanding σ) : Demanding (Option σ) :=
  ptr.elim (pure none) fun x => do
    let y ← f x
    return some y

section Function

/- `universal_address_from_string` and `uv_inet_ntop`; then the buffer and the length that is passed. -/
variable (lookup : Bytes → Option Ip) (inetNtop : Bytes → Bytes)
variable (r : Region UInt8) (buf bufLen : ℕ) (p : Pointers)

/-- The branches of IPv4 and IPv6, with the length of the address and how it is loaded. -/
def fixedAddress (size : ℕ) (load : Bytes → Ip) : Demanding (Pointers × ℕ) :=
  if size + 3 ≤ bufLen then do
    let storage ← through p.storage fun u => do
      let addr ← r.readSlice (buf + 1) size
      let port ← r.readSlice (buf + (1 + size)) 2
      return u.write ⟨load addr, readWord16 port 0⟩
    let host ← through p.host fun text => do
      let addr ← r.readSlice (buf + 1) size
      return writeAt text 0 (inetNtop addr ++ [0])
    return ({ p with storage := storage, host := host }, 1 + size)
  else return (p, 1)

def loadV4 (addr : Bytes) : Ip := .v4 (readWord32 addr 0)

def loadV6 (addr : Bytes) : Ip := .v6 (readWord64 addr 0) (readWord64 addr 8)

def domainName : Demanding (Pointers × ℕ) := do
  let len ← r.read (buf + 1)
  let nameLen := len.toNat
  if nameLen + 4 ≤ bufLen then
    let storage ← through p.storage fun u => do
      let name ← r.readSlice (buf + 2) nameLen
      (lookup (cString name)).elim (pure u) fun ip => do
        let port ← r.readSlice (buf + (2 + nameLen)) 2
        return u.write ⟨ip, readWord16 port 0⟩
    let host ← through p.host fun text => do
      let name ← r.readSlice (buf + 2) nameLen
      return writeAt text 0 name
    return ({ p with storage := storage, host := host }, 1 + (1 + nameLen))
  else return (p, 1)

/-- The branches by type; the offset stays 1 when the header is invalid. -/
def parseAddress : Demanding (Pointers × ℕ) := do
  let addrType ← r.read buf
  if addrType &&& ADDRTYPE_MASK = SOCKS5_ADDRTYPE_IPV4 then
    fixedAddress inetNtop r buf bufLen p 4 loadV4
  else if addrType &&& ADDRTYPE_MASK = SOCKS5_ADDRTYPE_DOMAINNAME then
    domainName lookup r buf bufLen p
  else if addrType &&& ADDRTYPE_MASK = SOCKS5_ADDRTYPE_IPV6 then
    fixedAddress inetNtop r buf bufLen p 16 loadV6
  else return (p, 1)

/-- `udprelay_parse_header(buf, buf_len, host, port, storage)`. -/
def udprelayParseHeader : Demanding (Pointers × ℕ) := do
  let found ← parseAddress lookup inetNtop r buf bufLen p
  if found.2 = 1 then return (found.1, 0)
  else
    let port ← through found.1.port fun text => do
      let word ← r.readSlice (buf + found.2) 2
      return writeAt text 0 (decimal (rdBe16 word 0) ++ [0])
    return ({ found.1 with port := port }, found.2 + 2)

end Function

/-! ## Inside the buffer -/

@[simp] theorem met_through {σ : Type} (ptr : Option σ) (f : σ → Demanding σ) :
    (through ptr f).Met ↔ ∀ x ∈ ptr, (f x).Met := by
  cases ptr with
  | none => simp [through]
  | some x => simp [through]

@[simp] theorem value_through {σ : Type} (ptr : Option σ) (f : σ → Demanding σ) :
    (through ptr f).value = ptr.map fun x => (f x).value := by
  cases ptr with
  | none => rfl
  | some x => rfl

theorem value_elim {σ : Type} (o : Option Ip) (x : Demanding σ) (f : Ip → Demanding σ) :
    (o.elim x f).value = o.elim x.value fun ip => (f ip).value := by
  cases o with
  | none => rfl
  | some ip => rfl

section Inside

variable {lookup : Bytes → Option Ip} {inetNtop : Bytes → Bytes}
variable {r : Region UInt8} {buf bufLen : ℕ} (p : Pointers)

/-- Part of a header that the length covers. -/
theorem slice_of_header (hend : buf + bufLen = r.cells.length) {i n : ℕ} (hi : i + n ≤ bufLen) :
    r.slice (buf + i) n = window (r.cells.drop buf) i n := by
  rw [slice_eq_window (by omega), window_drop]

theorem fixedAddress_short {size : ℕ} {load : Bytes → Ip} (h : ¬ size + 3 ≤ bufLen) :
    fixedAddress inetNtop r buf bufLen p size load = pure (p, 1) := if_neg h

theorem fixedAddress_long (inetNtop : Bytes → Bytes) (load : Bytes → Ip) (p : Pointers) {size : ℕ}
    (hend : buf + bufLen = r.cells.length) (h : size + 3 ≤ bufLen) :
    (fixedAddress inetNtop r buf bufLen p size load).Met ∧
      ∃ host, (fixedAddress inetNtop r buf bufLen p size load).value =
        (⟨host, p.port, p.storage.map fun u => u.write
          ⟨load (window (r.cells.drop buf) 1 size), readWord16 (r.cells.drop buf) (1 + size)⟩⟩, 1 + size) := by
  have hword : readWord16 (window (r.cells.drop buf) (1 + size) 2) 0 = readWord16 (r.cells.drop buf) (1 + size) := rfl
  rw [fixedAddress, if_pos h]
  constructor
  · simp only [met_bind, met_through, Region.met_readSlice, met_pure, and_true]
    refine ⟨fun _ _ => ⟨?_, ?_⟩, fun _ _ => ?_⟩
    all_goals omega
  · simp only [value_bind, value_through, Region.value_readSlice, value_pure,
      slice_of_header hend (show 1 + size ≤ bufLen by omega),
      slice_of_header hend (show 1 + size + 2 ≤ bufLen by omega), hword]
    exact ⟨_, rfl⟩

theorem domainName_met_iff (hend : buf + bufLen = r.cells.length) :
    (domainName lookup r buf bufLen p).Met ↔ 2 ≤ bufLen := by
  rw [domainName, met_bind, Region.met_read, met_ite]
  constructor
  · rintro ⟨hlen, -⟩
    omega
  · intro hlen
    refine ⟨by omega, ?_⟩
    split_ifs with hfits
    · rw [Region.value_read] at hfits ⊢
      simp only [met_bind, met_through, Region.met_readSlice, met_pure, and_true]
      refine ⟨fun u _ => ⟨by omega, ?_⟩, fun _ _ => by omega⟩
      cases lookup (cString (r.readSlice (buf + 2) (r.get (buf + 1)).toNat).value) with
      | none => exact met_pure _
      | some ip =>
          simp only [Option.elim_some, met_bind, Region.met_readSlice, met_pure, and_true]
          omega
    · exact met_pure _

theorem domainName_value (lookup : Bytes → Option Ip) (p : Pointers) (hend : buf + bufLen = r.cells.length) (hlen : 2 ≤ bufLen) :
    ∃ host, (domainName lookup r buf bufLen p).value =
      if (byteAt (r.cells.drop buf) 1).toNat + 4 ≤ bufLen then
        (⟨host, p.port, p.storage.map fun u =>
          (lookup (cString (window (r.cells.drop buf) 2 (byteAt (r.cells.drop buf) 1).toNat))).elim u fun ip =>
            u.write ⟨ip, readWord16 (r.cells.drop buf) (2 + (byteAt (r.cells.drop buf) 1).toNat)⟩⟩,
          1 + (1 + (byteAt (r.cells.drop buf) 1).toNat))
      else (p, 1) := by
  have hbyte : r.get (buf + 1) = byteAt (r.cells.drop buf) 1 := by
    rw [get_eq_byteAt (by omega), byteAt_drop]
  simp only [domainName, value_bind, Region.value_read, value_ite, value_pure, hbyte]
  generalize (byteAt (r.cells.drop buf) 1).toNat = nameLen
  have hword : readWord16 (window (r.cells.drop buf) (2 + nameLen) 2) 0 =
      readWord16 (r.cells.drop buf) (2 + nameLen) := rfl
  split_ifs with hfits
  · simp only [value_through, value_bind, Region.value_readSlice, value_elim, value_pure,
      slice_of_header hend (show 2 + nameLen ≤ bufLen by omega),
      slice_of_header hend (show 2 + nameLen + 2 ≤ bufLen by omega), hword]
    exact ⟨_, rfl⟩
  · exact ⟨none, rfl⟩

/-- Nothing outside of the buffer is read, and the function does what it does on the bytes alone. -/
structure RunsOnBytes (lookup : Bytes → Option Ip) (inetNtop : Bytes → Bytes) (r : Region UInt8)
    (buf bufLen : ℕ) (p : Pointers) : Prop where
  inside : (udprelayParseHeader lookup inetNtop r buf bufLen p).Met
  offset : ∀ u, (udprelayParseHeader lookup inetNtop r buf bufLen p).value.2 =
    (Session.udprelayParseHeader lookup (r.cells.drop buf) u).2
  stored : (udprelayParseHeader lookup inetNtop r buf bufLen p).value.1.storage =
    p.storage.map fun u => (Session.udprelayParseHeader lookup (r.cells.drop buf) u).1

/-- The rest of the function, when an address was found. -/
theorem runsOnBytes_of_found {q : Pointers} {n : ℕ} {f : SockaddrUniversal → SockaddrUniversal}
    (hend : buf + bufLen = r.cells.length) (hmet : (parseAddress lookup inetNtop r buf bufLen p).Met)
    (hvalue : (parseAddress lookup inetNtop r buf bufLen p).value = (q, n)) (hq : q.storage = p.storage.map f)
    (hn : n ≠ 1) (hfits : n + 2 ≤ bufLen)
    (hbytes : ∀ u, Session.udprelayParseHeader lookup (r.cells.drop buf) u = (f u, n + 2)) :
    RunsOnBytes lookup inetNtop r buf bufLen p := by
  constructor
  · rw [udprelayParseHeader, met_bind, hvalue, if_neg hn]
    refine ⟨hmet, ?_⟩
    simp only [met_bind, met_through, Region.met_readSlice, met_pure, and_true]
    intro _ _
    omega
  · intro u
    rw [hbytes, udprelayParseHeader, value_bind, hvalue, if_neg hn]
    rfl
  · simp only [hbytes]
    rw [← hq, udprelayParseHeader, value_bind, hvalue, if_neg hn]
    rfl

theorem runsOnBytes_of_not_found (hmet : (parseAddress lookup inetNtop r buf bufLen p).Met)
    (hvalue : (parseAddress lookup inetNtop r buf bufLen p).value = (p, 1))
    (hbytes : ∀ u, Session.udprelayParseHeader lookup (r.cells.drop buf) u = (u, 0)) :
    RunsOnBytes lookup inetNtop r buf bufLen p := by
  constructor
  · rw [udprelayParseHeader, met_bind, hvalue, if_pos rfl]
    exact ⟨hmet, met_pure _⟩
  · intro u
    rw [hbytes, udprelayParseHeader, value_bind, hvalue, if_pos rfl]
    rfl
  · simp only [hbytes, Option.map_id']
    rw [udprelayParseHeader, value_bind, hvalue, if_pos rfl]
    rfl

/-- A buffer that has a type, and the length of the name if it is to have one. -/
def Readable (b : Bytes) : Prop :=
  b ≠ [] ∧ ¬ (b.length = 1 ∧ byteAt b 0 &&& ADDRTYPE_MASK = SOCKS5_ADDRTYPE_DOMAINNAME)

theorem types_differ :
    SOCKS5_ADDRTYPE_DOMAINNAME ≠ SOCKS5_ADDRTYPE_IPV4 ∧ SOCKS5_ADDRTYPE_IPV6 ≠ SOCKS5_ADDRTYPE_IPV4 ∧
      SOCKS5_ADDRTYPE_IPV6 ≠ SOCKS5_ADDRTYPE_DOMAINNAME := by decide

theorem parseAddress_met_iff (hend : buf + bufLen = r.cells.length) :
    (parseAddress lookup inetNtop r buf bufLen p).Met ↔ Readable (r.cells.drop buf) := by
  have hlen : (r.cells.drop buf).length = bufLen := by
    rw [List.length_drop]
    omega
  have hnil : r.cells.drop buf ≠ [] ↔ 0 < bufLen := by
    rw [← hlen, List.length_pos_iff]
  have htype : byteAt (r.cells.drop buf) 0 = byteAt r.cells buf := byteAt_drop _ _ _
  rw [parseAddress, met_bind, Region.met_read, Readable, hnil, hlen, htype]
  constructor
  · rintro ⟨hread, hrest⟩
    refine ⟨by omega, ?_⟩
    rintro ⟨hone, hdomain⟩
    rw [Region.value_read, get_eq_byteAt hread, hdomain, if_neg types_differ.1, if_pos rfl,
      domainName_met_iff p hend] at hrest
    omega
  · rintro ⟨hpos, hname⟩
    have hread : buf < r.cells.length := by omega
    refine ⟨hread, ?_⟩
    rw [Region.value_read, get_eq_byteAt hread]
    have hfixed : ∀ {size load}, (fixedAddress inetNtop r buf bufLen p size load).Met := by
      intro size load
      by_cases hlong : size + 3 ≤ bufLen
      · exact (fixedAddress_long inetNtop load p hend hlong).1
      · rw [fixedAddress_short p hlong]
        exact met_pure _
    split_ifs with h4 h3 h6
    · exact hfixed
    · have hone : bufLen ≠ 1 := fun hone => hname ⟨hone, h3⟩
      exact (domainName_met_iff p hend).2 (by omega)
    · exact hfixed
    · exact met_pure _

/-- Which branch is taken. -/
theorem parseAddress_value (lookup : Bytes → Option Ip) (inetNtop : Bytes → Bytes) (bufLen : ℕ) (p : Pointers)
    (hbuf : buf < r.cells.length) :
    (parseAddress lookup inetNtop r buf bufLen p).value =
      if byteAt (r.cells.drop buf) 0 &&& ADDRTYPE_MASK = SOCKS5_ADDRTYPE_IPV4 then
        (fixedAddress inetNtop r buf bufLen p 4 loadV4).value
      else if byteAt (r.cells.drop buf) 0 &&& ADDRTYPE_MASK = SOCKS5_ADDRTYPE_DOMAINNAME then
        (domainName lookup r buf bufLen p).value
      else if byteAt (r.cells.drop buf) 0 &&& ADDRTYPE_MASK = SOCKS5_ADDRTYPE_IPV6 then
        (fixedAddress inetNtop r buf bufLen p 16 loadV6).value
      else (p, 1) := by
  have htype : r.get buf = byteAt (r.cells.drop buf) 0 := by
    rw [get_eq_byteAt hbuf, byteAt_drop, Nat.add_zero]
  simp only [parseAddress, value_bind, Region.value_read, value_ite, value_pure, htype]

/-- All cases of a buffer that can be read. -/
theorem runsOnBytes_of_readable (hend : buf + bufLen = r.cells.length) (hread : Readable (r.cells.drop buf)) :
    RunsOnBytes lookup inetNtop r buf bufLen p := by
  have hmet : (parseAddress lookup inetNtop r buf bufLen p).Met := (parseAddress_met_iff p hend).2 hread
  have hlen : (r.cells.drop buf).length = bufLen := by
    rw [List.length_drop]
    omega
  have hpos : 0 < bufLen := by
    rw [← hlen]
    exact List.length_pos_iff.2 hread.1
  have hvalue := parseAddress_value lookup inetNtop bufLen p (show buf < r.cells.length by omega)
  rcases types_differ with ⟨h34, h64, h63⟩
  by_cases h4 : byteAt (r.cells.drop buf) 0 &&& ADDRTYPE_MASK = SOCKS5_ADDRTYPE_IPV4
  · rw [if_pos h4] at hvalue
    by_cases hlong : 4 + 3 ≤ bufLen
    · rcases fixedAddress_long inetNtop loadV4 p hend hlong with ⟨-, host, hfound⟩
      refine runsOnBytes_of_found p hend hmet (hvalue.trans hfound) rfl (by decide) hlong fun u => ?_
      simp [Session.udprelayParseHeader, h4, hlen, hlong]
      rfl
    · rw [fixedAddress_short p hlong] at hvalue
      refine runsOnBytes_of_not_found p hmet hvalue fun u => ?_
      simp [Session.udprelayParseHeader, h4, hlen, hlong]
  rw [if_neg h4] at hvalue
  by_cases h3 : byteAt (r.cells.drop buf) 0 &&& ADDRTYPE_MASK = SOCKS5_ADDRTYPE_DOMAINNAME
  · have hone : bufLen ≠ 1 := fun hone => hread.2 ⟨hlen.trans hone, h3⟩
    rcases domainName_value lookup p hend (by omega) with ⟨host, hfound⟩
    rw [if_pos h3, hfound] at hvalue
    by_cases hlong : (byteAt (r.cells.drop buf) 1).toNat + 4 ≤ bufLen
    · rw [if_pos hlong] at hvalue
      refine runsOnBytes_of_found p hend hmet hvalue rfl (by omega) (by omega) fun u => ?_
      have hoff : ¬ 1 + (1 + (byteAt (r.cells.drop buf) 1).toNat) = 1 := by omega
      -- the storage is left alone when the name is not found
      cases hlook : lookup (cString (window (r.cells.drop buf) 2 (byteAt (r.cells.drop buf) 1).toNat)) with
      | none =>
          simp only [Session.udprelayParseHeader, h3, h34, hlen, hlong, hlook, hoff, if_true, if_false,
            Option.elim_none]
      | some ip =>
          simp only [Session.udprelayParseHeader, h3, h34, hlen, hlong, hlook, hoff, if_true, if_false,
            Option.elim_some]
    · rw [if_neg hlong] at hvalue
      refine runsOnBytes_of_not_found p hmet hvalue fun u => ?_
      simp [Session.udprelayParseHeader, h3, h34, hlen, hlong]
  rw [if_neg h3] at hvalue
  by_cases h6 : byteAt (r.cells.drop buf) 0 &&& ADDRTYPE_MASK = SOCKS5_ADDRTYPE_IPV6
  · rw [if_pos h6] at hvalue
    by_cases hlong : 16 + 3 ≤ bufLen
    · rcases fixedAddress_long inetNtop loadV6 p hend hlong with ⟨-, host, hfound⟩
      refine runsOnBytes_of_found p hend hmet (hvalue.trans hfound) rfl (by decide) hlong fun u => ?_
      simp [Session.udprelayParseHeader, h6, h64, h63, hlen, hlong]
      rfl
    · rw [fixedAddress_short p hlong] at hvalue
      refine runsOnBytes_of_not_found p hmet hvalue fun u => ?_
      simp [Session.udprelayParseHeader, h6, h64, h63, hlen, hlong]
  · rw [if_neg h6] at hvalue
    refine runsOnBytes_of_not_found p hmet hvalue fun u => ?_
    simp [Session.udprelayParseHeader, h4, h3, h6]

end Inside

/-! ## Addresses in memory -/

/-- The memory of a word of `n` bytes. -/
def memoryOf : ℕ → ℕ → Bytes
  | 0, _ => []
  | n + 1, w => UInt8.ofNat w :: memoryOf n (w / 256)

theorem memoryOf_wordLE (l : Bytes) : memoryOf l.length (Lib.Hash.wordLE l) = l := by
  induction l with
  | nil => rfl
  | cons x l ih =>
      have hx := x.toNat_lt
      have hword : Lib.Hash.wordLE (x :: l) = Lib.Hash.wordLE l * 256 + x.toNat := rfl
      have hfirst : UInt8.ofNat (Lib.Hash.wordLE (x :: l)) = x := by
        apply UInt8.toNat_inj.1
        rw [UInt8.toNat_ofNat', hword]
        omega
      have hrest : Lib.Hash.wordLE (x :: l) / 256 = Lib.Hash.wordLE l := by
        rw [hword]
        omega
      rw [List.length_cons, memoryOf, hfirst, hrest, ih]

theorem wordLE_lt (l : Bytes) : Lib.Hash.wordLE l < 256 ^ l.length := by
  induction l with
  | nil => decide
  | cons x l ih =>
      have hx := x.toNat_lt
      have hword : Lib.Hash.wordLE (x :: l) = Lib.Hash.wordLE l * 256 + x.toNat := rfl
      rw [List.length_cons, Nat.pow_succ, hword]
      omega

theorem memoryOf_readWord32 (b : Bytes) (i : ℕ) : memoryOf 4 (readWord32 b i).toNat = window b i 4 := by
  have hword : rdLe32 b i = Lib.Hash.wordLE (window b i 4) := by
    simp [rdLe32, rdLe16, Lib.Hash.wordLE, window, List.range_succ, Nat.add_assoc]
    omega
  have hlt : Lib.Hash.wordLE (window b i 4) < 2 ^ 32 := (wordLE_lt _).trans_eq (by rw [window_length]; rfl)
  rw [readWord32, hword, UInt32.toNat_ofNat', Nat.mod_eq_of_lt hlt]
  exact memoryOf_wordLE (window b i 4)

theorem memoryOf_readWord64 (b : Bytes) (i : ℕ) : memoryOf 8 (readWord64 b i).toNat = window b i 8 := by
  have hlt : Lib.Hash.wordLE (window b i 8) < 2 ^ 64 := (wordLE_lt _).trans_eq (by rw [window_length]; rfl)
  rw [readWord64, UInt64.toNat_ofNat', Nat.mod_eq_of_lt hlt]
  exact memoryOf_wordLE (window b i 8)

/-- `ntohs`. -/
def ntohs (w : UInt16) : ℕ := w.toNat % 256 * 256 + w.toNat / 256

theorem ntohs_readWord16 (b : Bytes) (i : ℕ) : ntohs (readWord16 b i) = rdBe16 b i := by
  have h₀ := (byteAt b i).toNat_lt
  have h₁ := (byteAt b (i + 1)).toNat_lt
  rw [ntohs, readWord16, UInt16.toNat_ofNat', rdLe16, rdBe16]
  omega

/-- `universal_address_to_socks5`. -/
def universalAddressToSocks5 (u : SockaddrUniversal) : Option Socks5Address :=
  if u.family = AF_INET then some ⟨.ipv4, memoryOf 4 u.word4.toNat, ntohs u.port⟩
  else if u.family = AF_INET6 then
    some ⟨.ipv6, memoryOf 8 u.word8.toNat ++ memoryOf 8 u.word16.toNat, ntohs u.port⟩
  else none

theorem universalAddressToSocks5_v4 (u : SockaddrUniversal) (addr : UInt32) (port : UInt16) :
    universalAddressToSocks5 (u.write ⟨.v4 addr, port⟩) = some ⟨.ipv4, memoryOf 4 addr.toNat, ntohs port⟩ := rfl

theorem universalAddressToSocks5_v6 (u : SockaddrUniversal) (hi lo : UInt64) (port : UInt16) :
    universalAddressToSocks5 (u.write ⟨.v6 hi lo, port⟩) =
      some ⟨.ipv6, memoryOf 8 hi.toNat ++ memoryOf 8 lo.toNat, ntohs port⟩ := rfl

/-! ## Agreement -/

section Agreement

variable {lookup : Bytes → Option Ip} {b : Bytes}

/-- A type whose bit 0x10 is clear is compared as a whole. -/
theorem masked_type (type : UInt8) : type &&& 0x10 = 0 → type &&& ADDRTYPE_MASK = type :=
  Lib.Hash.of_byte (P := fun type => type &&& 0x10 = 0 → type &&& ADDRTYPE_MASK = type) (by decide +kernel) type

/-- Both accept the same bytes, with the same length and the same address. -/
structure SameHeader (lookup : Bytes → Option Ip) (b : Bytes) (u : SockaddrUniversal) : Prop where
  found : (Session.udprelayParseHeader lookup b u).2 ≠ 0 ↔ (socks5AddressParse b).isSome
  offset : ∀ a, socks5AddressParse b = some a → (Session.udprelayParseHeader lookup b u).2 = socks5AddressOffset b
  stored : ∀ a, socks5AddressParse b = some a → a.addrType ≠ .domainname →
    universalAddressToSocks5 (Session.udprelayParseHeader lookup b u).1 = some a

theorem sameHeader_of_none {u : SockaddrUniversal} (hnone : socks5AddressParse b = none)
    (hzero : (Session.udprelayParseHeader lookup b u).2 = 0) : SameHeader lookup b u := by
  constructor
  · simp [hnone, hzero]
  · simp [hnone]
  · simp [hnone]

theorem sameHeader_of_some {u v : SockaddrUniversal} {a : Socks5Address} {n : ℕ}
    (hsome : socks5AddressParse b = some a) (hfound : Session.udprelayParseHeader lookup b u = (v, n + 2))
    (hoffset : n + 2 = socks5AddressOffset b)
    (hstored : a.addrType ≠ .domainname → universalAddressToSocks5 v = some a) : SameHeader lookup b u := by
  constructor
  · simp [hsome, hfound]
  · intro _ _
    rw [hfound, hoffset]
  · intro a' ha' htype
    rw [hsome, Option.some.injEq] at ha'
    rw [hfound, ← ha']
    exact hstored (ha' ▸ htype)

theorem sameHeader (hbit : byteAt b 0 &&& 0x10 = 0) (u : SockaddrUniversal) : SameHeader lookup b u := by
  have hmask := masked_type _ hbit
  have hempty : b.length = 0 → byteAt b 0 = 0 := by
    intro hzero
    rw [List.length_eq_zero_iff.1 hzero]
    rfl
  rcases types_differ with ⟨h34, h64, h63⟩
  by_cases h1 : byteAt b 0 = 0x01
  · have hsome : ¬ b.length = 0 := fun hzero => absurd ((hempty hzero).symm.trans h1) (by decide)
    have htype : byteAt b 0 &&& ADDRTYPE_MASK = SOCKS5_ADDRTYPE_IPV4 := hmask.trans h1
    by_cases hlong : 4 + 3 ≤ b.length
    · have hshort : ¬ b.length < 7 := Nat.not_lt.2 hlong
      refine sameHeader_of_some (v := u.write ⟨.v4 (readWord32 b 1), readWord16 b 5⟩) (n := 5)
        (a := ⟨.ipv4, window b 1 4, rdBe16 b 5⟩) ?_ ?_ ?_ fun _ => ?_
      · rw [socks5AddressParse, if_neg hsome, if_pos h1, if_neg hshort]
      · simp [Session.udprelayParseHeader, htype, hlong]
      · rw [socks5AddressOffset, if_pos h1]
      · rw [universalAddressToSocks5_v4, memoryOf_readWord32, ntohs_readWord16]
    · refine sameHeader_of_none ?_ ?_
      · rw [socks5AddressParse, if_neg hsome, if_pos h1, if_pos (Nat.not_le.1 hlong)]
      · simp [Session.udprelayParseHeader, htype, hlong]
  by_cases h3 : byteAt b 0 = 0x03
  · have hsome : ¬ b.length = 0 := fun hzero => absurd ((hempty hzero).symm.trans h3) (by decide)
    have htype : byteAt b 0 &&& ADDRTYPE_MASK = SOCKS5_ADDRTYPE_DOMAINNAME := hmask.trans h3
    by_cases hlong : (byteAt b 1).toNat + 4 ≤ b.length
    · have hshort : ¬ b.length < 2 + (byteAt b 1).toNat + 2 := by omega
      have hoff : ¬ 1 + (1 + (byteAt b 1).toNat) = 1 := by omega
      refine sameHeader_of_some (n := 1 + (1 + (byteAt b 1).toNat))
        (v := (lookup (cString (window b 2 (byteAt b 1).toNat))).elim u fun ip =>
          u.write ⟨ip, readWord16 b (2 + (byteAt b 1).toNat)⟩)
        (a := ⟨.domainname, domainArray (window b 2 (byteAt b 1).toNat), rdBe16 b (2 + (byteAt b 1).toNat)⟩)
        ?_ ?_ ?_ fun hname => absurd rfl hname
      · rw [socks5AddressParse, if_neg hsome, if_neg h1, if_pos h3]
        exact if_neg hshort
      · cases hlook : lookup (cString (window b 2 (byteAt b 1).toNat)) with
        | none =>
            simp only [Session.udprelayParseHeader, htype, h34, hlong, hlook, hoff, if_true, if_false,
              Option.elim_none]
        | some ip =>
            simp only [Session.udprelayParseHeader, htype, h34, hlong, hlook, hoff, if_true, if_false,
              Option.elim_some]
      · rw [socks5AddressOffset, if_neg h1, if_pos h3]
        omega
    · refine sameHeader_of_none ?_ ?_
      · rw [socks5AddressParse, if_neg hsome, if_neg h1, if_pos h3]
        exact if_pos (by omega)
      · simp [Session.udprelayParseHeader, htype, h34, hlong]
  by_cases h6 : byteAt b 0 = 0x04
  · have hsome : ¬ b.length = 0 := fun hzero => absurd ((hempty hzero).symm.trans h6) (by decide)
    have htype : byteAt b 0 &&& ADDRTYPE_MASK = SOCKS5_ADDRTYPE_IPV6 := hmask.trans h6
    by_cases hlong : 16 + 3 ≤ b.length
    · have hshort : ¬ b.length < 19 := Nat.not_lt.2 hlong
      refine sameHeader_of_some (v := u.write ⟨.v6 (readWord64 b 1) (readWord64 b 9), readWord16 b 17⟩) (n := 17)
        (a := ⟨.ipv6, window b 1 16, rdBe16 b 17⟩) ?_ ?_ ?_ fun _ => ?_
      · rw [socks5AddressParse, if_neg hsome, if_neg h1, if_neg h3, if_pos h6, if_neg hshort]
      · simp [Session.udprelayParseHeader, htype, h64, h63, hlong]
      · rw [socks5AddressOffset, if_neg h1, if_neg h3]
      · rw [universalAddressToSocks5_v6, memoryOf_readWord64, memoryOf_readWord64, ntohs_readWord16]
        rfl
    · refine sameHeader_of_none ?_ ?_
      · rw [socks5AddressParse, if_neg hsome, if_neg h1, if_neg h3, if_pos h6, if_pos (Nat.not_le.1 hlong)]
      · simp [Session.udprelayParseHeader, htype, h64, h63, hlong]
  · -- no other type is known to either
    refine sameHeader_of_none ?_ ?_
    · rw [socks5AddressParse]
      split_ifs
      all_goals rfl
    · have hother : ∀ {type}, byteAt b 0 ≠ type → ¬ byteAt b 0 &&& ADDRTYPE_MASK = type :=
        fun hne heq => hne (hmask.symm.trans heq)
      have h4 : ¬ byteAt b 0 &&& ADDRTYPE_MASK = SOCKS5_ADDRTYPE_IPV4 := hother h1
      have h3' : ¬ byteAt b 0 &&& ADDRTYPE_MASK = SOCKS5_ADDRTYPE_DOMAINNAME := hother h3
      have h6' : ¬ byteAt b 0 &&& ADDRTYPE_MASK = SOCKS5_ADDRTYPE_IPV6 := hother h6
      simp [Session.udprelayParseHeader, h4, h3', h6']

end Agreement

/-! ## The calls -/

/-- The header of a datagram behind `offset` bytes: 3 for the client, 0 for the server and for the answers
that the client receives. -/
def headerCall (lookup : Bytes → Option Ip) (inetNtop : Bytes → Bytes) (r : Region UInt8) (offset : ℕ)
    (p : Pointers) : Demanding (Pointers × ℕ) :=
  udprelayParseHeader lookup inetNtop r offset (subSize r.cells.length offset) p

/-- What `client_udp_listener_recv_cb` reads of a datagram: `frag` and the header.  `stack` is
`target_addr` as it is found on the stack. -/
def clientHeader (lookup : Bytes → Option Ip) (inetNtop : Bytes → Bytes) (r : Region UInt8)
    (stack : SockaddrUniversal) : Demanding (UInt8 × Pointers × ℕ) := do
  let frag ← r.read 2
  let header ← headerCall lookup inetNtop r 3 ⟨none, some (List.replicate 32 0), some stack⟩
  return (frag, header)

/-- The client reads its datagram safely if the header is there. -/
theorem clientHeader_met_iff (lookup : Bytes → Option Ip) (inetNtop : Bytes → Bytes) (r : Region UInt8)
    (stack : SockaddrUniversal) :
    (clientHeader lookup inetNtop r stack).Met ↔
      2 < r.cells.length ∧ (headerCall lookup inetNtop r 3 ⟨none, some (List.replicate 32 0), some stack⟩).Met := by
  rw [clientHeader, met_bind, met_bind, Region.met_read]
  exact and_congr_right fun _ => and_iff_left (met_pure _)

/-- Only the bytes of the datagram are read, and both parsers accept the same ones, with the same length
and the same address. -/
structure HeadersAgree (lookup : Bytes → Option Ip) (inetNtop : Bytes → Bytes) (r : Region UInt8)
    (offset : ℕ) (p : Pointers) : Prop where
  inside : (headerCall lookup inetNtop r offset p).Met
  found : (headerCall lookup inetNtop r offset p).value.2 ≠ 0 ↔ (socks5AddressParse (r.cells.drop offset)).isSome
  length : ∀ a, socks5AddressParse (r.cells.drop offset) = some a →
    (headerCall lookup inetNtop r offset p).value.2 = socks5AddressOffset (r.cells.drop offset)
  stored : ∀ a, socks5AddressParse (r.cells.drop offset) = some a → a.addrType ≠ .domainname →
    (headerCall lookup inetNtop r offset p).value.1.storage.bind universalAddressToSocks5 =
      p.storage.bind fun _ => some a

/-- The parsers agree on all headers but the empty one, for which the type is read, and a single byte that
announces a name, for which its length is. -/
theorem headers_agree_iff (lookup : Bytes → Option Ip) (inetNtop : Bytes → Bytes) (r : Region UInt8)
    (offset : ℕ) (p : Pointers) (hbit : byteAt r.cells offset &&& 0x10 = 0) :
    HeadersAgree lookup inetNtop r offset p ↔
      offset < r.cells.length ∧ ¬ (r.cells.length = offset + 1 ∧ byteAt r.cells offset = 0x03) := by
  have hbyte : byteAt (r.cells.drop offset) 0 = byteAt r.cells offset := byteAt_drop _ _ _
  have hmask := masked_type _ hbit
  constructor
  · rintro ⟨hinside, -, -, -⟩
    rw [headerCall, udprelayParseHeader, met_bind] at hinside
    have hread : offset < r.cells.length := by
      have htype := hinside.1
      rw [parseAddress, met_bind, Region.met_read] at htype
      exact htype.1
    have hend : offset + subSize r.cells.length offset = r.cells.length := by
      rw [subSize_of_le hread.le]
      omega
    refine ⟨hread, fun hone => ?_⟩
    refine ((parseAddress_met_iff p hend).1 hinside.1).2 ⟨?_, ?_⟩
    · rw [List.length_drop]
      omega
    · rw [hbyte, hmask]
      exact hone.2
  · rintro ⟨hread, hname⟩
    have hend : offset + subSize r.cells.length offset = r.cells.length := by
      rw [subSize_of_le hread.le]
      omega
    have hreadable : Readable (r.cells.drop offset) := by
      refine ⟨fun hnil => ?_, ?_⟩
      · rw [List.drop_eq_nil_iff] at hnil
        omega
      · rintro ⟨hone, htype⟩
        rw [List.length_drop] at hone
        rw [hbyte, hmask] at htype
        exact hname ⟨by omega, htype⟩
    have hruns : RunsOnBytes lookup inetNtop r offset _ p := runsOnBytes_of_readable p hend hreadable
    have hsame : ∀ u, SameHeader lookup (r.cells.drop offset) u := sameHeader (by rwa [hbyte])
    refine ⟨hruns.inside, ?_, fun a ha => ?_, fun a ha htype => ?_⟩
    · rw [headerCall, hruns.offset .zero]
      exact (hsame _).found
    · rw [headerCall, hruns.offset .zero]
      exact (hsame _).offset a ha
    · rw [headerCall, hruns.stored]
      cases p.storage with
      | none => rfl
      | some u => exact (hsame u).stored a ha htype

/-- A datagram of the client for 1.2.3.4:80. -/
theorem headers_agree_client :
    HeadersAgree (fun _ => none) (fun _ => []) ⟨[0, 0, 0, 0x01, 1, 2, 3, 4, 0, 80], fun _ => 0xff⟩ 3
      ⟨none, some (List.replicate 32 0), some .zero⟩ :=
  (headers_agree_iff _ _ _ 3 _ (by decide)).2 (by decide)

/-- The empty buffer; a single byte that announces a name; and a datagram of two bytes for the client. -/
theorem headers_read_behind :
    ¬ HeadersAgree (fun _ => none) (fun _ => []) ⟨[], fun _ => 0⟩ 0 ⟨none, none, none⟩ ∧
      ¬ HeadersAgree (fun _ => none) (fun _ => []) ⟨[0x03], fun _ => 0⟩ 0 ⟨none, none, none⟩ ∧
      ¬ HeadersAgree (fun _ => none) (fun _ => []) ⟨[0, 0], fun _ => 0⟩ 3
        ⟨none, some (List.replicate 32 0), some .zero⟩ := by
  refine ⟨fun h => ?_, fun h => ?_, fun h => ?_⟩
  · exact absurd h.inside (by decide)
  · exact absurd h.inside (by decide)
  · exact absurd h.inside (by decide)

end Header
end Udp
end SsrNative
