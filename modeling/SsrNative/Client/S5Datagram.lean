import SsrNative.Client.UdpTunnel
import SsrNative.Socks5Codec

/-!
# S5Datagram — datagrams of SOCKS5

`s5_parse_upd_package` finds the payload behind `socks5_address_size` bytes of address, and wants ten bytes
whatever the type of the address is.  `datagram_iff` says which datagrams are read back and which received
ones are cut where their header ends.
-/

namespace SsrNative
namespace Client

open Bytes

/-! ## The two functions -/

/-- What `s5_parse_upd_package` returns when it is not NULL: the target, the offset of the payload and
`payload_len`. -/
structure UpdPayload where
  dstAddr : Socks5Address
  offset : ℕ
  payloadLen : ℕ
  deriving DecidableEq

/-- `s5_parse_upd_package`, with the fragment number if it is set. -/
def s5ParseUpdPackageAt (pkg : Bytes) : Option ℕ × Option UpdPayload :=
  if pkg.length < 10 then (none, none)
  else if window pkg 0 2 ≠ [0, 0] then (none, none)
  else
    let fragNumber := (byteAt pkg 2).toNat
    let offset := 2 + 1
    match socks5AddressParse (pkg.drop offset) with
    | none => (some fragNumber, none)
    | some dstAddr =>
        (some fragNumber, some ⟨dstAddr, offset + dstAddr.size, subSize pkg.length (offset + dstAddr.size)⟩)

/-- `s5_build_udp_datagram`. -/
def s5BuildUdpDatagram (dstAddr : Socks5Address) (payload : Bytes) : Bytes :=
  let addrLen := dstAddr.size
  let total := 2 + 1 + addrLen + payload.length
  (List.replicate 2 0 ++ [0] ++ dstAddr.binary.take addrLen ++ payload).take total

/-- A payload is the bytes from its offset on. -/
theorem s5ParseUpdPackage_eq (pkg : Bytes) :
    s5ParseUpdPackage pkg =
      ((s5ParseUpdPackageAt pkg).1.getD 0,
        (s5ParseUpdPackageAt pkg).2.map fun r => (r.dstAddr, pkg.drop r.offset)) := by
  unfold s5ParseUpdPackage s5ParseUpdPackageAt
  split_ifs
  · rfl
  · rfl
  · dsimp only
    cases socks5AddressParse (pkg.drop 3) with
    | none => rfl
    | some dstAddr => rfl

theorem s5BuildUdpDatagram_eq {a : Socks5Address} (h : a.WellFormed) (payload : Bytes) :
    s5BuildUdpDatagram a payload = udpDatagram a payload := by
  have htake : a.binary.take a.size = a.binary := List.take_of_length_le (Socks5Address.binary_length h).le
  have hcat : List.replicate 2 0 ++ [0] ++ a.binary ++ payload = udpDatagram a payload := by
    simp [udpDatagram, List.replicate]
  unfold s5BuildUdpDatagram
  dsimp only
  rw [htake, hcat]
  exact List.take_of_length_le (udpDatagram_length h payload).le

/-! ## What is to hold -/

/-- A datagram that was built is read as what it was built from. -/
def ReadsBack (a : Socks5Address) (p : Bytes) : Prop :=
  s5ParseUpdPackageAt (s5BuildUdpDatagram a p) = (some 0, some ⟨a, 3 + a.size, p.length⟩) ∧
    (s5BuildUdpDatagram a p).drop (3 + a.size) = p

/-- A received datagram is refused or cut behind its header. -/
def CutBehindHeader (pkg : Bytes) : Prop :=
  ∀ r, (s5ParseUpdPackageAt pkg).2 = some r →
    ∃ rsv hdr payload, rsv.length = 3 ∧ pkg = rsv ++ hdr ++ payload ∧ Header hdr r.dstAddr ∧
      r.offset = (rsv ++ hdr).length ∧ r.payloadLen = payload.length

/-- The name of a datagram that is long enough, and starts with two zeros, has no NUL. -/
def DatagramNulFree (pkg : Bytes) : Prop :=
  10 ≤ pkg.length → window pkg 0 2 = [0, 0] → NameNulFree (pkg.drop 3)

/-! ## Built datagrams -/

theorem readsBack_iff_length {a : Socks5Address} (h : a.WellFormed) (p : Bytes) :
    ReadsBack a p ↔ 10 ≤ (udpDatagram a p).length := by
  have hsize : (udpDatagram a p).length = 3 + a.size + p.length := udpDatagram_length h p
  rw [ReadsBack, s5BuildUdpDatagram_eq h]
  constructor
  · rintro ⟨hparse, -⟩
    by_contra hshort
    rw [s5ParseUpdPackageAt, if_pos (Nat.not_le.1 hshort)] at hparse
    cases hparse
  · intro hlen
    have hrsv : window (udpDatagram a p) 0 2 = [0, 0] := rfl
    have hfrag : (byteAt (udpDatagram a p) 2).toNat = 0 := rfl
    have haddr : (udpDatagram a p).drop 3 = a.binary ++ p := rfl
    have hrest : subSize (3 + a.size + p.length) (3 + a.size) = p.length := by
      rw [subSize_of_le (Nat.le_add_right _ _), Nat.add_sub_cancel_left]
    refine ⟨?_, ?_⟩
    · rw [s5ParseUpdPackageAt, if_neg (Nat.not_lt.2 hlen), hrsv, if_neg (not_not.2 rfl)]
      dsimp only
      rw [haddr, Socks5Address.parse_binary h, hfrag, hsize]
      exact congrArg (fun n => (some 0, some (UpdPayload.mk a (3 + a.size) n))) hrest
    · rw [← List.drop_drop, haddr, ← Socks5Address.binary_length h, List.drop_left]

/-- Ten bytes are there unless the name and the payload are short. -/
theorem readsBack_iff {a : Socks5Address} (h : a.WellFormed) (p : Bytes) :
    ReadsBack a p ↔ (a.addrType = .domainname → 3 ≤ (cString a.addr).length + p.length) := by
  rw [readsBack_iff_length h, udpDatagram_length h]
  rcases a with ⟨type, addr, port⟩
  cases type with
  | ipv4 => simp [Socks5Address.size]
  | domainname =>
      simp only [Socks5Address.size, forall_const]
      omega
  | ipv6 =>
      simp only [Socks5Address.size, reduceCtorEq, false_imp_iff, iff_true]
      omega

/-! ## Received datagrams -/

/-- The datagrams that are not refused. -/
theorem parseAt_eq_some_iff {pkg : Bytes} {r : UpdPayload} :
    (s5ParseUpdPackageAt pkg).2 = some r ↔
      10 ≤ pkg.length ∧ window pkg 0 2 = [0, 0] ∧ socks5AddressParse (pkg.drop 3) = some r.dstAddr ∧
        r.offset = 3 + r.dstAddr.size ∧ r.payloadLen = subSize pkg.length (3 + r.dstAddr.size) := by
  rcases r with ⟨dstAddr, offset, payloadLen⟩
  unfold s5ParseUpdPackageAt
  split_ifs with hshort hrsv
  · exact iff_of_false nofun fun h => absurd h.1 (Nat.not_le.2 hshort)
  · exact iff_of_false nofun fun h => hrsv h.2.1
  · dsimp only
    cases socks5AddressParse (pkg.drop 3) with
    | none => exact iff_of_false nofun fun h => absurd h.2.2.1 nofun
    | some a =>
        simp only [Option.some.injEq, UpdPayload.mk.injEq]
        constructor
        · rintro ⟨rfl, rfl, rfl⟩
          exact ⟨Nat.not_lt.1 hshort, not_not.1 hrsv, rfl, rfl, rfl⟩
        · rintro ⟨-, -, rfl, rfl, rfl⟩
          exact ⟨rfl, rfl, rfl⟩

/-- The length of the header decides where a datagram is cut. -/
theorem cutBehindHeader_iff (pkg : Bytes) : CutBehindHeader pkg ↔ DatagramNulFree pkg := by
  constructor
  · intro hcut hlen hrsv len name p₀ p₁ rest hbytes size
    have hhdr := Header.domainname len p₀ p₁ size
    have hcat : pkg.drop 3 = 0x03 :: len :: (name ++ [p₀, p₁]) ++ rest := by simp [hbytes]
    have hparse := hhdr.parse rest
    rw [← hcat] at hparse
    have haccept : ∀ a, socks5AddressParse (pkg.drop 3) = some a →
        (s5ParseUpdPackageAt pkg).2 = some ⟨a, 3 + a.size, subSize pkg.length (3 + a.size)⟩ :=
      fun a ha => parseAt_eq_some_iff.2 ⟨hlen, hrsv, ha, rfl, rfl⟩
    rcases hcut _ (haccept _ hparse) with ⟨rsv, hdr, payload, hthree, hpkg, hhdr', hoff, -⟩
    -- both headers are as long as the offset says
    have hdrop : pkg.drop 3 = hdr ++ payload := by
      rw [hpkg, List.append_assoc, ← hthree, List.drop_left]
    have hlength : (0x03 :: len :: (name ++ [p₀, p₁])).length = hdr.length :=
      calc (0x03 :: len :: (name ++ [p₀, p₁])).length
          = socks5AddressOffset (pkg.drop 3) := by rw [hcat, hhdr.offset]
        _ = hdr.length := by rw [hdrop, hhdr'.offset]
    refine (size_domainname_iff p₀ p₁ size).1 ?_
    rw [List.length_append, hthree] at hoff
    rw [hlength]
    exact Nat.add_left_cancel hoff
  · intro hfree r hsome
    rcases parseAt_eq_some_iff.1 hsome with ⟨hlen, hrsv, hparse, hoff, hrest⟩
    rcases socks5AddressParse_eq_some_iff.1 hparse with ⟨hdr, payload, hbytes, hhdr⟩
    have hsize : r.dstAddr.size = hdr.length :=
      (hhdr.size_iff payload).2 (hbytes ▸ hfree hlen hrsv)
    have hthree : (pkg.take 3).length = 3 := by
      rw [List.length_take]
      omega
    have hpkg : pkg = pkg.take 3 ++ hdr ++ payload := by
      rw [List.append_assoc, ← hbytes, List.take_append_drop]
    refine ⟨pkg.take 3, hdr, payload, hthree, hpkg, hhdr, ?_, ?_⟩
    · rw [hoff, hsize, List.length_append, hthree]
    · have htotal : pkg.length = 3 + hdr.length + payload.length := by
        conv_lhs => rw [hpkg]
        rw [List.length_append, List.length_append, hthree]
      rw [hrest, hsize, htotal, subSize_of_le (Nat.le_add_right _ _), Nat.add_sub_cancel_left]

/-- A datagram is read back exactly when the name and the payload are not shorter than three bytes together,
and a received one is refused, or cut where its header ends, exactly when its name has no NUL. -/
theorem datagram_iff (a : Socks5Address) (p pkg : Bytes) :
    (a.WellFormed → (ReadsBack a p ↔ (a.addrType = .domainname → 3 ≤ (cString a.addr).length + p.length))) ∧
      (CutBehindHeader pkg ↔ DatagramNulFree pkg) :=
  ⟨fun h => readsBack_iff h p, cutBehindHeader_iff pkg⟩

theorem datagram_to_name :
    ReadsBack ⟨.domainname, domainArray (ascii "a.b"), 53⟩ [] ↔
      ((⟨.domainname, domainArray (ascii "a.b"), 53⟩ : Socks5Address).addrType = .domainname →
        3 ≤ (cString (domainArray (ascii "a.b"))).length + ([] : Bytes).length) :=
  (datagram_iff ⟨.domainname, domainArray (ascii "a.b"), 53⟩ [] []).1 ⟨by decide, by decide, by decide +kernel⟩

/-- The name `a` without a payload is not read back, and two bytes of the header of another datagram are
taken for its payload. -/
theorem datagram_cut_wrong :
    ¬ ReadsBack ⟨.domainname, domainArray (ascii "a"), 53⟩ [] ∧
      ¬ CutBehindHeader [0, 0, 0, 0x03, 3, 0x61, 0, 0x62, 0, 0x50] := by
  constructor
  · rintro ⟨hparse, -⟩
    exact absurd hparse (by decide +kernel)
  · intro hcut
    have hfree := (cutBehindHeader_iff _).1 hcut (by decide) (by decide)
    exact hfree 3 [0x61, 0, 0x62] 0 0x50 [] rfl rfl (by decide)

end Client
end SsrNative
