import SsrNative.Bytes

/-!
# Socks5Address — addresses as SOCKS5 writes them

`struct socks5_address` of `sockaddr_universal.c`, its binary form and the reader of that form.  A
domain name lives in an array of 256 bytes and ends at the first NUL.
-/

namespace SsrNative

open Bytes

/-- `enum SOCKS5_ADDRTYPE`; an invalid address is `none` where one is read. -/
inductive Socks5AddrType where
  | ipv4
  | domainname
  | ipv6
  deriving DecidableEq

/-- `struct socks5_address`; for a domain name `addr` is the whole array. -/
structure Socks5Address where
  addrType : Socks5AddrType
  addr : Bytes
  port : ℕ
  deriving DecidableEq

/-- The array that holds a domain name. -/
def domainArray (name : Bytes) : Bytes := name ++ List.replicate (256 - name.length) 0

/-- `socks5_address_parse`. -/
def socks5AddressParse (data : Bytes) : Option Socks5Address :=
  if data.length = 0 then none
  else if byteAt data 0 = 0x01 then
    if data.length < 7 then none else some ⟨.ipv4, window data 1 4, rdBe16 data 5⟩
  else if byteAt data 0 = 0x03 then
    let addrSize := (byteAt data 1).toNat
    if data.length < 2 + addrSize + 2 then none
    else some ⟨.domainname, domainArray (window data 2 addrSize), rdBe16 data (2 + addrSize)⟩
  else if byteAt data 0 = 0x04 then
    if data.length < 19 then none else some ⟨.ipv6, window data 1 16, rdBe16 data 17⟩
  else none

/-- `*off` when `socks5_address_parse` succeeds. -/
def socks5AddressOffset (data : Bytes) : ℕ :=
  if byteAt data 0 = 0x01 then 7
  else if byteAt data 0 = 0x03 then 2 + (byteAt data 1).toNat + 2
  else 19

namespace Socks5Address

/-- `socks5_address_size`. -/
def size (a : Socks5Address) : ℕ :=
  match a.addrType with
  | .ipv4 => 7
  | .domainname => 2 + (cString a.addr).length + 2
  | .ipv6 => 19

/-- `socks5_address_binary`. -/
def binary (a : Socks5Address) : Bytes :=
  match a.addrType with
  | .ipv4 => [0x01] ++ (a.addr ++ be16 a.port)
  | .domainname =>
      [0x03, UInt8.ofNat (cString a.addr).length] ++ (cString a.addr ++ be16 a.port)
  | .ipv6 => [0x04] ++ (a.addr ++ be16 a.port)

/-- An address that the program can hold: the union is filled as the type says. -/
def WellFormed (a : Socks5Address) : Prop :=
  a.port < 65536 ∧
    match a.addrType with
    | .ipv4 => a.addr.length = 4
    | .domainname => (cString a.addr).length < 256 ∧ a.addr = domainArray (cString a.addr)
    | .ipv6 => a.addr.length = 16

theorem binary_length {a : Socks5Address} (h : a.WellFormed) : a.binary.length = a.size := by
  obtain ⟨addrType, addr, port⟩ := a
  obtain ⟨-, hlen⟩ := h
  cases addrType with
  | ipv4 =>
      have hlen' : addr.length = 4 := hlen
      simp [binary, size, hlen']
  | domainname =>
      simp [binary, size]
      omega
  | ipv6 =>
      have hlen' : addr.length = 16 := hlen
      simp [binary, size, hlen']

theorem size_le {a : Socks5Address} (h : a.WellFormed) : a.size ≤ 259 := by
  obtain ⟨addrType, addr, port⟩ := a
  obtain ⟨-, hlen⟩ := h
  cases addrType with
  | ipv4 => exact (by decide : 7 ≤ 259)
  | domainname =>
      have hname : (cString addr).length < 256 := hlen.1
      unfold size
      dsimp only
      omega
  | ipv6 => exact (by decide : 19 ≤ 259)

/-- What was written is read back, whatever stands behind it. -/
theorem parse_binary {a : Socks5Address} (h : a.WellFormed) (l : Bytes) :
    socks5AddressParse (a.binary ++ l) = some a := by
  obtain ⟨addrType, addr, port⟩ := a
  obtain ⟨hport, hlen⟩ := h
  have hport' : port % 65536 = port := Nat.mod_eq_of_lt hport
  cases addrType with
  | ipv4 =>
      have hlen' : addr.length = 4 := hlen
      have hcat : (⟨.ipv4, addr, port⟩ : Socks5Address).binary ++ l = [0x01] ++ (addr ++ (be16 port ++ l)) := by
        simp [binary]
      have hone : [(0x01 : UInt8)].length = 1 := rfl
      have hfive : ([(0x01 : UInt8)] ++ addr).length = 5 := by simp [hlen']
      have hwin := window_field (l := be16 port ++ l) hone hlen'
      have hval := rdBe16_field (n := port) (l := l) hfive
      rw [List.append_assoc] at hval
      have htype : byteAt ([0x01] ++ (addr ++ (be16 port ++ l))) 0 = 0x01 := rfl
      rw [hcat, socks5AddressParse, if_neg (by simp), htype, if_pos rfl, if_neg (by simp [hlen']; omega), hwin,
        hval, hport']
  | domainname =>
      obtain ⟨hname, harray⟩ := hlen
      generalize hn : cString addr = name at hname harray
      have hcat : (⟨.domainname, addr, port⟩ : Socks5Address).binary ++ l =
          [0x03, UInt8.ofNat name.length] ++ (name ++ (be16 port ++ l)) := by
        simp [binary, hn]
      have htwo : [(0x03 : UInt8), UInt8.ofNat name.length].length = 2 := rfl
      have hskip : ([(0x03 : UInt8), UInt8.ofNat name.length] ++ name).length = 2 + name.length := by
        rw [List.length_append]
        rfl
      have hbyte : (UInt8.ofNat name.length).toNat = name.length := by
        rw [UInt8.toNat_ofNat', Nat.mod_eq_of_lt hname]
      have hwin := window_field (l := be16 port ++ l) htwo (w := name) rfl
      have hval := rdBe16_field (n := port) (l := l) hskip
      rw [List.append_assoc] at hval
      have hsecond : (byteAt ([0x03, UInt8.ofNat name.length] ++ (name ++ (be16 port ++ l))) 1).toNat =
          name.length := hbyte
      have htype : byteAt ([0x03, UInt8.ofNat name.length] ++ (name ++ (be16 port ++ l))) 0 = 0x03 := rfl
      rw [hcat, socks5AddressParse, if_neg (by simp), htype, if_neg (by decide), if_pos rfl]
      dsimp only
      rw [hsecond, if_neg (by simp; omega), hwin, hval, hport', ← harray]
  | ipv6 =>
      have hlen' : addr.length = 16 := hlen
      have hcat : (⟨.ipv6, addr, port⟩ : Socks5Address).binary ++ l = [0x04] ++ (addr ++ (be16 port ++ l)) := by
        simp [binary]
      have hone : [(0x04 : UInt8)].length = 1 := rfl
      have hskip : ([(0x04 : UInt8)] ++ addr).length = 17 := by simp [hlen']
      have hwin := window_field (l := be16 port ++ l) hone hlen'
      have hval := rdBe16_field (n := port) (l := l) hskip
      rw [List.append_assoc] at hval
      have htype : byteAt ([0x04] ++ (addr ++ (be16 port ++ l))) 0 = 0x04 := rfl
      rw [hcat, socks5AddressParse, if_neg (by simp), htype, if_neg (by decide), if_neg (by decide),
        if_pos rfl, if_neg (by simp [hlen']; omega), hwin, hval, hport']

end Socks5Address

end SsrNative
