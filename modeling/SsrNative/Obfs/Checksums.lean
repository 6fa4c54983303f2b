import Mathlib.Logic.Function.Iterate
import SsrNative.Bytes

/-!
# Checksums — the unkeyed checksums of the older protocols

CRC-32 and Adler-32 as `crc32.c` computes them, on `uint32_t` values.
-/

namespace SsrNative
namespace Obfs
namespace Checksums

open Bytes

/-! ## CRC-32 -/

/-- One pass of the inner loop of `init_crc32_table`. -/
def crc32Bit (c : UInt32) : UInt32 :=
  if c &&& 1 = 1 then (0xedb88320 : UInt32) ^^^ (c >>> 1) else c >>> 1

def crc32Table (i : UInt32) : UInt32 := Nat.iterate crc32Bit 8 i

def crc32Byte (crc : UInt32) (b : UInt8) : UInt32 :=
  crc32Table ((crc ^^^ b.toUInt32) &&& 0xFF) ^^^ (crc >>> 8)

def crc32Imp (buffer : Bytes) : UInt32 := buffer.foldl crc32Byte 0xFFFFFFFF ^^^ 0xFFFFFFFF

/-- What `fillcrc32to` stores. -/
def fillCrc32To (buffer : Bytes) : Bytes := le32 (crc32Imp buffer).toNat

/-- The register behind `buffer`, from the one in front of it. -/
def crc32Register (buffer : Bytes) : UInt32 := buffer.foldl crc32Byte 0xFFFFFFFF

/-- `fillcrc32` over a buffer of at least four bytes: the register itself, not inverted, goes into
the last four. -/
def fillCrc32 (buffer : Bytes) : Bytes :=
  let message := buffer.take (buffer.length - 4)
  message ++ le32 (crc32Register message).toNat

/-- `(int)crc32_imp(buffer, size) == -1`. -/
def checkCrc32 (buffer : Bytes) (size : ℕ) : Bool := crc32Imp (buffer.take size) == 0xFFFFFFFF

/-! ## Adler-32 -/

def NMAX : ℕ := 5552

def adler32Byte (r : UInt32 × UInt32) (x : UInt8) : UInt32 × UInt32 :=
  (r.1 + x.toUInt32, r.2 + (r.1 + x.toUInt32))

def adler32Short (buffer : Bytes) (r : UInt32 × UInt32) : UInt32 × UInt32 :=
  let r := buffer.foldl adler32Byte r
  (r.1 % 65521, r.2 % 65521)

/-- The loop over pieces of `NMAX` bytes, and the rest. -/
def adler32Pieces : ℕ → Bytes → UInt32 × UInt32 → UInt32 × UInt32
  | 0, _, r => r
  | fuel + 1, buffer, r =>
      if NMAX ≤ buffer.length then
        adler32Pieces fuel (buffer.drop NMAX) (adler32Short (buffer.take NMAX) r)
      else adler32Short buffer r

def adler32 (buffer : Bytes) : UInt32 :=
  let r := adler32Pieces (buffer.length + 1) buffer (1, 0)
  (r.2 <<< 16) + r.1

/-- `filladler32` over a buffer of at least four bytes, the last four of which it overwrites. -/
def fillAdler32 (buffer : Bytes) : Bytes :=
  let message := buffer.take (buffer.length - 4)
  message ++ le32 (adler32 message).toNat

/-- `checkadler32` over the first `size` bytes, at least four. -/
def checkAdler32 (buffer : Bytes) (size : ℕ) : Bool :=
  (adler32 (buffer.take (size - 4))).toNat == rdLe32 buffer (size - 4)

/-! ## What is stored is what is checked -/

theorem fillAdler32_append (message : Bytes) {room : Bytes} (h : room.length = 4) :
    fillAdler32 (message ++ room) = message ++ le32 (adler32 message).toNat := by
  have htake : (message ++ room).take ((message ++ room).length - 4) = message :=
    List.take_left' (by simp [h])
  simp only [fillAdler32, htake]

theorem checkAdler32_fill (message rest : Bytes) :
    checkAdler32 (message ++ (le32 (adler32 message).toNat ++ rest)) (message.length + 4) = true := by
  have hlt := (adler32 message).toNat_lt
  rw [checkAdler32, Nat.add_sub_cancel, List.take_left, rdLe32_field rfl, Nat.mod_eq_of_lt hlt,
    beq_self_eq_true]

theorem fillCrc32_append (message : Bytes) {room : Bytes} (h : room.length = 4) :
    fillCrc32 (message ++ room) = message ++ le32 (crc32Register message).toNat := by
  have htake : (message ++ room).take ((message ++ room).length - 4) = message :=
    List.take_left' (by simp [h])
  simp only [fillCrc32, htake]

/-- The low byte of the register shifts it out. -/
theorem crc32Byte_low (crc : UInt32) : crc32Byte crc (UInt8.ofNat crc.toNat) = crc >>> 8 := by
  have hindex : (crc ^^^ (UInt8.ofNat crc.toNat).toUInt32) &&& 0xFF = 0 := by
    apply UInt32.toNat_inj.1
    calc ((crc ^^^ (UInt8.ofNat crc.toNat).toUInt32) &&& 0xFF).toNat
        = (crc.toNat ^^^ crc.toNat % 2 ^ 8) % 2 ^ 8 := by
          rw [UInt32.toNat_and, UInt32.toNat_xor, UInt8.toNat_toUInt32, UInt8.toNat_ofNat']
          exact Nat.and_two_pow_sub_one_eq_mod _ 8
      _ = 0 := by
          rw [Nat.xor_mod_two_pow, Nat.mod_mod, Nat.xor_self]
  have hzero : crc32Table 0 = 0 := by decide
  rw [crc32Byte, hindex, hzero, UInt32.zero_xor]

/-- Four bytes of the register leave nothing of it. -/
theorem crc32Register_le32 (crc : UInt32) : (le32 crc.toNat).foldl crc32Byte crc = 0 := by
  have hshift : ∀ c : UInt32, (c >>> 8).toNat = c.toNat / 256 := fun c => by
    rw [UInt32.toNat_shiftRight]
    exact Nat.shiftRight_eq_div_pow _ 8
  have hlast : ((((crc >>> 8) >>> 8) >>> 8) >>> 8).toNat = 0 := by
    have hlt := crc.toNat_lt
    rw [hshift, hshift, hshift, hshift]
    omega
  have h₂ : crc.toNat / 65536 = ((crc >>> 8) >>> 8).toNat := by
    rw [hshift, hshift]
    omega
  have h₃ : crc.toNat / 16777216 = (((crc >>> 8) >>> 8) >>> 8).toNat := by
    rw [hshift, hshift, hshift]
    omega
  simp only [le32, List.foldl_cons, List.foldl_nil, h₂, h₃, ← hshift crc, crc32Byte_low]
  exact UInt32.toNat_inj.1 hlast

theorem checkCrc32_fill (message rest : Bytes) :
    checkCrc32 (message ++ (le32 (crc32Register message).toNat ++ rest)) (message.length + 4) =
      true := by
  have htake : (message ++ (le32 (crc32Register message).toNat ++ rest)).take (message.length + 4) =
      message ++ le32 (crc32Register message).toNat := by
    rw [← List.append_assoc]
    exact List.take_left' (by simp)
  rw [checkCrc32, htake, crc32Imp, List.foldl_append]
  change ((le32 (crc32Register message).toNat).foldl crc32Byte (crc32Register message) ^^^
    0xFFFFFFFF == 0xFFFFFFFF) = true
  rw [crc32Register_le32]
  rfl

example : crc32Imp (ascii "123456789") = 0xCBF43926 := by decide +kernel

example : adler32 (ascii "Wikipedia") = 0x11E60398 := by decide

end Checksums
end Obfs
end SsrNative
