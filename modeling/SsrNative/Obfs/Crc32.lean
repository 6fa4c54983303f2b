import SsrNative.Lib.Crc
import SsrNative.Lib.Segments
import SsrNative.Obfs.Checksums

/-!
# Crc32 — what the residue of a CRC-32 says

`crc32.c` computes CRC-32 from a table that the first call fills.  It is the register of `Lib.Crc`
with the polynomial `0xEDB88320`, and a text has the residue `0xFFFFFFFF` exactly when its last four
bytes are the ones `fillcrc32` stores.
-/

namespace SsrNative
namespace Obfs
namespace Checksums

open Bytes
open Lib.Crc
open Lib.Segments (run)

def polynomial : BitVec 32 := 0xEDB88320#32

/-- CRC-32, one bit of the message at a time. -/
def bitwiseCrc32 (m : Bytes) : UInt32 :=
  ⟨feed polynomial 0xFFFFFFFF#32 (m.flatMap bitsOf) ^^^ 0xFFFFFFFF#32⟩

/-! ## The table -/

/-- The static variables of `crc32.c`. -/
structure Crc32Table where
  crc32Table : List UInt32
  crc32TableInit : Bool

/-- As the program starts. -/
def noTable : Crc32Table := ⟨List.replicate 256 0, false⟩

def fullTable : List UInt32 := (List.range 256).map fun i => Checksums.crc32Table (UInt32.ofNat i)

def initCrc32Table (s : Crc32Table) : Crc32Table :=
  if s.crc32TableInit = true then s
  else if s.crc32Table.getD 0 0 = 0 then ⟨fullTable, true⟩
  else { s with crc32TableInit := true }

/-- `crc32_imp` with the table it finds, which it may have to fill. -/
def crc32ImpIn (s : Crc32Table) (buffer : Bytes) : Crc32Table × UInt32 :=
  let s := initCrc32Table s
  let step (crc : UInt32) (b : UInt8) : UInt32 :=
    s.crc32Table.getD ((crc ^^^ b.toUInt32) &&& 0xFF).toNat 0 ^^^ (crc >>> 8)
  (s, buffer.foldl step 0xFFFFFFFF ^^^ 0xFFFFFFFF)

theorem fullTable_getD (i : UInt32) : fullTable.getD (i &&& 0xFF).toNat 0 = crc32Table (i &&& 0xFF) := by
  have hlt : (i &&& 0xFF).toNat < 256 := by
    rw [UInt32.toNat_and]
    exact Nat.lt_succ_of_le Nat.and_le_right
  rw [fullTable, List.getD_eq_getElem _ _ (by simpa using hlt), List.getElem_map, List.getElem_range,
    UInt32.ofNat_toNat]

/-- Before the first call, and behind it. -/
def TableReady (s : Crc32Table) : Prop := s = noTable ∨ s = ⟨fullTable, true⟩

theorem initCrc32Table_ready {s : Crc32Table} (h : TableReady s) : initCrc32Table s = ⟨fullTable, true⟩ := by
  rcases h with rfl | rfl
  · rfl
  · rfl

theorem crc32ImpIn_ready {s : Crc32Table} (h : TableReady s) (buffer : Bytes) :
    crc32ImpIn s buffer = (⟨fullTable, true⟩, crc32Imp buffer) := by
  rw [crc32ImpIn, initCrc32Table_ready h]
  simp only [fullTable_getD]
  rfl

/-- Every call of a run finds the table or fills it. -/
theorem run_crc32ImpIn {s : Crc32Table} (h : TableReady s) (buffers : List Bytes) :
    (run crc32ImpIn s buffers).2 = buffers.map crc32Imp := by
  induction buffers generalizing s with
  | nil => rfl
  | cons buffer buffers ih =>
      rw [Lib.Segments.run_cons, crc32ImpIn_ready h, List.map_cons]
      exact congrArg _ (ih (.inr rfl))

/-! ## The register -/

theorem crc32Bit_toBitVec (c : UInt32) : (crc32Bit c).toBitVec = shift polynomial c.toBitVec := by
  have hlow : c &&& 1 = 1 ↔ c.toBitVec.getLsbD 0 = true := by
    rw [← UInt32.toBitVec_inj, UInt32.toBitVec_and]
    have hone : c.toBitVec &&& 1#32 = BitVec.setWidth 32 (BitVec.ofBool (c.toBitVec.getLsbD 0)) :=
      BitVec.and_one_eq_setWidth_ofBool_getLsbD
    change c.toBitVec &&& 1#32 = 1#32 ↔ _
    rw [hone]
    cases c.toBitVec.getLsbD 0 <;> decide
  rw [crc32Bit, shift]
  by_cases hbit : c &&& 1 = 1
  · rw [if_pos hbit, if_pos (hlow.1 hbit)]
    rfl
  · rw [if_neg hbit, if_neg (fun h => hbit (hlow.2 h))]
    rfl

theorem iterate_crc32Bit_toBitVec (n : ℕ) (c : UInt32) :
    (crc32Bit^[n] c).toBitVec = (shift polynomial)^[n] c.toBitVec := by
  induction n generalizing c with
  | zero => rfl
  | succ n ih => rw [Function.iterate_succ_apply, Function.iterate_succ_apply, ih, crc32Bit_toBitVec]

/-- One access to the table is eight steps of the register. -/
theorem crc32Byte_toBitVec (c : UInt32) (b : UInt8) :
    (crc32Byte c b).toBitVec = feed polynomial c.toBitVec (bitsOf b) := by
  have hindex : ((c ^^^ b.toUInt32) &&& 0xFF).toBitVec =
      ((c.toBitVec ^^^ b.toBitVec.setWidth 32).setWidth 8).setWidth 32 := by
    apply BitVec.eq_of_getLsbD_eq
    intro i hi
    have hmask : (255#32).getLsbD i = decide (i < 8) := by
      rw [BitVec.getLsbD_ofNat, show 255 = 2 ^ 8 - 1 by rfl, Nat.testBit_two_pow_sub_one]
      simp [hi]
    change ((c.toBitVec ^^^ b.toBitVec.setWidth 32) &&& 255#32).getLsbD i = _
    rw [BitVec.getLsbD_and, hmask, BitVec.getLsbD_setWidth, BitVec.getLsbD_setWidth, Bool.and_comm]
    simp [hi]
  rw [feed_bitsOf (by decide), ← hindex, crc32Byte, UInt32.toBitVec_xor, crc32Table]
  rw [iterate_crc32Bit_toBitVec]
  rfl

theorem foldl_crc32Byte_toBitVec (m : Bytes) (c : UInt32) :
    (m.foldl crc32Byte c).toBitVec = feed polynomial c.toBitVec (m.flatMap bitsOf) := by
  induction m generalizing c with
  | nil => rfl
  | cons b m ih => rw [List.foldl_cons, ih, crc32Byte_toBitVec, List.flatMap_cons, feed_append]

theorem crc32Imp_bitwise (m : Bytes) : crc32Imp m = bitwiseCrc32 m := by
  apply UInt32.toBitVec_inj.1
  rw [crc32Imp, UInt32.toBitVec_xor, foldl_crc32Byte_toBitVec]
  rfl

/-! ## The residue -/

theorem crc32Imp_eq_residue {x : Bytes} : crc32Imp x = 0xFFFFFFFF ↔ crc32Register x = 0 := by
  rw [crc32Imp, crc32Register]
  constructor
  · intro h
    have hxor := congrArg (· ^^^ (0xFFFFFFFF : UInt32)) h
    simpa [UInt32.xor_assoc] using hxor
  · intro h
    rw [h]
    rfl

theorem crc32Register_append (m l : Bytes) :
    crc32Register (m ++ l) = l.foldl crc32Byte (crc32Register m) := List.foldl_append

/-- Four bytes take the register to zero only when they are its own. -/
theorem foldl_crc32Byte_eq_zero {c : UInt32} {l : Bytes} (hlen : l.length = 4) :
    l.foldl crc32Byte c = 0 ↔ l = le32 c.toNat := by
  refine ⟨fun h => ?_, fun h => h ▸ crc32Register_le32 c⟩
  have htop : polynomial.getLsbD (32 - 1) = true := by decide
  have hzero : ∀ l' : Bytes, l'.foldl crc32Byte c = 0 →
      feed polynomial c.toBitVec (l'.flatMap bitsOf) = 0#32 := by
    intro l' h'
    rw [← foldl_crc32Byte_toBitVec, h']
    rfl
  exact feed_bytes_unique htop (hlen.trans (le32_length _).symm) (Nat.le_of_eq (by rw [hlen]))
    (hzero l h) (hzero _ (crc32Register_le32 c))

theorem crc32Imp_eq_residue_iff {x : Bytes} (h : 4 ≤ x.length) :
    crc32Imp x = 0xFFFFFFFF ↔ fillCrc32 x = x := by
  have hsplit := List.take_append_drop (x.length - 4) x
  have hlast : (x.drop (x.length - 4)).length = 4 := by
    rw [List.length_drop]
    omega
  calc crc32Imp x = 0xFFFFFFFF
      ↔ (x.drop (x.length - 4)).foldl crc32Byte (crc32Register (x.take (x.length - 4))) = 0 := by
        rw [crc32Imp_eq_residue, ← crc32Register_append, hsplit]
    _ ↔ x.drop (x.length - 4) = le32 (crc32Register (x.take (x.length - 4))).toNat :=
        foldl_crc32Byte_eq_zero hlast
    _ ↔ fillCrc32 x = x := by
        rw [fillCrc32]
        constructor
        · intro hdrop
          rw [← hdrop, hsplit]
        · intro hfill
          exact List.append_cancel_left (hsplit.trans hfill.symm)

/-- CRC-32 as the protocols use it: the residue behind a stored checksum, and what it says; whose
checksum it is; and how it is stored.  The table makes no difference to any call of a run. -/
theorem crc32_residue :
    (∀ m room : Bytes, room.length = 4 → ∃ stored : Bytes, stored.length = 4 ∧
      fillCrc32 (m ++ room) = m ++ stored ∧ crc32Imp (m ++ stored) = 0xFFFFFFFF) ∧
    (∀ x : Bytes, 4 ≤ x.length → crc32Imp x = 0xFFFFFFFF →
      x.drop (x.length - 4) = (fillCrc32 x).drop (x.length - 4)) ∧
    (∀ m : Bytes, crc32Imp m = bitwiseCrc32 m ∧ fillCrc32To m = le32 (bitwiseCrc32 m).toNat) ∧
    ∀ buffers : List Bytes, (run crc32ImpIn noTable buffers).2 = buffers.map crc32Imp := by
  refine ⟨fun m room hroom => ?_, fun x hlong hres => ?_, fun m => ?_, run_crc32ImpIn (.inl rfl)⟩
  · refine ⟨le32 (crc32Register m).toNat, le32_length _, fillCrc32_append m hroom, ?_⟩
    rw [crc32Imp_eq_residue, crc32Register_append]
    exact crc32Register_le32 _
  · rw [(crc32Imp_eq_residue_iff hlong).1 hres]
  · refine ⟨crc32Imp_bitwise m, ?_⟩
    rw [fillCrc32To, crc32Imp_bitwise]

/-- Three bytes with their checksum. -/
theorem crc32_residue_three :
    crc32Imp [1, 2, 3, 0xE2, 0x7F, 0x43, 0xAA] = 0xFFFFFFFF ∧
      List.drop 3 [1, 2, 3, 0xE2, 0x7F, 0x43, 0xAA] =
        (fillCrc32 [1, 2, 3, 0xE2, 0x7F, 0x43, 0xAA]).drop 3 := by
  have hres : crc32Imp [1, 2, 3, 0xE2, 0x7F, 0x43, 0xAA] = 0xFFFFFFFF := by decide +kernel
  exact ⟨hres, crc32_residue.2.1 _ (by decide) hres⟩

end Checksums
end Obfs
end SsrNative
