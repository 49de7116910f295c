import SignalIOS.Lib.ShiftRegister
import SignalIOS.Util.Crc32

/-! The CRC by its definition, and what its table has to do with that. -/
namespace SignalIOS
open SignalIOS.Lib

/-- The bits of a byte, the lowest one first. -/
def lowBitsFirst (byte : UInt8) : List Bool := (List.range 8).map byte.toBitVec.getLsbD

/-- All bits of the data go through a register, in the order that reflected CRCs take them. -/
def bitwiseCrc32 (data : NSData) (seed poly : UInt32) : UInt32 :=
  UInt32.ofBitVec ((data.flatMap lowBitsFirst).foldl (ShiftRegister.feed poly.toBitVec)
    seed.toBitVec) ^^^ 0xFFFFFFFF

theorem ofBits_lowBitsFirst (byte : UInt8) :
    ShiftRegister.ofBits 32 (lowBitsFirst byte) = byte.toUInt32.toBitVec := by
  apply BitVec.eq_of_getLsbD_eq
  intro i hi
  rw [ShiftRegister.getLsbD_ofBits, UInt8.toBitVec_toUInt32, BitVec.getLsbD_setWidth, lowBitsFirst]
  by_cases hlow : i < 8
  · simp [hlow]
  · have hnone : byte.toBitVec.getLsbD i = false := BitVec.getLsbD_of_ge _ i (Nat.not_lt.mp hlow)
    simp [hlow, hnone]

theorem toBitVec_crcShift (poly crc : UInt32) :
    (crcShift poly crc).toBitVec = ShiftRegister.shift poly.toBitVec crc.toBitVec := by
  have hlow : (crc &&& 1).toBitVec =
      (BitVec.ofBool (crc.toBitVec.getLsbD 0)).setWidth 32 := by
    rw [UInt32.toBitVec_and]
    exact BitVec.and_one_eq_setWidth_ofBool_getLsbD
  rw [ShiftRegister.shift_eq, crcShift]
  cases hout : crc.toBitVec.getLsbD 0 with
  | false =>
    rw [hout] at hlow
    have hzero : crc &&& 1 = 0 := UInt32.toBitVec_inj.mp hlow
    rw [hzero, if_neg (by decide), if_neg (by decide)]
    exact BitVec.xor_zero.symm
  | true =>
    rw [hout] at hlow
    have hone : crc &&& 1 = 1 := UInt32.toBitVec_inj.mp hlow
    rw [if_pos hone, if_pos rfl]
    rfl

theorem toBitVec_repeat_crcShift (poly crc : UInt32) (n : ℕ) :
    (Nat.repeat (crcShift poly) n crc).toBitVec =
      (ShiftRegister.shift poly.toBitVec)^[n] crc.toBitVec := by
  induction n with
  | zero => rfl
  | succ n ih => rw [Nat.repeat, toBitVec_crcShift, ih, Function.iterate_succ_apply']

theorem getD_generateCRC32Table (poly : UInt32) {i : ℕ} (h : i < 256) :
    (generateCRC32Table poly).getD i 0 = Nat.repeat (crcShift poly) 8 (UInt32.ofNat i) := by
  rw [generateCRC32Table, List.getD_eq_getElem?_getD, List.getElem?_map, List.getElem?_range h]
  rfl

namespace NSData

/-- The table has, for every byte, what its eight bits do. -/
theorem toBitVec_crcNext (poly crc : UInt32) (byte : UInt8) :
    (crcNext (generateCRC32Table poly) crc byte).toBitVec =
      (lowBitsFirst byte).foldl (ShiftRegister.feed poly.toBitVec) crc.toBitVec := by
  have hlength : (lowBitsFirst byte).length = 8 := rfl
  have hle : (lowBitsFirst byte).length ≤ 32 := hlength ▸ (by decide)
  have hbyte : byte.toUInt32.toBitVec >>> 8 = 0#32 := by
    apply BitVec.eq_of_getLsbD_eq
    intro i _
    rw [BitVec.getLsbD_ushiftRight, UInt8.toBitVec_toUInt32, BitVec.getLsbD_setWidth,
      BitVec.getLsbD_of_ge byte.toBitVec (8 + i) (Nat.le_add_right 8 i), Bool.and_false,
      BitVec.getLsbD_zero]
  have hindex : ShiftRegister.low 8 (crc.toBitVec ^^^ byte.toUInt32.toBitVec) =
      ((crc &&& 0xFF) ^^^ byte.toUInt32).toBitVec := by
    apply BitVec.eq_of_getLsbD_eq
    intro i _
    have hmask : (0xFF : UInt32).toBitVec.getLsbD i = decide (i < 8) :=
      Nat.testBit_two_pow_sub_one 8 i
    rw [ShiftRegister.getLsbD_low, BitVec.getLsbD_xor, UInt32.toBitVec_xor, BitVec.getLsbD_xor,
      UInt32.toBitVec_and, BitVec.getLsbD_and, hmask, UInt8.toBitVec_toUInt32,
      BitVec.getLsbD_setWidth]
    by_cases hlow : i < 8
    · simp [hlow]
    · have hnone : byte.toBitVec.getLsbD i = false :=
        BitVec.getLsbD_of_ge _ i (Nat.not_lt.mp hlow)
      simp [hlow, hnone]
  have hlt : ((crc &&& 0xFF) ^^^ byte.toUInt32).toNat < 256 := by
    rw [UInt32.toNat_xor, UInt32.toNat_and]
    exact Nat.xor_lt_two_pow (Nat.and_lt_two_pow crc.toNat (n := 8) (by decide)) byte.toNat_lt
  rw [ShiftRegister.foldl_feed hle, hlength, ofBits_lowBitsFirst,
    ShiftRegister.shift_iterate_eq_table, BitVec.ushiftRight_xor_distrib, hbyte, BitVec.xor_zero,
    hindex, ← toBitVec_repeat_crcShift, crcNext, getD_generateCRC32Table poly hlt,
    UInt32.ofNat_toNat]
  rfl

theorem toBitVec_foldl_crcNext (data : NSData) (poly crc : UInt32) :
    (data.foldl (crcNext (generateCRC32Table poly)) crc).toBitVec =
      (data.flatMap lowBitsFirst).foldl (ShiftRegister.feed poly.toBitVec) crc.toBitVec := by
  induction data generalizing crc with
  | nil => rfl
  | cons byte data ih =>
    rw [List.foldl_cons, ih, toBitVec_crcNext, List.flatMap_cons, List.foldl_append]

/-- The table computes the CRC of all data. That of one data after another goes on from the first
one's, without the complement that it ends with. -/
theorem crc32WithSeed_spec (seed poly : UInt32) :
    (∀ data : NSData, data.crc32WithSeed seed poly = bitwiseCrc32 data seed poly) ∧
      ∀ a b : NSData, crc32WithSeed (a ++ b) seed poly =
        b.crc32WithSeed (a.crc32WithSeed seed poly ^^^ 0xFFFFFFFF) poly := by
  constructor
  · intro data
    rw [crc32WithSeed, bitwiseCrc32, ← toBitVec_foldl_crcNext, UInt32.ofBitVec_toBitVec]
  · intro a b
    simp only [crc32WithSeed, List.foldl_append, UInt32.xor_assoc, UInt32.xor_self,
      UInt32.xor_zero]

example : crc32 "123456789".toUTF8.toList = 0xCBF43926 := by decide +kernel

end NSData
end SignalIOS
