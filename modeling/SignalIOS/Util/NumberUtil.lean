import Mathlib.Data.Int.Notation
import Mathlib.Data.Nat.Notation

/-! Differences of numbers of sixteen bits. -/
namespace SignalIOS.NumberUtil

/-- Operands are promoted to 32 bits, and the result is truncated to sixteen. -/
def congruentDifferenceMod2ToThe16 (s1 s2 : UInt16) : Int16 :=
  let d := s2.toUInt32.toInt32 - s1.toUInt32.toInt32
  let d := if d > 32767 then d - (1 : Int32) <<< (16 : Int32) else d
  d.toInt16

def signOfInt32 (value : Int32) : Int8 :=
  if value < 0 then -1
  else if value > 0 then 1
  else 0

theorem toInt_toInt32 (s : UInt16) : s.toUInt32.toInt32.toInt = s.toNat := by
  have hlt := s.toNat_lt
  have hvalue : s.toUInt32.toInt32.toInt = if 2 * s.toNat < 4294967296 then (s.toNat : ℤ)
      else s.toNat - 4294967296 := BitVec.toInt_eq_toNat_cond s.toUInt32.toInt32.toBitVec
  rw [hvalue, if_pos (by omega)]

theorem toInt_sub_of_small {a b : Int32} (h : -131072 ≤ a.toInt - b.toInt)
    (h' : a.toInt - b.toInt ≤ 131072) : (a - b).toInt = a.toInt - b.toInt := by
  rw [Int32.toInt_sub, Int.bmod_def]
  split <;> omega

/-- The difference is the one nearest to zero. -/
theorem toInt_congruentDifferenceMod2ToThe16 (s1 s2 : UInt16) :
    -32768 ≤ (congruentDifferenceMod2ToThe16 s1 s2).toInt ∧
      (congruentDifferenceMod2ToThe16 s1 s2).toInt ≤ 32767 ∧
      (congruentDifferenceMod2ToThe16 s1 s2).toInt % 65536 =
        ((s2.toNat : ℤ) - s1.toNat) % 65536 := by
  have h1 := s1.toNat_lt
  have h2 := s2.toNat_lt
  have hd : (s2.toUInt32.toInt32 - s1.toUInt32.toInt32).toInt = s2.toNat - s1.toNat := by
    rw [toInt_sub_of_small] <;> simp only [toInt_toInt32] <;> omega
  have hrange : ((1 : Int32) <<< (16 : Int32)).toInt = 65536 := rfl
  have hhigh : (32767 : Int32).toInt = 32767 := rfl
  have htruncate (d : Int32) : d.toInt16.toInt % 65536 = d.toInt % 65536 := by
    rw [Int32.toInt_toInt16, Int.bmod_def]
    split <;> omega
  unfold congruentDifferenceMod2ToThe16
  generalize s2.toUInt32.toInt32 - s1.toUInt32.toInt32 = d at hd
  refine ⟨Int16.le_toInt _, Int.le_of_lt_add_one (Int16.toInt_lt _), ?_⟩
  simp only [htruncate, gt_iff_lt, Int32.lt_iff_toInt_lt, hhigh]
  by_cases habove : 32767 < d.toInt
  · rw [if_pos habove, toInt_sub_of_small] <;> omega
  · rw [if_neg habove]
    omega

theorem toInt_signOfInt32 (value : Int32) :
    ((signOfInt32 value).toInt ≤ 0 ↔ value.toInt ≤ 0) ∧
      (0 ≤ (signOfInt32 value).toInt ↔ 0 ≤ value.toInt) := by
  have hzero : (0 : Int32).toInt = 0 := rfl
  unfold signOfInt32
  simp only [gt_iff_lt, Int32.lt_iff_toInt_lt, hzero]
  by_cases hneg : value.toInt < 0
  · rw [if_pos hneg]
    have hsign : (-1 : Int8).toInt = -1 := rfl
    omega
  · rw [if_neg hneg]
    by_cases hpos : 0 < value.toInt
    · rw [if_pos hpos]
      have hsign : (1 : Int8).toInt = 1 := rfl
      omega
    · rw [if_neg hpos]
      have hsign : (0 : Int8).toInt = 0 := rfl
      omega

end SignalIOS.NumberUtil
