import Mathlib.Algebra.Ring.Nat
import Mathlib.Data.Nat.Bitwise
import Mathlib.Tactic.Ring

/-! Strings of bits in bytes: how they are read and written by their places, and the numbers that
are spelled in them. -/
namespace SignalIOS.Lib

variable {bytes bytes' : List UInt8} {i k n p : ℕ}

/-- The bit at a place. A byte has eight of them, the highest first. -/
def bitAt (bytes : List UInt8) (i : ℕ) : Bool :=
  (bytes.getD (i / 8) 0).toNat.testBit (7 - i % 8)

/-- So many bits from a place on. -/
def bitsFrom (bytes : List UInt8) (start : ℕ) : ℕ → List Bool
  | 0 => []
  | count + 1 => bitAt bytes start :: bitsFrom bytes (start + 1) count

def bitString (bytes : List UInt8) : List Bool := bitsFrom bytes 0 (8 * bytes.length)

/-- The low bits of a number, the highest first. -/
def fieldBits : ℕ → ℕ → List Bool
  | 0, _ => []
  | width + 1, value => value.testBit width :: fieldBits width value

/-- The number that bits spell after those of a number before. -/
def spell (d : ℕ) (bits : List Bool) : ℕ := bits.foldl (fun d bit => 2 * d + bit.toNat) d

/-- A byte in which only the bit of a place may be set. -/
def markAt (p : ℕ) (bit : Bool) : UInt8 := if bit then UInt8.ofNat (2 ^ (7 - p % 8)) else 0

section Reading

@[simp] theorem length_bitsFrom (bytes : List UInt8) (start count : ℕ) :
    (bitsFrom bytes start count).length = count := by
  induction count generalizing start with
  | zero => rfl
  | succ count ih => rw [bitsFrom, List.length_cons, ih]

theorem bitsFrom_add (bytes : List UInt8) (start m n : ℕ) :
    bitsFrom bytes start (m + n) = bitsFrom bytes start m ++ bitsFrom bytes (start + m) n := by
  induction m generalizing start with
  | zero => rw [Nat.zero_add, Nat.add_zero, bitsFrom, List.nil_append]
  | succ m ih =>
    have hstart : start + 1 + m = start + (m + 1) := by omega
    rw [Nat.add_right_comm, bitsFrom, ih, bitsFrom, List.cons_append, hstart]

/-- Only the bits that are read matter. -/
theorem bitsFrom_congr {start start' count : ℕ}
    (h : ∀ i < count, bitAt bytes (start + i) = bitAt bytes' (start' + i)) :
    bitsFrom bytes start count = bitsFrom bytes' start' count := by
  induction count generalizing start start' with
  | zero => rfl
  | succ count ih =>
    have hfirst : bitAt bytes start = bitAt bytes' start' := h 0 (Nat.succ_pos count)
    have hrest : ∀ i < count, bitAt bytes (start + 1 + i) = bitAt bytes' (start' + 1 + i) := by
      intro i hi
      have hnext := h (i + 1) (by omega)
      rwa [← Nat.add_assoc, ← Nat.add_assoc, Nat.add_right_comm, Nat.add_right_comm start'] at hnext
    rw [bitsFrom, bitsFrom, hfirst, ih hrest]

theorem bitAt_take (h : i < 8 * n) : bitAt (bytes.take n) i = bitAt bytes i := by
  have hbyte : i / 8 < n := by omega
  unfold bitAt
  rw [List.getD_eq_getElem?_getD, List.getElem?_take_of_lt hbyte, ← List.getD_eq_getElem?_getD]

theorem bitAt_append_left {behind : List UInt8} (h : i < 8 * bytes.length) :
    bitAt (bytes ++ behind) i = bitAt bytes i := by
  have hbyte : i / 8 < bytes.length := by omega
  unfold bitAt
  rw [List.getD_eq_getElem?_getD, List.getElem?_append_left hbyte, ← List.getD_eq_getElem?_getD]

end Reading

section Writing

theorem testBit_markAt (p j : ℕ) (bit : Bool) :
    (markAt p bit).toNat.testBit j = (bit && decide (j = 7 - p % 8)) := by
  cases bit with
  | false => simp [markAt]
  | true =>
    have hle : 7 - p % 8 ≤ 7 := Nat.sub_le _ _
    have hlt : 2 ^ (7 - p % 8) < 256 :=
      Nat.lt_of_le_of_lt (Nat.pow_le_pow_right (by omega) hle) (by decide)
    rw [markAt, if_pos rfl, UInt8.toNat_ofNat_of_lt' hlt, Nat.testBit_two_pow, Bool.true_and]
    exact decide_eq_decide.mpr eq_comm

/-- Setting a bit leaves the others alone. -/
theorem bitAt_set_or (hp : p / 8 < bytes.length) (bit : Bool) (i : ℕ) :
    bitAt (bytes.set (p / 8) (bytes.getD (p / 8) 0 ||| markAt p bit)) i =
      (bitAt bytes i || (decide (i = p) && bit)) := by
  unfold bitAt
  by_cases hbyte : i / 8 = p / 8
  · have hplace : (7 - i % 8 = 7 - p % 8) ↔ i = p := by omega
    rw [hbyte, List.getD_eq_getElem?_getD, List.getElem?_set_self hp, Option.getD_some,
      UInt8.toNat_or, Nat.testBit_or, testBit_markAt, decide_eq_decide.mpr hplace, Bool.and_comm bit]
  · have hne : i ≠ p := fun h => hbyte (by rw [h])
    rw [List.getD_eq_getElem?_getD, List.getElem?_set_ne (Ne.symm hbyte),
      ← List.getD_eq_getElem?_getD, decide_eq_false hne, Bool.false_and, Bool.or_false]

theorem bitAt_set_zero (hk : k < bytes.length) (i : ℕ) :
    bitAt (bytes.set k 0) i = (decide (i / 8 ≠ k) && bitAt bytes i) := by
  unfold bitAt
  by_cases hbyte : i / 8 = k
  · subst hbyte
    rw [List.getD_eq_getElem?_getD, List.getElem?_set_self hk]
    simp
  · rw [List.getD_eq_getElem?_getD, List.getElem?_set_ne (Ne.symm hbyte),
      ← List.getD_eq_getElem?_getD, decide_eq_true hbyte, Bool.true_and]

end Writing

section Fields

@[simp] theorem length_fieldBits (width value : ℕ) : (fieldBits width value).length = width := by
  induction width with
  | zero => rfl
  | succ width ih => rw [fieldBits, List.length_cons, ih]

theorem spell_cons (d : ℕ) (bit : Bool) (bits : List Bool) :
    spell d (bit :: bits) = spell (2 * d + bit.toNat) bits := rfl

/-- The number before moves up. -/
theorem spell_eq (d : ℕ) (bits : List Bool) :
    spell d bits = d * 2 ^ bits.length + spell 0 bits := by
  induction bits generalizing d with
  | nil => exact (Nat.mul_one d).symm
  | cons bit bits ih =>
    rw [spell_cons, spell_cons, ih, ih (2 * 0 + bit.toNat), List.length_cons, pow_succ]
    ring

/-- A field of a number spells what fits into it. -/
theorem spell_fieldBits (width value : ℕ) : spell 0 (fieldBits width value) = value % 2 ^ width := by
  induction width with
  | zero => rw [pow_zero, Nat.mod_one]; rfl
  | succ width ih =>
    have hbit : value % 2 ^ (width + 1) =
        value % 2 ^ width + 2 ^ width * (value.testBit width).toNat := by
      rw [Nat.mod_pow_succ, Nat.toNat_testBit]
    rw [fieldBits, spell_cons, spell_eq, ih, length_fieldBits, hbit, Nat.mul_zero, Nat.zero_add,
      Nat.mul_comm, Nat.add_comm]

end Fields
end SignalIOS.Lib
