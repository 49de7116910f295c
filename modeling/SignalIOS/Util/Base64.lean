import Mathlib.Algebra.Order.Group.Nat
import Mathlib.Data.List.GetD
import Mathlib.Data.List.Nodup
import SignalIOS.Util.NSString

/-! `encodedAsBase64`: bytes as bits, bits as words of six, words as characters. -/
namespace SignalIOS
namespace NSData

/-- The bits of a byte, the highest first. -/
def byteBits (byte : UInt8) : List Bool := (List.range 8).reverse.map byte.toNat.testBit

def bits (data : NSData) : List Bool := data.flatMap byteBits

def base64Chars : List Char :=
  "ABCDEFGHIJKLMNOPQRSTUVWXYZabcdefghijklmnopqrstuvwxyz0123456789+/".toList

def base64WordCount (bitCount : ℕ) : ℕ :=
  if bitCount / 6 * 6 < bitCount then bitCount / 6 + 1 else bitCount / 6

/-- A number by the bits that are set in it. -/
def ofBits (count : ℕ) (bit : ℕ → Bool) : ℕ :=
  (List.range count).foldl (fun word j => if bit j then word ||| 1 <<< j else word) 0

/-- The bits past the end default to 0. -/
def base64Word (bits : List Bool) (i : ℕ) : ℕ :=
  ofBits 6 fun j => bits.getD (i * 6 + 6 - 1 - j) false

def encodedAsBase64 (data : NSData) : NSString :=
  (List.range (base64WordCount data.bits.length)).map
      (fun i => base64Chars.getD (base64Word data.bits i) default) ++
    List.replicate (data.bits.length % 3) '='

section
variable {data data' : NSData}

theorem testBit_ofBits (count : ℕ) (bit : ℕ → Bool) (j : ℕ) :
    (ofBits count bit).testBit j = (decide (j < count) && bit j) := by
  induction count with
  | zero => simp [ofBits]
  | succ count ih =>
    have hsucc : ofBits (count + 1) bit =
        if bit count then ofBits count bit ||| 1 <<< count else ofBits count bit := by
      unfold ofBits
      rw [List.range_succ, List.foldl_append]
      rfl
    rw [hsucc]
    by_cases hj : j = count
    · subst hj
      cases hbit : bit j <;> simp [ih, Nat.testBit_shiftLeft]
    · have hlt : (j < count + 1) ↔ (j < count) := by omega
      cases hbit : bit count
      · simp [ih, hlt]
      · have hfalse : (2 ^ count).testBit j = false :=
          Nat.testBit_two_pow_of_ne (Ne.symm hj)
        simp [ih, hlt, Nat.shiftLeft_eq, hfalse]

theorem base64Word_lt (bits : List Bool) (i : ℕ) : base64Word bits i < 64 := by
  apply Nat.lt_pow_two_of_testBit (n := 6)
  intro j hj
  rw [base64Word, testBit_ofBits, decide_eq_false (Nat.not_lt.mpr hj), Bool.false_and]

/-- Every bit is one of the word that it falls in. -/
theorem testBit_base64Word (bits : List Bool) (k : ℕ) :
    (base64Word bits (k / 6)).testBit (5 - k % 6) = bits.getD k false := by
  have hindex : k / 6 * 6 + 6 - 1 - (5 - k % 6) = k := by omega
  rw [base64Word, testBit_ofBits, decide_eq_true (by omega), Bool.true_and, hindex]

theorem nodup_base64Chars : base64Chars.Nodup := by decide +kernel

theorem notMem_base64Chars : '=' ∉ base64Chars := by decide

theorem length_bits (data : NSData) : data.bits.length = 8 * data.length := by
  induction data with
  | nil => rfl
  | cons byte data ih =>
    rw [bits, List.flatMap_cons, List.length_append, ← bits, ih, List.length_cons]
    simp only [byteBits, List.length_map, List.length_reverse, List.length_range]
    omega

theorem byteBits_inj {byte byte' : UInt8} (h : byteBits byte = byteBits byte') :
    byte = byte' := by
  apply UInt8.toNat_inj.mp
  apply Nat.eq_of_testBit_eq
  intro j
  by_cases hj : j < 8
  · exact List.map_inj_left.mp h j (List.mem_reverse.mpr (List.mem_range.mpr hj))
  · have hfalse : ∀ byte : UInt8, byte.toNat.testBit j = false := fun byte =>
      Nat.testBit_lt_two_pow
        (Nat.lt_of_lt_of_le byte.toNat_lt (Nat.pow_le_pow_right (by decide) (Nat.not_lt.mp hj)))
    rw [hfalse, hfalse]

theorem bits_inj (h : data.bits = data'.bits) : data = data' := by
  induction data generalizing data' with
  | nil =>
    have hlength := congrArg List.length h
    rw [length_bits, length_bits, List.length_nil] at hlength
    exact (List.length_eq_zero_iff.mp (by omega)).symm
  | cons byte data ih =>
    cases data' with
    | nil =>
      have hlength := congrArg List.length h
      simp [length_bits] at hlength
    | cons byte' data' =>
      have hbyte : (byteBits byte).length = (byteBits byte').length := by simp [byteBits]
      obtain ⟨hfirst, hlater⟩ := List.append_inj h hbyte
      rw [byteBits_inj hfirst, ih hlater]

/-- What comes before the padding are the characters of the words. -/
theorem takeWhile_encodedAsBase64 (data : NSData) :
    data.encodedAsBase64.takeWhile (· ≠ '=') =
      (List.range (base64WordCount data.bits.length)).map
        fun i => base64Chars.getD (base64Word data.bits i) default := by
  have hchar : ∀ i, base64Chars.getD (base64Word data.bits i) default ≠ '=' := by
    intro i heq
    have hlt : base64Word data.bits i < base64Chars.length := base64Word_lt _ i
    rw [List.getD_eq_getElem _ _ hlt] at heq
    exact notMem_base64Chars (heq ▸ List.getElem_mem hlt)
  rw [encodedAsBase64, List.takeWhile_append_of_pos, List.takeWhile_replicate]
  · simp
  · intro c hc
    obtain ⟨i, -, rfl⟩ := List.mem_map.mp hc
    exact decide_eq_true (hchar i)

theorem encodedAsBase64_inj (h : data.encodedAsBase64 = data'.encodedAsBase64) : data = data' := by
  have hchars := congrArg (List.takeWhile (· ≠ '=')) h
  rw [takeWhile_encodedAsBase64, takeWhile_encodedAsBase64] at hchars
  have hcount : base64WordCount data.bits.length = base64WordCount data'.bits.length := by
    simpa using congrArg List.length hchars
  have hlength : data.bits.length = data'.bits.length := by
    rw [length_bits, length_bits] at hcount ⊢
    unfold base64WordCount at hcount
    split_ifs at hcount <;> omega
  have hword : ∀ i < base64WordCount data.bits.length,
      base64Word data.bits i = base64Word data'.bits i := by
    intro i hi
    rw [← hcount, List.map_inj_left] at hchars
    have hchar := hchars i (List.mem_range.mpr hi)
    rw [List.getD_eq_getElem _ _ (base64Word_lt _ i),
      List.getD_eq_getElem _ _ (base64Word_lt _ i)] at hchar
    exact nodup_base64Chars.getElem_inj_iff.mp hchar
  apply bits_inj
  apply List.ext_getElem hlength
  intro k hk hk'
  have hbit : data.bits.getD k false = data'.bits.getD k false := by
    rw [← testBit_base64Word, ← testBit_base64Word, hword]
    unfold base64WordCount
    split_ifs <;> omega
  rwa [List.getD_eq_getElem _ _ hk, List.getD_eq_getElem _ _ hk'] at hbit

example : encodedAsBase64 [77, 97] = "TWE=".toList := by decide

end

end NSData
end SignalIOS
