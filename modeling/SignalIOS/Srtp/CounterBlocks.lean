import Mathlib.Data.Nat.Digits.Defs
import SignalIOS.Srtp.SecuredPackets

/-! The initialization vectors of packets without a source, and the counter blocks from them. -/
namespace SignalIOS.Srtp
open SignalIOS.Lib SignalIOS.Rtp

/-- The number that the bytes write. -/
def bigEndianValue (bytes : NSData) : ℕ := Nat.ofDigits 256 (bytes.reverse.map UInt8.toNat)

/-- The last `count` bytes of a number. -/
def bigEndianBytes (count n : ℕ) : NSData :=
  (List.range count).reverse.map fun i => UInt8.ofNat (n / 256 ^ i)

/-- Counter mode encrypts the vector and the numbers that follow it, one for every sixteen bytes. -/
def counterBlocks (iv : NSData) (length : ℕ) : List (BitVec 128) :=
  (List.range ((length + 15) / 16)).map fun i => BitVec.ofNat 128 (bigEndianValue iv + i)

theorem bigEndianValue_append (front back : NSData) :
    bigEndianValue (front ++ back) =
      bigEndianValue back + 256 ^ back.length * bigEndianValue front := by
  simp only [bigEndianValue, List.reverse_append, List.map_append, Nat.ofDigits_append,
    List.length_map, List.length_reverse]

theorem bigEndianValue_lt (bytes : NSData) : bigEndianValue bytes < 256 ^ bytes.length := by
  have hlt := Nat.ofDigits_lt_base_pow_length (b := 256) (l := bytes.reverse.map UInt8.toNat)
    (by decide) (by
      intro n hn
      obtain ⟨byte, -, rfl⟩ := List.mem_map.mp hn
      exact byte.toNat_lt)
  rwa [List.length_map, List.length_reverse] at hlt

theorem bigEndianValue_inj {bytes bytes' : NSData} (hlength : bytes.length = bytes'.length)
    (h : bigEndianValue bytes = bigEndianValue bytes') : bytes = bytes' := by
  have hdigits : bytes.reverse.map UInt8.toNat = bytes'.reverse.map UInt8.toNat := by
    apply Nat.ofDigits_inj_of_len_eq (b := 256) (by decide) (by simp [hlength])
    · intro n hn
      obtain ⟨byte, -, rfl⟩ := List.mem_map.mp hn
      exact byte.toNat_lt
    · intro n hn
      obtain ⟨byte, -, rfl⟩ := List.mem_map.mp hn
      exact byte.toNat_lt
    · exact h
  have hreverse := (List.map_inj_right fun _ _ => UInt8.toNat_inj.mp).mp hdigits
  exact List.reverse_inj.mp hreverse

theorem bigEndianBytes_succ (count n : ℕ) : bigEndianBytes (count + 1) n =
    UInt8.ofNat (n / 256 ^ count) :: bigEndianBytes count n := by
  rw [bigEndianBytes, List.range_succ, List.reverse_append, List.map_append]
  rfl

theorem length_bigEndianBytes (count n : ℕ) : (bigEndianBytes count n).length = count := by
  rw [bigEndianBytes, List.length_map, List.length_reverse, List.length_range]

theorem bigEndianValue_bigEndianBytes (count n : ℕ) :
    bigEndianValue (bigEndianBytes count n) = n % 256 ^ count := by
  induction count with
  | zero => exact (Nat.mod_one n).symm
  | succ count ih =>
    have hbyte : (UInt8.ofNat (n / 256 ^ count)).toNat = n / 256 ^ count % 256 := rfl
    rw [bigEndianBytes_succ, ← List.singleton_append, bigEndianValue_append, ih,
      length_bigEndianBytes, Nat.mod_pow_succ, ← hbyte]
    simp only [bigEndianValue, List.reverse_singleton, List.map_cons, List.map_nil,
      Nat.ofDigits_singleton]

theorem bigEndianBytes_mul (count n : ℕ) :
    bigEndianBytes (count + 2) (n * 65536) = bigEndianBytes count n ++ [0, 0] := by
  induction count with
  | zero =>
    have hlow : UInt8.ofNat (n * 65536) = 0 := by
      apply UInt8.toNat_inj.mp
      rw [UInt8.toNat_ofNat', UInt8.toNat_zero]
      omega
    have hhigh : UInt8.ofNat (n * 65536 / 256) = 0 := by
      apply UInt8.toNat_inj.mp
      rw [UInt8.toNat_ofNat', UInt8.toNat_zero]
      omega
    simp [bigEndianBytes, List.range_succ, hlow, hhigh]
  | succ count ih =>
    have hshift : n * 65536 / 256 ^ (count + 2) = n / 256 ^ count := by
      rw [Nat.pow_add, Nat.mul_comm (256 ^ count), ← Nat.div_div_eq_div_mul,
        Nat.mul_div_cancel n (by decide)]
    rw [Nat.add_right_comm, bigEndianBytes_succ, ih, hshift, bigEndianBytes_succ, List.cons_append]

theorem bigEndianBytes_of_lt {count n : ℕ} (h : n < 256 ^ count) (k : ℕ) :
    bigEndianBytes (count + k) n = List.replicate k 0 ++ bigEndianBytes count n := by
  induction k with
  | zero => rfl
  | succ k ih =>
    have hlt : n < 256 ^ (count + k) :=
      Nat.lt_of_lt_of_le h (Nat.pow_le_pow_right (by decide) (Nat.le_add_right count k))
    rw [← Nat.add_assoc, bigEndianBytes_succ, ih, Nat.div_eq_of_lt hlt, List.replicate_succ,
      List.cons_append]
    rfl

/-- What two lists are combined with tells them apart. -/
theorem zipWith_xor_inj {xs ys zs : NSData} (hys : ys.length = xs.length)
    (hzs : zs.length = xs.length)
    (h : xs.zipWith (· ^^^ ·) ys = xs.zipWith (· ^^^ ·) zs) : ys = zs := by
  induction xs generalizing ys zs with
  | nil => rw [List.length_eq_zero_iff.mp hys, List.length_eq_zero_iff.mp hzs]
  | cons x xs ih =>
    obtain ⟨y, ys, rfl⟩ := List.exists_cons_of_length_eq_add_one hys
    obtain ⟨z, zs, rfl⟩ := List.exists_cons_of_length_eq_add_one hzs
    rw [List.zipWith_cons_cons, List.zipWith_cons_cons, List.cons.injEq] at h
    have hhead : y = z := (UInt8.xor_right_inj x).mp h.1
    have htail : ys = zs := ih (Nat.succ.inj hys) (Nat.succ.inj hzs) h.2
    rw [hhead, htail]

namespace SrtpStream

/-- Without a source, the low 48 bits of the number are combined with the end of the salt, and two
bytes are left to count blocks. -/
theorem ivOf_eq {cipherIvSalt : NSData} (h : cipherIvSalt.length = ivSaltLength) {n : ℕ}
    (hn : n < 0x1000000000000) :
    ivOf cipherIvSalt 0 (Int64.ofNat n) = List.take 8 cipherIvSalt ++
      (List.drop 8 cipherIvSalt).zipWith (· ^^^ ·) (bigEndianBytes 6 n) ++ [0, 0] := by
  match cipherIvSalt, h with
  | [b0, b1, b2, b3, b4, b5, b6, b7, b8, b9, b10, b11, b12, b13], _ =>
    simp [ivOf, ivMask, ivLength, bigEndianBytes, List.range_succ]
    refine ⟨?_, ?_, ?_, ?_, ?_⟩ <;> apply UInt8.toNat_inj.mp <;>
      simp [Nat.shiftRight_eq_div_pow] <;> omega

/-- The vector is the salt, combined with the number above two bytes that count blocks. -/
theorem ivOf_eq_zipWith {cipherIvSalt : NSData} (h : cipherIvSalt.length = ivSaltLength) {n : ℕ}
    (hn : n < 0x1000000000000) : ivOf cipherIvSalt 0 (Int64.ofNat n) =
      (cipherIvSalt ++ [0, 0]).zipWith (· ^^^ ·) (bigEndianBytes 16 (n * 65536)) := by
  have hbytes : bigEndianBytes 16 (n * 65536) =
      List.replicate 8 0 ++ bigEndianBytes 6 n ++ [0, 0] := by
    have hlt : n < 256 ^ 6 := hn
    rw [bigEndianBytes_mul 14 n, bigEndianBytes_of_lt hlt 8]
  rw [ivOf_eq h hn, hbytes]
  match cipherIvSalt, h with
  | [b0, b1, b2, b3, b4, b5, b6, b7, b8, b9, b10, b11, b12, b13], _ =>
    simp [bigEndianBytes, List.range_succ, List.replicate_succ]

/-- The end of the salt, combined with the low 48 bits of the number. -/
def maskedSequence (cipherIvSalt : NSData) (n : ℕ) : NSData :=
  (List.drop 8 cipherIvSalt).zipWith (· ^^^ ·) (bigEndianBytes 6 n)

theorem length_maskedSequence {cipherIvSalt : NSData} (h : cipherIvSalt.length = ivSaltLength)
    (n : ℕ) : (maskedSequence cipherIvSalt n).length = 6 := by
  rw [maskedSequence, List.length_zipWith, List.length_drop, h, length_bigEndianBytes]
  rfl

theorem maskedSequence_inj {cipherIvSalt : NSData} (h : cipherIvSalt.length = ivSaltLength)
    {m n : ℕ} (hm : m < 0x1000000000000) (hn : n < 0x1000000000000)
    (heq : maskedSequence cipherIvSalt m = maskedSequence cipherIvSalt n) : m = n := by
  have hlength (k : ℕ) : (bigEndianBytes 6 k).length = (List.drop 8 cipherIvSalt).length := by
    rw [length_bigEndianBytes, List.length_drop, h]
    rfl
  have hbytes := zipWith_xor_inj (hlength m) (hlength n) heq
  have hvalue := congrArg bigEndianValue hbytes
  rw [bigEndianValue_bigEndianBytes, bigEndianValue_bigEndianBytes] at hvalue
  omega

theorem bigEndianValue_ivOf {cipherIvSalt : NSData} (h : cipherIvSalt.length = ivSaltLength)
    {n : ℕ} (hn : n < 0x1000000000000) :
    bigEndianValue (ivOf cipherIvSalt 0 (Int64.ofNat n)) =
      65536 * (bigEndianValue (maskedSequence cipherIvSalt n) +
        0x1000000000000 * bigEndianValue (List.take 8 cipherIvSalt)) := by
  have hmasked := length_maskedSequence h n
  have hzeros : bigEndianValue [0, 0] = 0 := rfl
  rw [ivOf_eq h hn, ← maskedSequence, bigEndianValue_append, bigEndianValue_append, hmasked,
    hzeros, Nat.zero_add]
  rfl

theorem ivOf_inj {cipherIvSalt : NSData} (h : cipherIvSalt.length = ivSaltLength) {m n : ℕ}
    (hm : m < 0x1000000000000) (hn : n < 0x1000000000000)
    (heq : ivOf cipherIvSalt 0 (Int64.ofNat m) = ivOf cipherIvSalt 0 (Int64.ofNat n)) : m = n := by
  rw [ivOf_eq h hm, ivOf_eq h hn, List.append_left_inj, List.append_right_inj] at heq
  exact maskedSequence_inj h hm hn heq

/-- Below 2^48, the number of a packet can be read from any of its counter blocks. -/
theorem disjoint_counterBlocks {cipherIvSalt : NSData} (h : cipherIvSalt.length = ivSaltLength)
    {m n : ℕ} (hm : m < 0x1000000000000) (hn : n < 0x1000000000000) (hne : m ≠ n)
    {length length' : ℕ} (hlength : length ≤ 0x100000) (hlength' : length' ≤ 0x100000) :
    (counterBlocks (ivOf cipherIvSalt 0 (Int64.ofNat m)) length).Disjoint
      (counterBlocks (ivOf cipherIvSalt 0 (Int64.ofNat n)) length') := by
  intro block hblock hblock'
  obtain ⟨i, hi, rfl⟩ := List.mem_map.mp hblock
  obtain ⟨j, hj, heq⟩ := List.mem_map.mp hblock'
  have hilt := List.mem_range.mp hi
  have hjlt := List.mem_range.mp hj
  have hvalue := congrArg BitVec.toNat heq
  simp only [BitVec.toNat_ofNat, bigEndianValue_ivOf h hm, bigEndianValue_ivOf h hn] at hvalue
  have hfront := bigEndianValue_lt (List.take 8 cipherIvSalt)
  have hmlt := bigEndianValue_lt (maskedSequence cipherIvSalt m)
  have hnlt := bigEndianValue_lt (maskedSequence cipherIvSalt n)
  have hlen : (List.take 8 cipherIvSalt).length = 8 := by
    rw [List.length_take, h]
    rfl
  rw [length_maskedSequence h] at hmlt hnlt
  rw [hlen] at hfront
  have hmasked : bigEndianValue (maskedSequence cipherIvSalt m) =
      bigEndianValue (maskedSequence cipherIvSalt n) := by
    omega
  have hbytes := bigEndianValue_inj
    ((length_maskedSequence h m).trans (length_maskedSequence h n).symm) hmasked
  exact hne (maskedSequence_inj h hm hn hbytes)

end SrtpStream
end SignalIOS.Srtp
