import Mathlib.Algebra.Ring.Int.Defs
import SignalIOS.Util.NSString

/-! Numbers with a sign as strings, and what `longLongValue` reads in those. -/
namespace SignalIOS.NSString

/-- `stringValue` of a number that has a sign. -/
def ofInt64 (n : Int64) : NSString :=
  if n.toInt < 0 then '-' :: ofNumber n.toInt.natAbs else ofNumber n.toInt.natAbs

/-- Texts that do not begin with a number are read as 0, numbers beyond `long long` as the nearest
one of it. -/
def longLongValue (text : NSString) : Int64 :=
  let number := text.dropWhile isWhitespace
  let magnitude (digits : NSString) : ℤ := Nat.ofDigitChars 10 (digits.takeWhile Char.isDigit) 0
  match number with
  | '-' :: digits => Int64.ofIntClamp (-magnitude digits)
  | '+' :: digits => Int64.ofIntClamp (magnitude digits)
  | digits => Int64.ofIntClamp (magnitude digits)

theorem magnitude_ofNumber (n : ℕ) :
    Nat.ofDigitChars 10 ((ofNumber n).takeWhile Char.isDigit) 0 = n := by
  have hdigits : (ofNumber n).takeWhile Char.isDigit = ofNumber n :=
    List.takeWhile_eq_self_iff.mpr fun _ => isDigit_of_mem_ofNumber
  rw [hdigits, ofDigitChars_ofNumber]

theorem longLongValue_ofNumber (n : ℕ) : (ofNumber n).longLongValue = Int64.ofIntClamp n := by
  have hspace : (ofNumber n).dropWhile isWhitespace = ofNumber n := by
    rw [List.dropWhile_eq_self_iff]
    intro hpos
    have hfirst := (isTrimmed_ofNumber n).head (ofNumber n)[0] (List.head?_eq_getElem?.trans
      (List.getElem?_eq_getElem hpos))
    rw [hfirst]
    exact Bool.false_ne_true
  unfold longLongValue
  rw [hspace]
  dsimp only
  split
  case h_1 digits h =>
    exact absurd (h ▸ List.mem_cons_self) (notMem_ofNumber (n := n) (c := '-') (by decide))
  case h_2 digits h =>
    exact absurd (h ▸ List.mem_cons_self) (notMem_ofNumber (n := n) (c := '+') (by decide))
  case h_3 => rw [magnitude_ofNumber]

theorem longLongValue_minus_ofNumber (n : ℕ) :
    longLongValue ('-' :: ofNumber n) = Int64.ofIntClamp (-n) := by
  have hminus : longLongValue ('-' :: ofNumber n) = Int64.ofIntClamp
      (-(Nat.ofDigitChars 10 ((ofNumber n).takeWhile Char.isDigit) 0 : ℕ)) := rfl
  rw [hminus, magnitude_ofNumber]

/-- A number is read as it is written. -/
theorem longLongValue_ofInt64 (n : Int64) : (ofInt64 n).longLongValue = n := by
  have hclamp : Int64.ofIntClamp n.toInt = n := by
    rw [← Int64.toInt_inj, Int64.toInt_ofIntClamp n.minValue_le_toInt n.toInt_le]
  unfold ofInt64
  split_ifs with hsign
  · have habs : -(n.toInt.natAbs : ℤ) = n.toInt := by omega
    rw [longLongValue_minus_ofNumber, habs, hclamp]
  · have habs : (n.toInt.natAbs : ℤ) = n.toInt := by omega
    rw [longLongValue_ofNumber, habs, hclamp]

theorem notMem_ofInt64 (n : Int64) : ':' ∉ ofInt64 n := by
  have hdigits := notMem_ofNumber (n := n.toInt.natAbs) (c := ':') (by decide)
  unfold ofInt64
  split_ifs
  · intro hmem
    rcases List.mem_cons.mp hmem with h | h
    · exact absurd h (by decide)
    · exact hdigits h
  · exact hdigits

end SignalIOS.NSString
