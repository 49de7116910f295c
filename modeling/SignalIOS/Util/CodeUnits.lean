import SignalIOS.Util.NSString

/-! Strings by their code units. Not every such string has an encoding in bytes. -/
namespace SignalIOS

/-- A string as Foundation holds it. The halves of a surrogate pair can be on their own. -/
abbrev CodeUnits := List UInt16

namespace CodeUnits

def isHighSurrogate (unit : UInt16) : Bool := 0xD800 ≤ unit && unit ≤ 0xDBFF

def isLowSurrogate (unit : UInt16) : Bool := 0xDC00 ≤ unit && unit ≤ 0xDFFF

def combined (high low : UInt16) : Char :=
  Char.ofNat (0x10000 + (high.toNat - 0xD800) * 0x400 + (low.toNat - 0xDC00))

/-- The characters of the string, where all surrogates are paired. -/
def characters : CodeUnits → Option NSString
  | [] => some []
  | unit :: units =>
    if isHighSurrogate unit then
      match units with
      | low :: units =>
        if isLowSurrogate low then (characters units).map (combined unit low :: ·) else none
      | [] => none
    else if isLowSurrogate unit then none
    else (characters units).map (Char.ofNat unit.toNat :: ·)

/-- `dataUsingEncoding:` returns `nil` for a surrogate that is not one of a pair. -/
def encodedAsUtf8 (text : CodeUnits) : Throws NSData :=
  match text.characters with
  | none => .error (.operationFailed "Not a UTF8 string.")
  | some characters => .ok characters.encodedAsUtf8

def characterAtIndex (text : CodeUnits) (index : ℕ) : Throws UInt16 :=
  match text[index]? with
  | none => .error .nsRangeException
  | some unit => .ok unit

def substringWithRange (text : CodeUnits) (location length : ℕ) : Throws CodeUnits :=
  if location + length ≤ text.length then .ok ((text.drop location).take length)
  else .error .nsRangeException

/-- `dataUsingEncoding:` returns `nil` for a string that has other characters. -/
def encodedAsAscii (text : CodeUnits) : Throws NSData :=
  if text.all (· < 0x80) then .ok (text.map UInt16.toUInt8)
  else .error (.operationFailed "Not an ascii string.")

def ofChar (c : Char) : CodeUnits :=
  if c.toNat < 0x10000 then [UInt16.ofNat c.toNat]
  else [UInt16.ofNat (0xD800 + (c.toNat - 0x10000) / 0x400),
    UInt16.ofNat (0xDC00 + (c.toNat - 0x10000) % 0x400)]

def ofString (text : NSString) : CodeUnits := text.flatMap ofChar

theorem isHighSurrogate_iff (unit : UInt16) :
    isHighSurrogate unit = true ↔ 0xD800 ≤ unit.toNat ∧ unit.toNat ≤ 0xDBFF := by
  simp [isHighSurrogate, UInt16.le_iff_toNat_le]

theorem isLowSurrogate_iff (unit : UInt16) :
    isLowSurrogate unit = true ↔ 0xDC00 ≤ unit.toNat ∧ unit.toNat ≤ 0xDFFF := by
  simp [isLowSurrogate, UInt16.le_iff_toNat_le]

theorem toNat_ofNat_of_lt {n : ℕ} (h : n < 0x10000) : (UInt16.ofNat n).toNat = n :=
  Nat.mod_eq_of_lt h

theorem characters_single {unit : UInt16} {units : CodeUnits} (hhigh : ¬ isHighSurrogate unit = true)
    (hlow : ¬ isLowSurrogate unit = true) :
    characters (unit :: units) = (characters units).map (Char.ofNat unit.toNat :: ·) := by
  rw [characters.eq_def]
  simp only [if_neg hhigh, if_neg hlow]

theorem characters_pair {high low : UInt16} {units : CodeUnits}
    (hhigh : isHighSurrogate high = true) (hlow : isLowSurrogate low = true) :
    characters (high :: low :: units) = (characters units).map (combined high low :: ·) := by
  rw [characters, if_pos hhigh, if_pos hlow]

theorem characters_ofChar_append (c : Char) (units : CodeUnits) :
    characters (ofChar c ++ units) = (characters units).map (c :: ·) := by
  have hvalid : c.toNat < 0xD800 ∨ 0xDFFF < c.toNat ∧ c.toNat < 0x110000 := c.valid
  unfold ofChar
  by_cases hsmall : c.toNat < 0x10000
  · have hunit := toNat_ofNat_of_lt hsmall
    have hhigh : ¬ isHighSurrogate (UInt16.ofNat c.toNat) = true := by
      rw [isHighSurrogate_iff, hunit]
      omega
    have hlow : ¬ isLowSurrogate (UInt16.ofNat c.toNat) = true := by
      rw [isLowSurrogate_iff, hunit]
      omega
    rw [if_pos hsmall, List.singleton_append, characters_single hhigh hlow, hunit,
      Char.ofNat_toNat]
  · have hhigh := toNat_ofNat_of_lt (n := 0xD800 + (c.toNat - 0x10000) / 0x400) (by omega)
    have hlow := toNat_ofNat_of_lt (n := 0xDC00 + (c.toNat - 0x10000) % 0x400) (by omega)
    have hcombined : combined (UInt16.ofNat (0xD800 + (c.toNat - 0x10000) / 0x400))
        (UInt16.ofNat (0xDC00 + (c.toNat - 0x10000) % 0x400)) = c := by
      have hvalue : 0x10000 + (0xD800 + (c.toNat - 0x10000) / 0x400 - 0xD800) * 0x400 +
          (0xDC00 + (c.toNat - 0x10000) % 0x400 - 0xDC00) = c.toNat := by omega
      rw [combined, hhigh, hlow, hvalue, Char.ofNat_toNat]
    rw [if_neg hsmall, List.cons_append, List.singleton_append, characters_pair ?_ ?_, hcombined]
    · rw [isHighSurrogate_iff, hhigh]
      omega
    · rw [isLowSurrogate_iff, hlow]
      omega

theorem characters_ofString (text : NSString) : (ofString text).characters = some text := by
  induction text with
  | nil => rfl
  | cons c text ih =>
    rw [ofString, List.flatMap_cons, characters_ofChar_append, ← ofString, ih]
    rfl

/-- A string of characters has an encoding. -/
theorem encodedAsUtf8_ofString (text : NSString) :
    (ofString text).encodedAsUtf8 = .ok text.encodedAsUtf8 := by
  rw [encodedAsUtf8, characters_ofString]

theorem ofString_append (text text' : NSString) :
    ofString (text ++ text') = ofString text ++ ofString text' := List.flatMap_append

end CodeUnits
end SignalIOS
