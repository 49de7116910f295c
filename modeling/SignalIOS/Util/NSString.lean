import Mathlib.Algebra.Ring.Nat
import Mathlib.Data.List.DropRight
import Mathlib.Data.Rat.Defs
import SignalIOS.Lib.Substrings
import SignalIOS.Util.NSData

/-! `NSString`: its encoding in bytes, its parts, and the numbers it is read as. -/
namespace SignalIOS
open SignalIOS.Lib

/-- A string by its Unicode characters. None of them is half of a surrogate pair. -/
abbrev NSString := List Char

namespace NSData

def tryFindIndexOf (data subData : NSData) : Option ℕ :=
  if subData.length > data.length then none
  else (List.range (data.length - subData.length + 1)).find? fun i =>
    (data.drop i).take subData.length = subData

end NSData

namespace NSString

/-- How many code units UTF-16 has for a character. -/
def codeUnits (c : Char) : ℕ := if c.toNat < 0x10000 then 1 else 2

/-- `length`, which counts the code units. -/
def utf16Length (text : NSString) : ℕ := (text.map codeUnits).sum

def encodedAsUtf8 (text : NSString) : NSData := text.flatMap String.utf8EncodeChar

/-- `whitespaceCharacterSet`: the Unicode category Zs, and the tab. -/
def isWhitespace (c : Char) : Bool :=
  c.toNat ∈ [0x09, 0x20, 0xA0, 0x1680, 0x202F, 0x205F, 0x3000] ||
    0x2000 ≤ c.toNat && c.toNat ≤ 0x200A

def trimWhitespace (text : NSString) : NSString :=
  (text.dropWhile isWhitespace).rdropWhile isWhitespace

def componentsSeparatedByString (text separator : NSString) : List NSString :=
  splitOn separator text

/-- `stringValue` and `description` of a number. -/
def ofNumber (n : ℕ) : NSString := Nat.toDigits 10 n

end NSString

def NSData.decodedAsUtf8 (data : NSData) : Throws NSString :=
  if data.length = 0 then .ok []
  else match data.toByteArray.utf8Decode? with
    | none => .error (.operationFailed "Invalid UTF8 data.")
    | some characters => .ok characters.toList

theorem NSString.encodedAsUtf8_eq_nil {text : NSString} : text.encodedAsUtf8 = [] ↔ text = [] := by
  cases text <;> simp [encodedAsUtf8]

namespace NSData

variable {data subData rest : NSData} {i : ℕ}

theorem tryFindIndexOf_eq_some (hsubData : subData ≠ []) :
    data.tryFindIndexOf subData = some i ↔ FirstAt subData data i := by
  have hoccurs : ∀ j, (data.drop j).take subData.length = subData ↔ OccursAt subData data j :=
    fun j => by rw [OccursAt, List.prefix_iff_eq_take, eq_comm]
  unfold tryFindIndexOf
  split_ifs with hlength
  · constructor
    · intro h
      cases h
    intro h
    have hle := h.occurs.le_length hsubData
    omega
  · rw [List.find?_range_eq_some]
    simp only [hoccurs, decide_eq_true_eq, List.mem_range, Bool.not_eq_true', decide_eq_false_iff_not]
    constructor
    · intro ⟨hi, _, hbefore⟩
      exact ⟨hi, hbefore⟩
    · intro h
      have hle := h.occurs.le_length hsubData
      exact ⟨h.occurs, by omega, h.not_before⟩

theorem isSome_tryFindIndexOf (hsubData : subData ≠ []) :
    data.tryFindIndexOf subData ≠ none ↔ subData <:+: data := by
  rw [← exists_firstAt_iff, Option.ne_none_iff_exists']
  exact exists_congr fun i => tryFindIndexOf_eq_some hsubData

theorem utf8Decode?_eq_some {characters : Array Char} :
    data.toByteArray.utf8Decode? = some characters ↔
      NSString.encodedAsUtf8 characters.toList = data := by
  rw [← List.toByteArray_inj]
  constructor
  · intro h
    have hget := ByteArray.utf8Encode_get_utf8Decode? (h := Option.isSome_of_eq_some h)
    simp only [h, Option.get_some] at hget
    exact hget
  · intro h
    rw [← h]
    exact List.utf8Decode?_utf8Encode (l := characters.toList)

theorem decodedAsUtf8_eq_ok {text : NSString} :
    data.decodedAsUtf8 = .ok text ↔ text.encodedAsUtf8 = data := by
  unfold decodedAsUtf8
  split_ifs with hempty
  · cases List.length_eq_zero_iff.mp hempty
    rw [NSString.encodedAsUtf8_eq_nil]
    constructor
    · intro h
      cases h
      rfl
    · intro h
      rw [h]
  · constructor
    · intro h
      split at h
      · cases h
      · rename_i characters hdecode
        cases h
        exact utf8Decode?_eq_some.mp hdecode
    · intro h
      have hdecode : data.toByteArray.utf8Decode? = some text.toArray :=
        utf8Decode?_eq_some.mpr h
      rw [hdecode]

/-- Sent to `nil`, the message returns `nil`. -/
theorem mapM_decodedAsUtf8_eq_ok {optionalData : Option NSData} {optionalText : Option NSString} :
    optionalData.mapM decodedAsUtf8 = .ok optionalText ↔
      optionalData = optionalText.map NSString.encodedAsUtf8 := by
  cases optionalData with
  | none =>
    have hmapM : (none : Option NSData).mapM decodedAsUtf8 = .ok none := rfl
    rw [hmapM]
    cases optionalText <;> simp
  | some data =>
    have hmapM : (some data).mapM decodedAsUtf8 = some <$> data.decodedAsUtf8 := rfl
    rw [hmapM, map_eq_pure_bind, Throws.bind_eq_ok]
    simp only [Throws.pure_eq_ok, decodedAsUtf8_eq_ok]
    cases optionalText <;> simp [eq_comm]

/-- The other bytes are reported to the caller. -/
theorem description_of_decodedAsUtf8 {e : Exception} (h : data.decodedAsUtf8 = .error e) :
    e = .operationFailed "Invalid UTF8 data." := by
  unfold decodedAsUtf8 at h
  split_ifs at h
  split at h
  · exact (Except.error.inj h).symm
  · cases h

end NSData

namespace NSString

variable {text text' : NSString} {c d : Char}

theorem encodedAsUtf8_append (text text' : NSString) :
    encodedAsUtf8 (text ++ text') = text.encodedAsUtf8 ++ text'.encodedAsUtf8 :=
  List.flatMap_append

theorem encodedAsUtf8_cons (c : Char) (text : NSString) :
    encodedAsUtf8 (c :: text) = String.utf8EncodeChar c ++ text.encodedAsUtf8 :=
  List.flatMap_cons

theorem utf8EncodeChar_of_lt (hc : c.toNat < 128) :
    String.utf8EncodeChar c = [c.toNat.toUInt8] := by
  unfold String.utf8EncodeChar
  rw [if_pos (by exact Nat.le_of_lt_succ hc)]
  rfl

/-- A character beyond ASCII has no byte of ASCII. -/
theorem le_of_mem_utf8EncodeChar (hc : 128 ≤ c.toNat) {byte : UInt8}
    (h : byte ∈ String.utf8EncodeChar c) : 128 ≤ byte.toNat := by
  have hv : ¬ c.val.toNat ≤ 127 := Nat.not_le.mpr hc
  have hbyte : ∀ n, byte = UInt8.ofNat n → 128 ≤ n → n < 256 → 128 ≤ byte.toNat := by
    intro n hn hlow hhigh
    rw [hn, UInt8.toNat_ofNat', Nat.mod_eq_of_lt hhigh]
    exact hlow
  unfold String.utf8EncodeChar at h
  dsimp only at h
  rw [if_neg hv] at h
  split_ifs at h <;> simp only [List.mem_cons, List.not_mem_nil, or_false] at h
  · rcases h with h | h <;> exact hbyte _ h (by omega) (by omega)
  · rcases h with h | h | h <;> exact hbyte _ h (by omega) (by omega)
  · rcases h with h | h | h | h <;> exact hbyte _ h (by omega) (by omega)

/-- The bytes of ASCII stand for its characters, wherever they are. -/
theorem mem_encodedAsUtf8 (hc : c.toNat < 128) :
    c.toNat.toUInt8 ∈ text.encodedAsUtf8 ↔ c ∈ text := by
  unfold encodedAsUtf8
  rw [List.mem_flatMap]
  constructor
  · intro ⟨d, hd, hbyte⟩
    by_cases hascii : d.toNat < 128
    · rw [utf8EncodeChar_of_lt hascii, List.mem_singleton] at hbyte
      have heq : c.toNat = d.toNat := by
        have hnat := congrArg UInt8.toNat hbyte
        simp only [Nat.toUInt8, UInt8.toNat_ofNat'] at hnat
        omega
      rw [Char.toNat_inj.mp heq]
      exact hd
    · have hle := le_of_mem_utf8EncodeChar (Nat.not_lt.mp hascii) hbyte
      simp only [Nat.toUInt8, UInt8.toNat_ofNat'] at hle
      omega
  · intro hmem
    refine ⟨c, hmem, ?_⟩
    rw [utf8EncodeChar_of_lt hc]
    exact List.mem_singleton_self _

theorem codeUnits_le_length (c : Char) : codeUnits c ≤ (String.utf8EncodeChar c).length := by
  have hval : c.val.toNat = c.toNat := rfl
  unfold codeUnits String.utf8EncodeChar
  dsimp only
  split_ifs <;> simp
  omega

theorem codeUnits_eq_length : codeUnits c = (String.utf8EncodeChar c).length ↔ c.toNat < 128 := by
  have hval : c.val.toNat = c.toNat := rfl
  unfold codeUnits String.utf8EncodeChar
  dsimp only
  split_ifs <;> simp <;> omega

/-- `Content-Length` counts code units where bytes are sent. There are never more of them. -/
theorem utf16Length_le_length (text : NSString) : text.utf16Length ≤ text.encodedAsUtf8.length := by
  induction text with
  | nil => exact Nat.le_refl 0
  | cons c text ih =>
    rw [encodedAsUtf8_cons, List.length_append]
    exact Nat.add_le_add (codeUnits_le_length c) ih

theorem utf16Length_eq_length :
    text.utf16Length = text.encodedAsUtf8.length ↔ ∀ c ∈ text, c.toNat < 128 := by
  induction text with
  | nil => simp [utf16Length, encodedAsUtf8]
  | cons c text ih =>
    have hc := codeUnits_le_length c
    have htext := utf16Length_le_length text
    have hcons : utf16Length (c :: text) = codeUnits c + utf16Length text := rfl
    rw [hcons, encodedAsUtf8_cons, List.length_append, List.forall_mem_cons, ← ih,
      ← codeUnits_eq_length]
    omega

theorem encodedAsUtf8_intercalate (separator : NSString) (parts : List NSString) :
    encodedAsUtf8 (separator.intercalate parts) =
      separator.encodedAsUtf8.intercalate (parts.map encodedAsUtf8) := by
  induction parts with
  | nil => rfl
  | cons part parts ih =>
    by_cases h : parts = []
    · subst h
      simp
    · rw [List.intercalate_cons_of_ne_nil h, encodedAsUtf8_append, encodedAsUtf8_append, ih,
        List.map_cons, List.intercalate_cons_of_ne_nil (by simpa using h)]

/-- No whitespace stands at either end. -/
structure IsTrimmed (text : NSString) : Prop where
  head : ∀ c ∈ text.head?, isWhitespace c = false
  last : ∀ c ∈ text.getLast?, isWhitespace c = false

theorem IsTrimmed.trimWhitespace (h : text.IsTrimmed) : text.trimWhitespace = text := by
  have hhead : text.dropWhile isWhitespace = text := by
    cases text with
    | nil => rfl
    | cons c text =>
      apply List.dropWhile_cons_of_neg
      rw [h.head c rfl]
      exact Bool.false_ne_true
  rw [NSString.trimWhitespace, hhead, List.rdropWhile_eq_self_iff]
  intro hne
  rw [h.last _ (List.getLast?_eq_getLast_of_ne_nil hne)]
  exact Bool.false_ne_true

theorem ofNumber_ne_nil (n : ℕ) : ofNumber n ≠ [] := Nat.toDigits_ne_nil

theorem isDigit_of_mem_ofNumber {n : ℕ} (h : c ∈ ofNumber n) : c.isDigit = true :=
  Nat.isDigit_of_mem_toDigits (by decide) (by decide) h

theorem ofDigitChars_ofNumber (n : ℕ) : Nat.ofDigitChars 10 (ofNumber n) 0 = n :=
  Nat.ofDigitChars_ten_toDigits

/-- A digit is no whitespace, and no line break or colon either. -/
theorem digit_of_mem_ofNumber {n : ℕ} (h : c ∈ ofNumber n) : 48 ≤ c.toNat ∧ c.toNat ≤ 57 := by
  have hdigit := isDigit_of_mem_ofNumber h
  simp only [Char.isDigit, Bool.and_eq_true, decide_eq_true_eq, ge_iff_le,
    UInt32.le_iff_toNat_le] at hdigit
  exact hdigit

theorem notMem_ofNumber {n : ℕ} (h : c.toNat < 48 ∨ 57 < c.toNat) : c ∉ ofNumber n := by
  intro hmem
  have hdigit := digit_of_mem_ofNumber hmem
  omega

theorem isTrimmed_ofNumber (n : ℕ) : (ofNumber n).IsTrimmed := by
  have hdigits : ∀ c ∈ ofNumber n, isWhitespace c = false := by
    intro c hc
    have hdigit := digit_of_mem_ofNumber hc
    simp only [isWhitespace, List.mem_cons, List.not_mem_nil, or_false, Bool.or_eq_false_iff,
      decide_eq_false_iff_not, Bool.and_eq_false_iff]
    omega
  constructor
  · intro c hc
    exact hdigits c (List.mem_of_mem_head? hc)
  · intro c hc
    exact hdigits c (List.mem_of_mem_getLast? hc)

theorem IsTrimmed.trimWhitespace_space (h : text.IsTrimmed) :
    NSString.trimWhitespace (' ' :: text) = text := h.trimWhitespace

end NSString
/-- What Foundation makes of a text that should be a number. -/
class NumberReading where
  /-- `numberFromString:` of a formatter in decimal style finds a number. It follows the locale of
  the device. -/
  numberFromString : NSString → Bool
  /-- `decimalNumberWithString:`. `none` is `notANumber`. -/
  decimalNumberWithString : NSString → Option ℚ

section
variable [NumberReading]
open NumberReading

/-- An integer that is written plainly is read as it is. -/
class LawfulNumberReading : Prop where
  numberFromString_ofNumber (n : UInt64) : numberFromString (.ofNumber n.toNat) = true
  decimalNumberWithString_ofNumber (n : UInt64) :
    decimalNumberWithString (.ofNumber n.toNat) = some (n.toNat : ℚ)

/-- The numbers that `decimalNumberWithString` makes. -/
abbrev NSNumber := Option ℚ

def NSNumber.unsignedIntegerValue (number : NSNumber) : UInt64 :=
  match number with
  | none => 0
  | some value => UInt64.ofNat value.floor.toNat

def NSNumber.hasUnsignedIntegerValue (number : NSNumber) : Bool :=
  number = some (number.unsignedIntegerValue.toNat : ℚ)

namespace NSString

def tryParseAsDecimalNumber (text : NSString) : Option NSNumber :=
  if numberFromString text then some (decimalNumberWithString text) else none

/-- The number by its `unsignedIntegerValue`, the one property of it that is used. -/
def tryParseAsUnsignedInteger (text : NSString) : Option UInt64 := do
  let value ← text.tryParseAsDecimalNumber
  if value.hasUnsignedIntegerValue then some value.unsignedIntegerValue else none

theorem tryParseAsUnsignedInteger_ofNumber [LawfulNumberReading] (n : UInt64) :
    (ofNumber n.toNat).tryParseAsUnsignedInteger = some n := by
  have hvalue : NSNumber.unsignedIntegerValue (some (n.toNat : ℚ)) = n := by
    have hfloor : (n.toNat : ℚ).floor = n.toNat := by
      rw [← Rat.intCast_natCast, Rat.floor_intCast]
    rw [NSNumber.unsignedIntegerValue, hfloor, Int.toNat_natCast, UInt64.ofNat_toNat]
  unfold tryParseAsUnsignedInteger tryParseAsDecimalNumber NSNumber.hasUnsignedIntegerValue
  rw [if_pos (LawfulNumberReading.numberFromString_ofNumber n),
    LawfulNumberReading.decimalNumberWithString_ofNumber]
  simp only [Option.bind_eq_bind, Option.bind_some, hvalue, decide_true, if_true]

end NSString

end

/-- A device that reads the texts of ASCII digits, as every locale does, and no other texts. -/
@[reducible] def digitReading : NumberReading where
  numberFromString text := text ≠ [] && text.all Char.isDigit
  decimalNumberWithString text :=
    if text.all Char.isDigit then some (Nat.ofDigitChars 10 text 0 : ℚ) else none

theorem lawful_digitReading : @LawfulNumberReading digitReading := by
  have hdigits : ∀ n, (NSString.ofNumber n).all Char.isDigit := fun n =>
    List.all_eq_true.mpr fun _ => NSString.isDigit_of_mem_ofNumber
  let _ := digitReading
  constructor
  · intro n
    simp only [NumberReading.numberFromString, hdigits, Bool.and_true, decide_eq_true_eq]
    exact NSString.ofNumber_ne_nil _
  · intro n
    simp only [NumberReading.decimalNumberWithString, hdigits, if_true]
    rw [NSString.ofDigitChars_ofNumber]

end SignalIOS
