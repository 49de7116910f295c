import SignalIOS.Util.CodeUnits

/-! `encodedAsHexString` and `decodedAsHexString`, whose digits are found by a lenient scanner. -/
namespace SignalIOS

/-- The digit that `%x` has for a value below 16. -/
def lowerHexDigit (value : ℕ) : UInt16 :=
  if value < 10 then UInt16.ofNat (0x30 + value) else UInt16.ofNat (0x61 + (value - 10))

/-- The format `%02x`, for a byte. -/
def hexPair (byte : UInt8) : CodeUnits :=
  [lowerHexDigit (byte.toNat / 16), lowerHexDigit (byte.toNat % 16)]

def NSData.encodedAsHexString (data : NSData) : CodeUnits := data.flatMap hexPair

namespace CodeUnits

def hexValue (unit : UInt16) : Option ℕ :=
  if 0x30 ≤ unit.toNat ∧ unit.toNat ≤ 0x39 then some (unit.toNat - 0x30)
  else if 0x41 ≤ unit.toNat ∧ unit.toNat ≤ 0x46 then some (unit.toNat - 0x41 + 10)
  else if 0x61 ≤ unit.toNat ∧ unit.toNat ≤ 0x66 then some (unit.toNat - 0x61 + 10)
  else none

def isHexDigit (unit : UInt16) : Bool := (hexValue unit).isSome

/-- `whitespaceAndNewlineCharacterSet`, which a scanner skips by default. -/
def isWhitespaceOrNewline (unit : UInt16) : Bool :=
  NSString.isWhitespace (Char.ofNat unit.toNat) ||
    unit.toNat ∈ [0x0A, 0x0B, 0x0C, 0x0D, 0x85, 0x2028, 0x2029]

def lowercase (unit : UInt16) : UInt16 :=
  if 0x41 ≤ unit.toNat ∧ unit.toNat ≤ 0x5A then UInt16.ofNat (unit.toNat + 0x20) else unit

/-- The number of the longest prefix of digits. A number that is too large is read as the
largest one. -/
def hexNumber (units : CodeUnits) : Option ℕ :=
  match (units.takeWhile isHexDigit).filterMap hexValue with
  | [] => none
  | values => some (min 0xFFFFFFFF (values.foldl (fun number value => 16 * number + value) 0))

def startsWithHexPrefix (units : CodeUnits) : Prop :=
  units.take 2 = [0x30, 0x78] ∨ units.take 2 = [0x30, 0x58]

instance (units : CodeUnits) : Decidable (startsWithHexPrefix units) := instDecidableOr

/-- `[NSScanner scanHexInt:]`, at the start of a string. Whether the zero of a prefix that no
digit follows is read as a number is not documented, and left open here. -/
def scanHexInt (readsBarePrefix : Bool) (text : CodeUnits) : Option ℕ :=
  let units := text.dropWhile isWhitespaceOrNewline
  if startsWithHexPrefix units then
    (hexNumber (units.drop 2)).or (if readsBarePrefix then some 0 else none)
  else hexNumber units

/-- What is done with the piece of each byte. -/
def scannedByte (readsBarePrefix : Bool) (piece : CodeUnits) : Throws UInt8 :=
  match scanHexInt readsBarePrefix piece with
  | none => .error (.operationFailed none)
  | some r => do
    checkOperation (r < 256)
    return r.toUInt8

def decodedAsHexString (readsBarePrefix : Bool) (text : CodeUnits) : Throws NSData := do
  owsRequire (text.length % 2 = 0)
  (List.range (text.length / 2)).mapM fun i => do
    let piece ← text.substringWithRange (i * 2) 2
    scannedByte readsBarePrefix piece

/-- The string two units at a time. -/
def pieces : CodeUnits → List (UInt16 × UInt16)
  | first :: second :: units => (first, second) :: pieces units
  | _ => []

/-- The scanner finds a number in a piece: at its first digit, or behind one blank. -/
def findsNumber (readsBarePrefix : Bool) (piece : UInt16 × UInt16) : Prop :=
  isHexDigit piece.1 ∧ (startsWithHexPrefix [piece.1, piece.2] → readsBarePrefix) ∨
    isWhitespaceOrNewline piece.1 ∧ isHexDigit piece.2

section
variable {readsBarePrefix : Bool} {unit first second : UInt16} {value : ℕ} {text : CodeUnits}
  {data : NSData}

theorem toNat_of_hexValue (h : hexValue unit = some value) :
    value < 10 ∧ unit.toNat = 0x30 + value ∨
      10 ≤ value ∧ value < 16 ∧ (unit.toNat = 0x41 + (value - 10) ∨
        unit.toNat = 0x61 + (value - 10)) := by
  unfold hexValue at h
  split_ifs at h with hdigit hupper hlower
  · have hvalue := Option.some.inj h
    omega
  · have hvalue := Option.some.inj h
    omega
  · have hvalue := Option.some.inj h
    omega

theorem lt_of_hexValue (h : hexValue unit = some value) : value < 16 := by
  have hunit := toNat_of_hexValue h
  omega

theorem lowerHexDigit_of_hexValue (h : hexValue unit = some value) :
    lowerHexDigit value = lowercase unit := by
  have hunit := toNat_of_hexValue h
  have hsmall : 0x61 + (value - 10) < 0x10000 := by omega
  apply UInt16.toNat_inj.mp
  unfold lowerHexDigit lowercase
  split_ifs with hdigit hupper hupper
  · omega
  · rw [toNat_ofNat_of_lt (by omega)]
    omega
  · rw [toNat_ofNat_of_lt hsmall, toNat_ofNat_of_lt (by omega)]
    omega
  · rw [toNat_ofNat_of_lt hsmall]
    omega

theorem hexValue_lowerHexDigit (h : value < 16) : hexValue (lowerHexDigit value) = some value := by
  unfold lowerHexDigit
  split_ifs with hdigit
  · have hunit : (UInt16.ofNat (0x30 + value)).toNat = 0x30 + value :=
      toNat_ofNat_of_lt (by omega)
    rw [hexValue, hunit, if_pos (by omega), Nat.add_sub_cancel_left]
  · have hunit : (UInt16.ofNat (0x61 + (value - 10))).toNat = 0x61 + (value - 10) :=
      toNat_ofNat_of_lt (by omega)
    rw [hexValue, hunit, if_neg (by omega), if_neg (by omega), if_pos (by omega),
      Nat.add_sub_cancel_left, Nat.sub_add_cancel (by omega)]

theorem isHexDigit_iff : isHexDigit unit = true ↔ ∃ value, hexValue unit = some value :=
  Option.isSome_iff_exists

/-- The scanner does not skip a digit. -/
theorem isWhitespaceOrNewline_of_hexValue (h : hexValue unit = some value) :
    isWhitespaceOrNewline unit = false := by
  have hunit := toNat_of_hexValue h
  have hvalid : unit.toNat.isValidChar := .inl (by omega)
  have hauxiliary : Char.ofNat unit.toNat = Char.ofNatAux unit.toNat hvalid := dif_pos hvalid
  have hchar : (Char.ofNat unit.toNat).toNat = unit.toNat := by
    rw [hauxiliary]
    rfl
  simp only [isWhitespaceOrNewline, NSString.isWhitespace, hchar, Bool.or_eq_false_iff,
    Bool.and_eq_false_iff, decide_eq_false_iff_not, List.mem_cons, List.not_mem_nil, or_false]
  omega

theorem hexNumber_cons_of_not {units : CodeUnits} (h : ¬ isHexDigit unit = true) :
    hexNumber (unit :: units) = none := by
  rw [hexNumber, List.takeWhile_cons_of_neg h]
  rfl

theorem hexNumber_single (h : hexValue unit = some value) : hexNumber [unit] = some value := by
  have hdigit : isHexDigit unit = true := isHexDigit_iff.mpr ⟨value, h⟩
  have hlt := lt_of_hexValue h
  have hmin : min 0xFFFFFFFF (16 * 0 + value) = value := by omega
  rw [hexNumber, List.takeWhile_cons_of_pos hdigit, List.takeWhile_nil,
    List.filterMap_cons_some h, List.filterMap_nil]
  exact congrArg some hmin

theorem hexNumber_pair {value' : ℕ} (h : hexValue first = some value)
    (h' : hexValue second = some value') :
    hexNumber [first, second] = some (16 * value + value') := by
  have hdigit : isHexDigit first = true := isHexDigit_iff.mpr ⟨value, h⟩
  have hdigit' : isHexDigit second = true := isHexDigit_iff.mpr ⟨value', h'⟩
  have hlt := lt_of_hexValue h
  have hlt' := lt_of_hexValue h'
  have hmin : min 0xFFFFFFFF (16 * (16 * 0 + value) + value') = 16 * value + value' := by omega
  rw [hexNumber, List.takeWhile_cons_of_pos hdigit, List.takeWhile_cons_of_pos hdigit',
    List.takeWhile_nil, List.filterMap_cons_some h, List.filterMap_cons_some h',
    List.filterMap_nil]
  exact congrArg some hmin

/-- The digits of a number end at the first unit that is none. -/
theorem hexNumber_pair_of_not (hsecond : ¬ isHexDigit second = true) :
    hexNumber [first, second] = hexNumber [first] := by
  unfold hexNumber
  rw [List.takeWhile_cons, List.takeWhile_cons_of_neg hsecond, List.takeWhile_cons,
    List.takeWhile_nil]

/-- The scanner on a piece of two. -/
theorem scanHexInt_pair (readsBarePrefix : Bool) (first second : UInt16) :
    scanHexInt readsBarePrefix [first, second] =
      if isWhitespaceOrNewline first then
        if isWhitespaceOrNewline second then none else hexNumber [second]
      else if startsWithHexPrefix [first, second] then
        if readsBarePrefix then some 0 else none
      else hexNumber [first, second] := by
  have hshort : ∀ units : CodeUnits, units.length < 2 → ¬ startsWithHexPrefix units := by
    intro units hlength hprefix
    have htake : (units.take 2).length = 2 := by
      rcases hprefix with h | h <;> rw [h] <;> rfl
    rw [List.length_take] at htake
    omega
  unfold scanHexInt
  by_cases hfirst : isWhitespaceOrNewline first
  · rw [List.dropWhile_cons_of_pos hfirst, if_pos hfirst]
    by_cases hsecond : isWhitespaceOrNewline second
    · rw [List.dropWhile_cons_of_pos hsecond, if_pos hsecond, List.dropWhile_nil]
      exact if_neg (hshort [] (by decide))
    · rw [List.dropWhile_cons_of_neg hsecond, if_neg hsecond]
      exact if_neg (hshort [second] (by simp))
  · rw [List.dropWhile_cons_of_neg hfirst, if_neg hfirst]
    rfl

theorem startsWithHexPrefix_pair :
    startsWithHexPrefix [first, second] ↔ first = 0x30 ∧ (second = 0x78 ∨ second = 0x58) := by
  simp only [startsWithHexPrefix, List.take_succ_cons, List.take_zero, List.cons.injEq, and_true]
  exact and_or_left.symm

/-- A number that is found in a piece fits in a byte. -/
theorem scanHexInt_of_findsNumber {piece : UInt16 × UInt16}
    (h : findsNumber readsBarePrefix piece) :
    ∃ r < 256, scanHexInt readsBarePrefix [piece.1, piece.2] = some r := by
  rw [scanHexInt_pair]
  rcases h with ⟨hfirst, hbare⟩ | ⟨hfirst, hsecond⟩
  · obtain ⟨value, hvalue⟩ := isHexDigit_iff.mp hfirst
    have hlt := lt_of_hexValue hvalue
    rw [if_neg (Bool.not_eq_true _ ▸ isWhitespaceOrNewline_of_hexValue hvalue)]
    by_cases hprefix : startsWithHexPrefix [piece.1, piece.2]
    · rw [if_pos hprefix, if_pos (hbare hprefix)]
      exact ⟨0, by decide, rfl⟩
    · rw [if_neg hprefix]
      by_cases hsecond : isHexDigit piece.2
      · obtain ⟨value', hvalue'⟩ := isHexDigit_iff.mp hsecond
        have hlt' := lt_of_hexValue hvalue'
        exact ⟨16 * value + value', by omega, hexNumber_pair hvalue hvalue'⟩
      · rw [hexNumber_pair_of_not hsecond]
        exact ⟨value, by omega, hexNumber_single hvalue⟩
  · obtain ⟨value, hvalue⟩ := isHexDigit_iff.mp hsecond
    have hlt := lt_of_hexValue hvalue
    have hnot := isWhitespaceOrNewline_of_hexValue hvalue
    rw [if_pos hfirst, if_neg (Bool.not_eq_true _ ▸ hnot)]
    exact ⟨value, by omega, hexNumber_single hvalue⟩

theorem scanHexInt_eq_none {piece : UInt16 × UInt16} (h : ¬ findsNumber readsBarePrefix piece) :
    scanHexInt readsBarePrefix [piece.1, piece.2] = none := by
  rw [findsNumber, not_or] at h
  obtain ⟨hdigit, hblank⟩ := h
  rw [scanHexInt_pair]
  by_cases hfirst : isWhitespaceOrNewline piece.1
  · have hsecond : ¬ isHexDigit piece.2 = true := fun hsecond => hblank ⟨hfirst, hsecond⟩
    rw [if_pos hfirst, hexNumber_cons_of_not hsecond, ite_self]
  · rw [if_neg hfirst]
    by_cases hprefix : startsWithHexPrefix [piece.1, piece.2]
    · have hzero : isHexDigit piece.1 = true := (startsWithHexPrefix_pair.mp hprefix).1 ▸ rfl
      have hbare : ¬ readsBarePrefix = true := fun hbare => hdigit ⟨hzero, fun _ => hbare⟩
      rw [if_pos hprefix, if_neg hbare]
    · have hnot : ¬ isHexDigit piece.1 = true := fun hfirst =>
        hdigit ⟨hfirst, fun h => absurd h hprefix⟩
      rw [if_neg hprefix, hexNumber_cons_of_not hnot]

theorem scannedByte_of_findsNumber {piece : UInt16 × UInt16}
    (h : findsNumber readsBarePrefix piece) :
    ∃ byte, scannedByte readsBarePrefix [piece.1, piece.2] = .ok byte := by
  obtain ⟨r, hlt, hr⟩ := scanHexInt_of_findsNumber h
  have hcheck : checkOperation (r < 256) = .ok () := checkOperation_eq_ok.mpr hlt
  unfold scannedByte
  rw [hr]
  exact ⟨r.toUInt8, Throws.bind_eq_ok.mpr ⟨(), hcheck, rfl⟩⟩

theorem findsNumber_of_scannedByte {piece : UInt16 × UInt16} {byte : UInt8}
    (h : scannedByte readsBarePrefix [piece.1, piece.2] = .ok byte) :
    findsNumber readsBarePrefix piece := by
  by_contra hnot
  rw [scannedByte, scanHexInt_eq_none hnot] at h
  cases h

/-- Two digits are read as the byte that they are the digits of. -/
theorem scannedByte_digits {value value' : ℕ} (h : hexValue first = some value)
    (h' : hexValue second = some value') :
    scannedByte readsBarePrefix [first, second] = .ok (16 * value + value').toUInt8 := by
  have hlt := lt_of_hexValue h
  have hlt' := lt_of_hexValue h'
  have hnoPrefix : ¬ startsWithHexPrefix [first, second] := by
    intro hprefix
    obtain ⟨-, hsecond⟩ := startsWithHexPrefix_pair.mp hprefix
    rcases hsecond with rfl | rfl <;> cases h'
  have hscan : scanHexInt readsBarePrefix [first, second] = some (16 * value + value') := by
    rw [scanHexInt_pair, if_neg (Bool.not_eq_true _ ▸ isWhitespaceOrNewline_of_hexValue h),
      if_neg hnoPrefix, hexNumber_pair h h']
  have hcheck : checkOperation (16 * value + value' < 256) = .ok () :=
    checkOperation_eq_ok.mpr (by omega)
  unfold scannedByte
  rw [hscan]
  exact Throws.bind_eq_ok.mpr ⟨(), hcheck, rfl⟩

/-- The digits of a byte are the ones that it was read from, in lower case. -/
theorem hexPair_digits {value value' : ℕ} (h : hexValue first = some value)
    (h' : hexValue second = some value') :
    hexPair (16 * value + value').toUInt8 = [lowercase first, lowercase second] := by
  have hlt := lt_of_hexValue h
  have hlt' := lt_of_hexValue h'
  have hbyte : (16 * value + value').toUInt8.toNat = 16 * value + value' :=
    Nat.mod_eq_of_lt (by omega)
  have hhigh : (16 * value + value') / 16 = value := by omega
  have hlow : (16 * value + value') % 16 = value' := by omega
  rw [hexPair, hbyte, hhigh, hlow, lowerHexDigit_of_hexValue h, lowerHexDigit_of_hexValue h']

/-- The loop takes the pieces one after another. -/
theorem mapM_substringWithRange (readsBarePrefix : Bool) (text : CodeUnits) :
    ((List.range (text.length / 2)).mapM fun i => do
      let piece ← text.substringWithRange (i * 2) 2
      scannedByte readsBarePrefix piece) =
      (pieces text).mapM fun piece => scannedByte readsBarePrefix [piece.1, piece.2] := by
  fun_induction pieces text with
  | case1 first second units ih =>
    have hlength : (first :: second :: units).length / 2 = units.length / 2 + 1 := by
      simp only [List.length_cons]
      omega
    have hfirst : substringWithRange (first :: second :: units) (0 * 2) 2 = .ok [first, second] :=
      if_pos (by simp only [List.length_cons]; omega)
    have hlater : ∀ i, substringWithRange (first :: second :: units) ((i + 1) * 2) 2 =
        substringWithRange units (i * 2) 2 := by
      intro i
      have hindex : (i + 1) * 2 = i * 2 + 2 := by omega
      have hbound : i * 2 + 2 + 2 ≤ (first :: second :: units).length ↔
          i * 2 + 2 ≤ units.length := by
        simp only [List.length_cons]
        omega
      simp only [substringWithRange, hindex, hbound, List.drop_succ_cons]
    rw [hlength, List.range_succ_eq_map, List.mapM_cons, List.mapM_cons, List.mapM_map, ← ih]
    simp only [hfirst, hlater, Function.comp_def, Nat.succ_eq_add_one]
    rfl
  | case2 units hshort =>
    have hlength : units.length / 2 = 0 := by
      match units, hshort with
      | [], _ => rfl
      | [_], _ => exact Nat.div_eq_of_lt (Nat.lt_succ_self 1)
      | first :: second :: units, hshort => exact absurd rfl (hshort first second units)
    rw [hlength]
    rfl

theorem decodedAsHexString_eq_ok :
    decodedAsHexString readsBarePrefix text = .ok data ↔
      text.length % 2 = 0 ∧
        List.Forall₂ (fun piece byte => scannedByte readsBarePrefix [piece.1, piece.2] = .ok byte)
          (pieces text) data := by
  rw [decodedAsHexString, Throws.bind_eq_ok, mapM_substringWithRange, Throws.mapM_eq_ok]
  constructor
  · intro ⟨_, heven, hpieces⟩
    exact ⟨owsRequire_eq_ok.mp heven, hpieces⟩
  · intro ⟨heven, hpieces⟩
    exact ⟨(), owsRequire_eq_ok.mpr heven, hpieces⟩

theorem pieces_encodedAsHexString (data : NSData) :
    pieces data.encodedAsHexString =
      data.map fun byte => (lowerHexDigit (byte.toNat / 16), lowerHexDigit (byte.toNat % 16)) := by
  induction data with
  | nil => rfl
  | cons byte data ih => exact congrArg (_ :: ·) ih

theorem length_encodedAsHexString (data : NSData) :
    data.encodedAsHexString.length = 2 * data.length := by
  induction data with
  | nil => rfl
  | cons byte data ih =>
    have hcons : NSData.encodedAsHexString (byte :: data) =
        hexPair byte ++ NSData.encodedAsHexString data := rfl
    rw [hcons, List.length_append, ih, List.length_cons, Nat.mul_succ, Nat.add_comm]
    rfl

theorem decodedAsHexString_encodedAsHexString (readsBarePrefix : Bool) (data : NSData) :
    decodedAsHexString readsBarePrefix data.encodedAsHexString = .ok data := by
  rw [decodedAsHexString_eq_ok, length_encodedAsHexString, pieces_encodedAsHexString,
    List.forall₂_map_left_iff]
  constructor
  · omega
  apply List.forall₂_same.mpr
  intro byte _
  have hbyte : byte.toNat < 256 := byte.toNat_lt
  have hvalue : 16 * (byte.toNat / 16) + byte.toNat % 16 = byte.toNat := by omega
  have hhigh : hexValue (lowerHexDigit (byte.toNat / 16)) = some (byte.toNat / 16) :=
    hexValue_lowerHexDigit (by omega)
  have hlow : hexValue (lowerHexDigit (byte.toNat % 16)) = some (byte.toNat % 16) :=
    hexValue_lowerHexDigit (by omega)
  have hscanned : scannedByte readsBarePrefix
      [lowerHexDigit (byte.toNat / 16), lowerHexDigit (byte.toNat % 16)] =
        .ok (16 * (byte.toNat / 16) + byte.toNat % 16).toUInt8 := scannedByte_digits hhigh hlow
  have hsame : byte.toNat.toUInt8 = byte := UInt8.ofNat_toNat
  rwa [hvalue, hsame] at hscanned

/-- A string has exactly two digits for each byte, and they are the digits of the bytes. -/
structure IsHexFormOf (text : CodeUnits) (data : NSData) : Prop where
  length : text.length = 2 * data.length
  digits : ∀ unit ∈ text, isHexDigit unit = true
  encoded : data.encodedAsHexString = text.map lowercase

/-- What is read from pieces of digits has the string as its form. -/
theorem isHexFormOf_of_digits (h : decodedAsHexString readsBarePrefix text = .ok data)
    (hdigits : ∀ unit ∈ text, isHexDigit unit = true) : IsHexFormOf text data := by
  obtain ⟨heven, hscanned⟩ := decodedAsHexString_eq_ok.mp h
  clear h
  fun_induction pieces text generalizing data with
  | case1 first second units ih =>
    rw [List.forall_mem_cons, List.forall_mem_cons] at hdigits
    obtain ⟨hfirst, hsecond, hunits⟩ := hdigits
    have heven' : units.length % 2 = 0 := by
      simp only [List.length_cons] at heven
      omega
    cases hscanned with
    | cons hbyte hlater =>
      obtain ⟨value, hvalue⟩ := isHexDigit_iff.mp hfirst
      obtain ⟨value', hvalue'⟩ := isHexDigit_iff.mp hsecond
      rw [scannedByte_digits hvalue hvalue'] at hbyte
      cases hbyte
      have hform := ih hunits heven' hlater
      have hencoded := hexPair_digits hvalue hvalue'
      constructor
      · simp only [List.length_cons, hform.length]
        omega
      · exact List.forall_mem_cons.mpr ⟨hfirst, List.forall_mem_cons.mpr ⟨hsecond, hunits⟩⟩
      · rw [NSData.encodedAsHexString, List.flatMap_cons, hencoded, ← NSData.encodedAsHexString,
          hform.encoded]
        rfl
  | case2 units hshort =>
    cases hscanned
    match units, hshort with
    | [], _ => exact ⟨rfl, hdigits, rfl⟩
    | [_], _ => cases heven
    | first :: second :: units, hshort => exact absurd rfl (hshort first second units)

theorem exists_decodedAsHexString (heven : text.length % 2 = 0)
    (h : ∀ piece ∈ pieces text, findsNumber readsBarePrefix piece) :
    ∃ data, decodedAsHexString readsBarePrefix text = .ok data := by
  have hscanned : ∀ l : List (UInt16 × UInt16), (∀ piece ∈ l, findsNumber readsBarePrefix piece) →
      ∃ data, List.Forall₂
        (fun piece byte => scannedByte readsBarePrefix [piece.1, piece.2] = .ok byte) l data := by
    intro l hl
    induction l with
    | nil => exact ⟨[], .nil⟩
    | cons piece l ih =>
      obtain ⟨hpiece, hl⟩ := List.forall_mem_cons.mp hl
      obtain ⟨byte, hbyte⟩ := scannedByte_of_findsNumber hpiece
      obtain ⟨data, hdata⟩ := ih hl
      exact ⟨byte :: data, .cons hbyte hdata⟩
  obtain ⟨data, hdata⟩ := hscanned _ h
  exact ⟨data, decodedAsHexString_eq_ok.mpr ⟨heven, hdata⟩⟩

theorem findsNumber_of_decodedAsHexString
    (h : decodedAsHexString readsBarePrefix text = .ok data) :
    ∀ piece ∈ pieces text, findsNumber readsBarePrefix piece := by
  obtain ⟨-, hscanned⟩ := decodedAsHexString_eq_ok.mp h
  clear h
  generalize pieces text = l at hscanned
  induction hscanned with
  | nil => simp
  | cons hbyte _ ih =>
    exact List.forall_mem_cons.mpr ⟨findsNumber_of_scannedByte hbyte, ih⟩

/-- Encoded data is read back. What is read from another string has the string as its form
just where the string is refused, for its length or for a piece without a number, or is
made of digits. -/
theorem decodedAsHexString_spec (readsBarePrefix : Bool) :
    (∀ data : NSData, decodedAsHexString readsBarePrefix data.encodedAsHexString = .ok data) ∧
      ∀ text : CodeUnits,
        (∀ data, decodedAsHexString readsBarePrefix text = .ok data → IsHexFormOf text data) ↔
          text.length % 2 = 1 ∨ (∃ piece ∈ pieces text, ¬ findsNumber readsBarePrefix piece) ∨
            ∀ unit ∈ text, isHexDigit unit = true := by
  constructor
  · exact decodedAsHexString_encodedAsHexString readsBarePrefix
  intro text
  constructor
  · intro hform
    by_cases heven : text.length % 2 = 0
    · by_cases hfinds : ∀ piece ∈ pieces text, findsNumber readsBarePrefix piece
      · obtain ⟨data, hdata⟩ := exists_decodedAsHexString heven hfinds
        exact .inr (.inr (hform data hdata).digits)
      · obtain ⟨piece, hfinds⟩ := not_forall.mp hfinds
        exact .inr (.inl ⟨piece, Classical.not_imp.mp hfinds⟩)
    · exact .inl (by omega)
  · intro hcondition data hdata
    rcases hcondition with hodd | ⟨piece, hpiece, hnot⟩ | hdigits
    · have heven := (decodedAsHexString_eq_ok.mp hdata).1
      omega
    · exact absurd (findsNumber_of_decodedAsHexString hdata piece hpiece) hnot
    · exact isHexFormOf_of_digits hdata hdigits

/-- The scanner stops before the second character of "az". -/
theorem decodedAsHexString_stops_early :
    ¬ ∃ readsBarePrefix, ∀ text data,
      decodedAsHexString readsBarePrefix text = .ok data → IsHexFormOf text data := by
  intro ⟨readsBarePrefix, h⟩
  have hdecoded : decodedAsHexString readsBarePrefix [0x61, 0x7A] = .ok [0x0A] := by
    cases readsBarePrefix <;> decide
  exact absurd (h _ _ hdecoded).encoded (by decide)

end

end CodeUnits
end SignalIOS
