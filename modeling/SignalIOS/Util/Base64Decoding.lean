import SignalIOS.Rtp.RtpPacketParser
import SignalIOS.Util.Base64
import SignalIOS.Util.CodeUnits

/-! `decodedAsBase64Data`: characters as words of six bits, the bits of words as bytes. -/
namespace SignalIOS

namespace CodeUnits
open NSData SignalIOS.Rtp

/-- The loop that counts the padding. It has at most two rounds. -/
def countPadding (text : CodeUnits) (paddingCount : ℕ) : ℕ → Throws ℕ
  | 0 => return paddingCount
  | rounds + 1 =>
    if paddingCount < 2 ∧ paddingCount < subtractNSUInteger text.length 1 then do
      let unit ← text.characterAtIndex
        (subtractNSUInteger (subtractNSUInteger text.length paddingCount) 1)
      if unit = 0x3D then text.countPadding (paddingCount + 1) rounds else return paddingCount
    else return paddingCount

def paddingCount (text : CodeUnits) : Throws ℕ := text.countPadding 0 2

/-- `CharToValueMap`, which has 255 for all other characters. -/
def charToValueMap (char : UInt8) : ℕ :=
  (base64Chars.findIdx? fun c => c.toNat = char.toNat).getD 255

/-- The bits of a number of a given width, the highest first. -/
def digitBits (width number : ℕ) : List Bool := (List.range width).reverse.map number.testBit

/-- The byte of eight bits. A read past the end of the array, for which C has no meaning, is
an exception here. -/
def byteOfBits (bits : List Bool) (i : ℕ) : Throws UInt8 :=
  if (i + 1) * 8 ≤ bits.length then
    .ok (ofBits 8 fun j => bits.getD ((i + 1) * 8 - 1 - j) false).toUInt8
  else .error .nsRangeException

def decodedAsBase64Data (text : CodeUnits) : Throws NSData := do
  let paddingCount ← text.paddingCount
  let base64WordCount := text.length - paddingCount
  let bitCount := text.length * 6 - paddingCount * 8
  checkOperation (bitCount % 8 = 0)
  let asciiData ← text.encodedAsAscii
  let base64Words ← (List.range base64WordCount).mapM fun i => do
    let char ← asciiData.uint8At i
    owsRequire (charToValueMap char < 64)
    return charToValueMap char
  let bits := (base64Words.flatMap (digitBits 6)).take bitCount
  (List.range (bitCount / 8)).mapM (byteOfBits bits)

/-- The bits of the last word that are in no byte. -/
def unusedBits (text : CodeUnits) : Throws (List Bool) := do
  let paddingCount ← text.paddingCount
  let words := (text.take (text.length - paddingCount)).map fun unit => charToValueMap unit.toUInt8
  return (words.flatMap (digitBits 6)).drop (text.length * 6 - paddingCount * 8)

def base64Unit (word : ℕ) : UInt16 := UInt16.ofNat (base64Chars.getD word default).toNat

/-- The string of words with padding behind them. -/
def base64Text (words : List ℕ) (paddingCount : ℕ) : CodeUnits :=
  words.map base64Unit ++ List.replicate paddingCount 0x3D

section Bits
variable {bits : List Bool} {data : NSData}

theorem getD_digitBits {width i : ℕ} (number : ℕ) (h : i < width) :
    (digitBits width number).getD i false = number.testBit (width - 1 - i) := by
  have hlength : i < (digitBits width number).length := by
    simpa [digitBits] using h
  rw [List.getD_eq_getElem _ _ hlength]
  simp [digitBits]

theorem length_digitBits (width number : ℕ) : (digitBits width number).length = width := by
  simp [digitBits]

/-- A bit of many numbers is one of the number that it falls in. -/
theorem getD_flatMap_digitBits {α : Type} {width : ℕ} (hwidth : 0 < width) (value : α → ℕ)
    (l : List α) (k : ℕ) :
    (l.flatMap fun a => digitBits width (value a)).getD k false =
      (l[k / width]?.elim 0 value).testBit (width - 1 - k % width) := by
  induction l generalizing k with
  | nil => simp
  | cons a l ih =>
    rw [List.flatMap_cons]
    by_cases hk : k < width
    · rw [List.getD_append _ _ _ _ (by rwa [length_digitBits]), getD_digitBits _ hk,
        Nat.div_eq_of_lt hk, Nat.mod_eq_of_lt hk]
      rfl
    · have hle : width ≤ k := Nat.not_lt.mp hk
      have hdiv : k / width = (k - width) / width + 1 := Nat.div_eq_sub_div hwidth hle
      have hmod : k % width = (k - width) % width := Nat.mod_eq_sub_mod hle
      rw [List.getD_append_right _ _ _ _ (by rwa [length_digitBits]), length_digitBits, ih, hdiv,
        hmod, List.getElem?_cons_succ]

theorem getD_bits (data : NSData) (k : ℕ) :
    data.bits.getD k false = (data[k / 8]?.elim 0 UInt8.toNat).testBit (7 - k % 8) :=
  getD_flatMap_digitBits (by decide) UInt8.toNat data k

theorem getD_wordBits (words : List ℕ) (k : ℕ) :
    (words.flatMap (digitBits 6)).getD k false =
      (words[k / 6]?.elim 0 id).testBit (5 - k % 6) :=
  getD_flatMap_digitBits (by decide) id words k

theorem length_wordBits (words : List ℕ) :
    (words.flatMap (digitBits 6)).length = words.length * 6 := by
  induction words with
  | nil => rfl
  | cons word words ih =>
    rw [List.flatMap_cons, List.length_append, ih, length_digitBits, List.length_cons]
    omega

theorem ofBits_lt (width : ℕ) (bit : ℕ → Bool) : ofBits width bit < 2 ^ width := by
  apply Nat.lt_pow_two_of_testBit
  intro j hj
  rw [testBit_ofBits, decide_eq_false (Nat.not_lt.mpr hj), Bool.false_and]

/-- The bytes that are made of bits have these bits. -/
theorem bits_of_mapM_byteOfBits {n : ℕ} (hlength : bits.length = 8 * n)
    (h : (List.range n).mapM (byteOfBits bits) = .ok data) : data.bits = bits := by
  obtain ⟨hn, hbytes⟩ := Throws.mapM_range_eq_ok.mp h
  apply List.ext_getElem (by rw [length_bits]; omega)
  intro k hk hk'
  have hdata : k / 8 < data.length := by omega
  have hbyte := hbytes (k / 8) hdata
  rw [byteOfBits, if_pos (by omega)] at hbyte
  have hindex : (k / 8 + 1) * 8 - 1 - (7 - k % 8) = k := by omega
  have hvalue : data[k / 8].toNat =
      ofBits 8 fun j => bits.getD ((k / 8 + 1) * 8 - 1 - j) false := by
    rw [← Except.ok.inj hbyte]
    exact Nat.mod_eq_of_lt (ofBits_lt 8 _)
  have hbit : data.bits.getD k false = bits.getD k false := by
    rw [getD_bits, List.getElem?_eq_getElem hdata, Option.elim_some, hvalue, testBit_ofBits,
      decide_eq_true (by omega), Bool.true_and, hindex]
  rwa [List.getD_eq_getElem _ _ hk, List.getD_eq_getElem _ _ hk'] at hbit

theorem mapM_byteOfBits_eq_ok {n : ℕ} (hlength : bits.length = 8 * n) :
    (List.range n).mapM (byteOfBits bits) = .ok data ↔ data.bits = bits := by
  constructor
  · exact bits_of_mapM_byteOfBits hlength
  · intro hbits
    have hall : (List.range n).mapM (byteOfBits bits) = .ok ((List.range n).map fun i =>
        (ofBits 8 fun j => bits.getD ((i + 1) * 8 - 1 - j) false).toUInt8) := by
      apply Throws.mapM_range_eq_ok.mpr
      constructor
      · rw [List.length_map, List.length_range]
      · intro i hi
        rw [List.length_map, List.length_range] at hi
        rw [byteOfBits, if_pos (by omega), List.getElem_map, List.getElem_range]
    have hsame := bits_inj (hbits.trans (bits_of_mapM_byteOfBits hlength hall).symm)
    rw [hall, hsame]

end Bits

section Characters
variable {char : UInt8} {word : ℕ} {words : List ℕ}

theorem charToValueMap_base64Unit :
    ∀ word < 64, charToValueMap (base64Unit word).toUInt8 = word := by decide +kernel

theorem base64Unit_lt : ∀ word < 64, base64Unit word < 0x80 := by decide +kernel

theorem base64Unit_ne : ∀ word < 64, base64Unit word ≠ 0x3D := by decide +kernel

theorem ofChar_base64Chars :
    ∀ word < 64, ofChar (base64Chars.getD word default) = [base64Unit word] := by decide +kernel

/-- A character that has a value is the one of the value. -/
theorem base64Unit_charToValueMap (h : charToValueMap char < 64) :
    base64Unit (charToValueMap char) = char.toUInt16 := by
  unfold charToValueMap at h ⊢
  cases hfound : base64Chars.findIdx? fun c => c.toNat = char.toNat with
  | none =>
    rw [hfound] at h
    exact absurd h (by decide)
  | some i =>
    obtain ⟨hi, hchar, -⟩ := List.findIdx?_eq_some_iff_getElem.mp hfound
    rw [Option.getD_some, base64Unit, List.getD_eq_getElem _ _ hi, of_decide_eq_true hchar]
    exact UInt16.toNat_inj.mp (toNat_ofNat_of_lt (Nat.lt_trans char.toNat_lt (by decide)))

theorem length_base64Text (words : List ℕ) (p : ℕ) :
    (base64Text words p).length = words.length + p := by
  simp [base64Text]

/-- Encoded data is the text of its words. -/
theorem ofString_encodedAsBase64 (data : NSData) :
    ofString data.encodedAsBase64 =
      base64Text ((List.range (base64WordCount data.bits.length)).map (base64Word data.bits))
        (data.bits.length % 3) := by
  have hwords : ∀ l : List ℕ, ofString (l.map fun i =>
      base64Chars.getD (base64Word data.bits i) default) =
        (l.map (base64Word data.bits)).map base64Unit := by
    intro l
    induction l with
    | nil => rfl
    | cons i l ih =>
      rw [List.map_cons, ofString, List.flatMap_cons, ← ofString, ih,
        ofChar_base64Chars _ (base64Word_lt _ i)]
      rfl
  have hpadding : ∀ n, ofString (List.replicate n '=') = List.replicate n 0x3D := by
    intro n
    induction n with
    | zero => rfl
    | succ n ih =>
      rw [List.replicate_succ, ofString, List.flatMap_cons, ← ofString, ih]
      rfl
  rw [encodedAsBase64, ofString_append, hwords, hpadding, base64Text]

theorem encodedAsAscii_eq_ok {text : CodeUnits} {asciiData : NSData} :
    text.encodedAsAscii = .ok asciiData ↔
      (∀ unit ∈ text, unit < 0x80) ∧ text.map UInt16.toUInt8 = asciiData := by
  have hall : text.all (· < 0x80) = true ↔ ∀ unit ∈ text, unit < 0x80 := by
    simp only [List.all_eq_true, decide_eq_true_eq]
  unfold encodedAsAscii
  split_ifs with h
  · rw [Except.ok.injEq, and_iff_right (hall.mp h)]
  · simp [← hall, h]

theorem failsSafely_encodedAsAscii (text : CodeUnits) :
    Throws.FailsSafely text.encodedAsAscii := by
  unfold encodedAsAscii
  split_ifs
  · exact Throws.failsSafely_ok _
  · exact Throws.failsSafely_operationFailed _

/-- A word is read from a character of the text just where it stands for the word. -/
theorem readWord_eq_ok {text : CodeUnits} (hascii : ∀ unit ∈ text, unit < 0x80) {i : ℕ}
    (hi : i < text.length) :
    (do
      let char ← uint8At (text.map UInt16.toUInt8) i
      owsRequire (charToValueMap char < 64)
      return charToValueMap char) = .ok word ↔ text[i] = base64Unit word ∧ word < 64 := by
  have hunit : text[i] < 0x80 := hascii _ (List.getElem_mem hi)
  have hsmall : text[i].toNat < 0x80 := hunit
  have hback : text[i].toUInt8.toUInt16 = text[i] := by
    apply UInt16.toNat_inj.mp
    rw [UInt8.toNat_toUInt16, UInt16.toNat_toUInt8, Nat.mod_eq_of_lt (by omega)]
  have hchar : uint8At (text.map UInt16.toUInt8) i = .ok text[i].toUInt8 :=
    uint8At_eq_ok.mpr (by rw [List.getElem?_map, List.getElem?_eq_getElem hi]; rfl)
  rw [hchar]
  constructor
  · intro h
    obtain ⟨char, hsame, h⟩ := Throws.bind_eq_ok.mp h
    obtain rfl := Except.ok.inj hsame
    obtain ⟨_, hrequire, hword⟩ := Throws.bind_eq_ok.mp h
    have hlt := owsRequire_eq_ok.mp hrequire
    have hvalue := Throws.pure_eq_ok.mp hword
    rw [← hvalue, base64Unit_charToValueMap hlt]
    exact ⟨hback.symm, hlt⟩
  · intro ⟨hword, hlt⟩
    have hvalue : charToValueMap text[i].toUInt8 = word := by
      rw [hword]
      exact charToValueMap_base64Unit word hlt
    have hrequire : owsRequire (charToValueMap text[i].toUInt8 < 64) = .ok () :=
      owsRequire_eq_ok.mpr (by omega)
    exact Throws.bind_eq_ok.mpr ⟨_, rfl, Throws.bind_eq_ok.mpr ⟨(), hrequire,
      Throws.pure_eq_ok.mpr hvalue⟩⟩

/-- The words that are read are the ones that the text has before its padding. -/
theorem mapM_words_eq_ok {text : CodeUnits} {n : ℕ} (hascii : ∀ unit ∈ text, unit < 0x80)
    (hn : n ≤ text.length) :
    ((List.range n).mapM fun i => do
      let char ← uint8At (text.map UInt16.toUInt8) i
      owsRequire (charToValueMap char < 64)
      return charToValueMap char) = .ok words ↔
      text.take n = words.map base64Unit ∧ ∀ word ∈ words, word < 64 := by
  rw [Throws.mapM_range_eq_ok]
  constructor
  · intro ⟨hlength, hrounds⟩
    constructor
    · apply List.ext_getElem
      · rw [List.length_take, List.length_map]
        omega
      · intro i hi hi'
        rw [List.length_map] at hi'
        rw [List.getElem_take, List.getElem_map]
        exact ((readWord_eq_ok hascii (by omega)).mp (hrounds i hi')).1
    · intro word hword
      obtain ⟨i, hi, rfl⟩ := List.getElem_of_mem hword
      exact ((readWord_eq_ok hascii (by omega)).mp (hrounds i hi)).2
  · intro ⟨htake, hlt⟩
    have hlength : words.length = n := by
      have h := congrArg List.length htake
      rw [List.length_take, List.length_map] at h
      omega
    constructor
    · exact hlength
    · intro i hi
      have hunit : (text.take n)[i]? = some (base64Unit words[i]) := by
        rw [htake, List.getElem?_map, List.getElem?_eq_getElem hi, Option.map_some]
      rw [List.getElem?_take_of_lt (by omega), List.getElem?_eq_getElem (by omega)] at hunit
      exact (readWord_eq_ok hascii (by omega)).mpr
        ⟨Option.some.inj hunit, hlt _ (List.getElem_mem hi)⟩

end Characters

section Padding
variable {text : CodeUnits}

/-- As many characters as are counted stand at the end, and no more of them do. -/
structure EndsPadded (text : CodeUnits) (p : ℕ) : Prop where
  le_two : p ≤ 2
  lt_length : p < text.length
  suffix : text.drop (text.length - p) = List.replicate p 0x3D
  longest : p = 2 ∨ p + 1 = text.length ∨ text[text.length - p - 1]? ≠ some 0x3D

theorem countPadding_spec {p rounds : ℕ} (hrounds : p + rounds = 2) (hlt : p < text.length)
    (hsuffix : text.drop (text.length - p) = List.replicate p 0x3D) :
    ∃ p', text.countPadding p rounds = .ok p' ∧ EndsPadded text p' := by
  induction rounds generalizing p with
  | zero => exact ⟨p, rfl, by omega, hlt, hsuffix, .inl hrounds⟩
  | succ rounds ih =>
    have hlast : subtractNSUInteger text.length 1 = text.length - 1 :=
      subtractNSUInteger_of_le (by omega)
    have hindex : subtractNSUInteger (subtractNSUInteger text.length p) 1 = text.length - p - 1 := by
      rw [subtractNSUInteger_of_le hlt.le, subtractNSUInteger_of_le (by omega)]
    rw [countPadding, hlast, hindex]
    by_cases hmore : p + 1 < text.length
    · have hi : text.length - p - 1 < text.length := by omega
      have hunit : text.characterAtIndex (text.length - p - 1) = .ok text[text.length - p - 1] := by
        rw [characterAtIndex, List.getElem?_eq_getElem hi]
      rw [if_pos (by omega), hunit]
      by_cases hpadding : text[text.length - p - 1] = 0x3D
      · have hsuffix' : text.drop (text.length - (p + 1)) = List.replicate (p + 1) 0x3D := by
          have hnext : text.length - p - 1 + 1 = text.length - p := by omega
          rw [Nat.sub_add_eq, List.drop_eq_getElem_cons hi, hpadding, hnext, hsuffix]
          rfl
        obtain ⟨p', hp', hpadded⟩ := ih (by omega) hmore hsuffix'
        refine ⟨p', ?_, hpadded⟩
        rw [← hp']
        exact if_pos hpadding
      · refine ⟨p, if_neg hpadding, by omega, hlt, hsuffix, .inr (.inr ?_)⟩
        rw [List.getElem?_eq_getElem hi]
        exact fun h => hpadding (Option.some.inj h)
    · exact ⟨p, if_neg (by omega), by omega, hlt, hsuffix, .inr (.inl (by omega))⟩

theorem paddingCount_spec (h : text ≠ []) :
    ∃ p, text.paddingCount = .ok p ∧ EndsPadded text p := by
  have hlength : 0 < text.length := List.length_pos_iff.mpr h
  have hsuffix : text.drop (text.length - 0) = List.replicate 0 0x3D := List.drop_length
  exact countPadding_spec rfl hlength hsuffix

/-- The padding of a text of words is what stands behind them. -/
theorem paddingCount_base64Text {words : List ℕ} {p : ℕ} (hwords : words ≠ [])
    (hlt : ∀ word ∈ words, word < 64) (hp : p ≤ 2) :
    (base64Text words p).paddingCount = .ok p := by
  have hpos : 0 < words.length := List.length_pos_iff.mpr hwords
  have hlength := length_base64Text words p
  have hne : base64Text words p ≠ [] := List.ne_nil_of_length_pos (by omega)
  obtain ⟨p', hp', hpadded⟩ := paddingCount_spec hne
  have hsame : p' = p := by
    rcases lt_trichotomy p' p with hless | hsame | hmore
    · have hunit : (base64Text words p)[(base64Text words p).length - p' - 1]? = some 0x3D := by
        rw [base64Text, List.getElem?_append_right (by simp; omega), List.getElem?_replicate,
          if_pos (by simp; omega)]
      rcases hpadded.longest with h | h | h
      · omega
      · omega
      · exact absurd hunit h
    · exact hsame
    · have hlast : words.length - 1 < words.length := by omega
      have hunit : (base64Text words p)[words.length - 1]? =
          some (base64Unit words[words.length - 1]) := by
        rw [base64Text, List.getElem?_append_left (by simp; omega), List.getElem?_map,
          List.getElem?_eq_getElem hlast, Option.map_some]
      have hpadding : (base64Text words p)[words.length - 1]? = some 0x3D := by
        have hindex : (base64Text words p).length - p' + (p' - p - 1) = words.length - 1 := by
          have hle := hpadded.lt_length
          omega
        rw [← hindex, ← List.getElem?_drop, hpadded.suffix, List.getElem?_replicate,
          if_pos (by omega)]
      rw [hunit] at hpadding
      exact absurd (Option.some.inj hpadding) (base64Unit_ne _ (hlt _ (List.getElem_mem hlast)))
  rw [hp', hsame]

end Padding

section Refusals
variable {α β : Type} {x : Throws α} {f : α → Throws β}

/-- Nothing is raised but `OperationFailed` and `BadArgument`. -/
def RefusesInput (x : Throws α) : Prop :=
  ∀ e, x = .error e → (∃ description, e = .operationFailed description) ∨ e = .badArgument

theorem refusesInput_of_failsSafely (h : Throws.FailsSafely x) : RefusesInput x :=
  fun e he => .inl (h e he)

theorem refusesInput_of_eq_ok {a : α} (h : x = .ok a) : RefusesInput x :=
  refusesInput_of_failsSafely (Throws.failsSafely_of_eq_ok h)

theorem refusesInput_owsRequire {condition : Prop} [Decidable condition] :
    RefusesInput (owsRequire condition) := by
  intro e he
  unfold owsRequire at he
  split_ifs at he
  exact .inr (Except.error.inj he).symm

theorem refusesInput_bind (hx : RefusesInput x) (hf : ∀ a, x = .ok a → RefusesInput (f a)) :
    RefusesInput (x >>= f) := by
  intro e he
  cases x with
  | ok a => exact hf a rfl e he
  | error e' =>
    cases he
    exact hx e rfl

theorem refusesInput_uint8At (data : NSData) (i : ℕ) : RefusesInput (data.uint8At i) := by
  intro e he
  unfold uint8At at he
  split at he
  · exact .inr (Except.error.inj he).symm
  · cases he

theorem refusesInput_mapM {l : List α} (hf : ∀ a ∈ l, RefusesInput (f a)) :
    RefusesInput (l.mapM f) := by
  intro e he
  obtain ⟨a, ha, herror⟩ := Throws.exists_of_mapM_eq_error he
  exact hf a ha e herror

end Refusals

section Decoding
variable {text : CodeUnits} {data : NSData}

theorem length_take_wordBits {words : List ℕ} {p L : ℕ} (hwords : words.length = L - p)
    (hp : p ≤ 2) (hbits : (L * 6 - p * 8) % 8 = 0) :
    ((words.flatMap (digitBits 6)).take (L * 6 - p * 8)).length = 8 * ((L * 6 - p * 8) / 8) := by
  rw [List.length_take, length_wordBits]
  omega

/-- What is read from a string: the bytes whose bits are those of its words. -/
theorem decodedAsBase64Data_eq_ok {p : ℕ} (hp : text.paddingCount = .ok p) (hle : p ≤ 2) :
    text.decodedAsBase64Data = .ok data ↔
      (text.length * 6 - p * 8) % 8 = 0 ∧ (∀ unit ∈ text, unit < 0x80) ∧
        ∃ words : List ℕ, text.take (text.length - p) = words.map base64Unit ∧
          (∀ word ∈ words, word < 64) ∧
          data.bits = (words.flatMap (digitBits 6)).take (text.length * 6 - p * 8) := by
  have hlength : ∀ words : List ℕ, text.take (text.length - p) = words.map base64Unit →
      words.length = text.length - p := by
    intro words htake
    have h := congrArg List.length htake
    rw [List.length_take, List.length_map] at h
    omega
  rw [decodedAsBase64Data, hp]
  constructor
  · intro h
    obtain ⟨_, hsame, h⟩ := Throws.bind_eq_ok.mp h
    obtain rfl := Except.ok.inj hsame
    obtain ⟨_, hcheck, h⟩ := Throws.bind_eq_ok.mp h
    obtain ⟨asciiData, hascii, h⟩ := Throws.bind_eq_ok.mp h
    obtain ⟨words, hwords, hbytes⟩ := Throws.bind_eq_ok.mp h
    obtain ⟨hsmall, rfl⟩ := encodedAsAscii_eq_ok.mp hascii
    obtain ⟨htake, hlt⟩ := (mapM_words_eq_ok hsmall (Nat.sub_le _ _)).mp hwords
    have hbits := checkOperation_eq_ok.mp hcheck
    have hcount := length_take_wordBits (hlength words htake) hle hbits
    exact ⟨hbits, hsmall, words, htake, hlt, (mapM_byteOfBits_eq_ok hcount).mp hbytes⟩
  · intro ⟨hbits, hsmall, words, htake, hlt, hdata⟩
    have hcount := length_take_wordBits (hlength words htake) hle hbits
    have hcheck : checkOperation ((text.length * 6 - p * 8) % 8 = 0) = .ok () :=
      checkOperation_eq_ok.mpr hbits
    have hascii := encodedAsAscii_eq_ok.mpr ⟨hsmall, rfl⟩
    have hwords := (mapM_words_eq_ok hsmall (Nat.sub_le _ _)).mpr ⟨htake, hlt⟩
    have hbytes := (mapM_byteOfBits_eq_ok hcount).mpr hdata
    exact Throws.bind_eq_ok.mpr ⟨p, rfl, Throws.bind_eq_ok.mpr ⟨(), hcheck,
      Throws.bind_eq_ok.mpr ⟨_, hascii, Throws.bind_eq_ok.mpr ⟨words, hwords, hbytes⟩⟩⟩⟩

/-- The words of data have its bits, and behind them only zeros. -/
theorem take_wordBits_bits (data : NSData) :
    ((((List.range (base64WordCount data.bits.length)).map (base64Word data.bits)).flatMap
      (digitBits 6)).take data.bits.length) = data.bits := by
  have hcount : data.bits.length ≤ base64WordCount data.bits.length * 6 := by
    unfold base64WordCount
    split_ifs <;> omega
  apply List.ext_getElem
  · rw [List.length_take, length_wordBits, List.length_map, List.length_range]
    omega
  · intro k hk hk'
    have hword : k / 6 < base64WordCount data.bits.length := by omega
    have hbit := getD_wordBits
      ((List.range (base64WordCount data.bits.length)).map (base64Word data.bits)) k
    rw [List.getElem?_map, List.getElem?_range hword, Option.map_some, Option.elim_some, id,
      testBit_base64Word, List.getD_eq_getElem _ _ hk', List.getD_eq_getElem _ _ (by
        rw [length_wordBits, List.length_map, List.length_range]
        omega)] at hbit
    rw [List.getElem_take]
    exact hbit

theorem decodedAsBase64Data_encodedAsBase64 (h : data ≠ []) :
    (ofString data.encodedAsBase64).decodedAsBase64Data = .ok data := by
  have hpos : 0 < data.length := List.length_pos_iff.mpr h
  have hbits := length_bits data
  have hlt : ∀ word ∈ (List.range (base64WordCount data.bits.length)).map (base64Word data.bits),
      word < 64 := by
    intro word hword
    obtain ⟨i, -, rfl⟩ := List.mem_map.mp hword
    exact base64Word_lt _ i
  have hcount :
      base64WordCount data.bits.length * 6 = data.bits.length + data.bits.length % 3 * 2 := by
    unfold base64WordCount
    split_ifs <;> omega
  have hne : (List.range (base64WordCount data.bits.length)).map (base64Word data.bits) ≠ [] := by
    apply List.ne_nil_of_length_pos
    rw [List.length_map, List.length_range]
    omega
  have hpadding := paddingCount_base64Text hne hlt (p := data.bits.length % 3) (by omega)
  have hlength := length_base64Text
    ((List.range (base64WordCount data.bits.length)).map (base64Word data.bits))
    (data.bits.length % 3)
  rw [List.length_map, List.length_range] at hlength
  rw [ofString_encodedAsBase64, decodedAsBase64Data_eq_ok hpadding (by omega), hlength]
  have hsame : (base64WordCount data.bits.length + data.bits.length % 3) * 6 -
      data.bits.length % 3 * 8 = data.bits.length := by omega
  rw [hsame]
  refine ⟨by omega, ?_, _, ?_, hlt, (take_wordBits_bits data).symm⟩
  · intro unit hunit
    rcases List.mem_append.mp hunit with hword | hequals
    · obtain ⟨word, hmem, rfl⟩ := List.mem_map.mp hword
      exact base64Unit_lt word (hlt word hmem)
    · rw [List.eq_of_mem_replicate hequals]
      decide
  · rw [Nat.add_sub_cancel]
    apply List.take_left'
    rw [List.length_map, List.length_map, List.length_range]

/-- The bits that are in no byte are zeros. -/
def HasZeroUnusedBits (text : CodeUnits) : Prop :=
  ∀ bits, text.unusedBits = .ok bits → ∀ bit ∈ bits, bit = false

/-- A word is known by its bits, also where the last of them are zeros that are left out. -/
theorem base64Word_take {words : List ℕ} {bitCount i : ℕ} (hi : i < words.length)
    (hlt : words[i] < 64)
    (hzero : ∀ bit ∈ (words.flatMap (digitBits 6)).drop bitCount, bit = false) :
    base64Word ((words.flatMap (digitBits 6)).take bitCount) i = words[i] := by
  have htake : ∀ k, ((words.flatMap (digitBits 6)).take bitCount).getD k false =
      (words.flatMap (digitBits 6)).getD k false := by
    intro k
    rw [List.getD_eq_getElem?_getD, List.getD_eq_getElem?_getD, List.getElem?_take]
    split_ifs with hk
    · rfl
    · cases hbit : (words.flatMap (digitBits 6))[k]? with
      | none => rfl
      | some bit =>
        have hindex : bitCount + (k - bitCount) = k := by omega
        have hdrop : ((words.flatMap (digitBits 6)).drop bitCount)[k - bitCount]? = some bit := by
          rw [List.getElem?_drop, hindex, hbit]
        exact (hzero bit (List.mem_of_getElem? hdrop)).symm
  apply Nat.eq_of_testBit_eq
  intro j
  rw [base64Word, testBit_ofBits, htake]
  by_cases hj : j < 6
  · have hword : (i * 6 + 6 - 1 - j) / 6 = i := by omega
    have hbit : 5 - (i * 6 + 6 - 1 - j) % 6 = j := by omega
    rw [decide_eq_true hj, Bool.true_and, getD_wordBits, hword, hbit,
      List.getElem?_eq_getElem hi]
    rfl
  · have hpow : 2 ^ 6 ≤ 2 ^ j := Nat.pow_le_pow_right (by decide) (Nat.not_lt.mp hj)
    have hword : words[i] < 2 ^ j := Nat.lt_of_lt_of_le hlt hpow
    rw [decide_eq_false hj, Bool.false_and, Nat.testBit_lt_two_pow hword]

theorem encodedAsBase64_of_decodedAsBase64Data (h : text ≠ [])
    (hdata : text.decodedAsBase64Data = .ok data) (hzero : HasZeroUnusedBits text) :
    ofString data.encodedAsBase64 = text := by
  obtain ⟨p, hp, hpadded⟩ := paddingCount_spec h
  have hle := hpadded.le_two
  have hlt := hpadded.lt_length
  obtain ⟨hcheck, hsmall, words, htake, hwords, hbits⟩ :=
    (decodedAsBase64Data_eq_ok hp hle).mp hdata
  have hcount : words.length = text.length - p := by
    have hlength := congrArg List.length htake
    rw [List.length_take, List.length_map] at hlength
    omega
  have hlength : data.bits.length = text.length * 6 - p * 8 := by
    rw [hbits, List.length_take, length_wordBits]
    omega
  have hunused : ∀ bit ∈ (words.flatMap (digitBits 6)).drop (text.length * 6 - p * 8),
      bit = false := by
    have hvalues : (text.take (text.length - p)).map (fun unit => charToValueMap unit.toUInt8) =
        words := by
      rw [htake, List.map_map]
      conv_rhs => rw [← List.map_id words]
      apply List.map_congr_left
      intro word hword
      exact charToValueMap_base64Unit word (hwords word hword)
    apply hzero
    rw [unusedBits, hp, ← hvalues]
    rfl
  have hsame : (List.range (base64WordCount data.bits.length)).map (base64Word data.bits) =
      words := by
    have hwordCount : base64WordCount data.bits.length = words.length := by
      unfold base64WordCount
      split_ifs <;> omega
    apply List.ext_getElem
    · rw [List.length_map, List.length_range, hwordCount]
    · intro i hi hi'
      rw [List.getElem_map, List.getElem_range, hbits]
      exact base64Word_take hi' (hwords _ (List.getElem_mem hi')) hunused
  have hpadding : data.bits.length % 3 = p := by omega
  rw [ofString_encodedAsBase64, hsame, hpadding, base64Text, ← htake, ← hpadded.suffix,
    List.take_append_drop]

theorem refusesInput_decodedAsBase64Data (h : text ≠ []) :
    RefusesInput text.decodedAsBase64Data := by
  obtain ⟨p, hp, hpadded⟩ := paddingCount_spec h
  have hle := hpadded.le_two
  have hlt := hpadded.lt_length
  apply refusesInput_bind (refusesInput_of_eq_ok hp)
  intro _ hsame
  obtain rfl := Except.ok.inj (hp.symm.trans hsame)
  apply refusesInput_bind (refusesInput_of_failsSafely Throws.failsSafely_checkOperation)
  intro _ hcheck
  have hbits := checkOperation_eq_ok.mp hcheck
  apply refusesInput_bind (refusesInput_of_failsSafely (failsSafely_encodedAsAscii text))
  intro asciiData hascii
  obtain ⟨hsmall, rfl⟩ := encodedAsAscii_eq_ok.mp hascii
  apply refusesInput_bind
  · apply refusesInput_mapM
    intro i _
    apply refusesInput_bind (refusesInput_uint8At _ i)
    intro char _
    apply refusesInput_bind refusesInput_owsRequire
    intro _ _
    exact refusesInput_of_eq_ok rfl
  intro words hwords
  obtain ⟨htake, -⟩ := (mapM_words_eq_ok hsmall (Nat.sub_le _ _)).mp hwords
  have hcount : words.length = text.length - p := by
    have hlength := congrArg List.length htake
    rw [List.length_take, List.length_map] at hlength
    omega
  have hlength := length_take_wordBits hcount hle hbits
  apply refusesInput_mapM
  intro i hi
  have hindex := List.mem_range.mp hi
  exact refusesInput_of_eq_ok (if_pos (by omega))

/-- The characters before the padding are of the alphabet of base64. -/
def HasBase64Characters (text : CodeUnits) : Prop :=
  ∀ p, text.paddingCount = .ok p →
    ∃ words : List ℕ, text.take (text.length - p) = words.map base64Unit ∧
      ∀ word ∈ words, word < 64

/-- The bytes of whole bits can be read. -/
theorem exists_mapM_byteOfBits {bits : List Bool} {n : ℕ} (hlength : bits.length = 8 * n) :
    ∃ data, (List.range n).mapM (byteOfBits bits) = .ok data := by
  cases hbytes : (List.range n).mapM (byteOfBits bits) with
  | ok data => exact ⟨data, rfl⟩
  | error e =>
    obtain ⟨i, hi, herror⟩ := Throws.exists_of_mapM_eq_error hbytes
    have hindex := List.mem_range.mp hi
    rw [byteOfBits, if_pos (by omega)] at herror
    cases herror

/-- A character that is not of the alphabet violates a contract. -/
theorem eq_badArgument_of_words {asciiData : NSData} {n : ℕ} {e : Exception}
    (h : ((List.range n).mapM fun i => do
      let char ← asciiData.uint8At i
      owsRequire (charToValueMap char < 64)
      return charToValueMap char) = .error e) : e = .badArgument := by
  obtain ⟨i, -, herror⟩ := Throws.exists_of_mapM_eq_error h
  unfold uint8At at herror
  split at herror
  · exact (Except.error.inj herror).symm
  · rename_i char _
    have hround : (owsRequire (charToValueMap char < 64) >>= fun _ =>
        (.ok (charToValueMap char) : Throws ℕ)) = .error e := herror
    unfold owsRequire at hround
    split_ifs at hround
    · cases hround
    · exact (Except.error.inj hround).symm

/-- What is left to do where the size of a string is right, and its characters are ASCII. -/
theorem decodedAsBase64Data_eq {p : ℕ} (hp : text.paddingCount = .ok p)
    (hbits : (text.length * 6 - p * 8) % 8 = 0) (hsmall : ∀ unit ∈ text, unit < 0x80) :
    text.decodedAsBase64Data =
      ((List.range (text.length - p)).mapM fun i => do
        let char ← uint8At (text.map UInt16.toUInt8) i
        owsRequire (charToValueMap char < 64)
        return charToValueMap char) >>= fun words =>
      (List.range ((text.length * 6 - p * 8) / 8)).mapM
        (byteOfBits ((words.flatMap (digitBits 6)).take (text.length * 6 - p * 8))) := by
  have hcheck : checkOperation ((text.length * 6 - p * 8) % 8 = 0) = .ok () :=
    checkOperation_eq_ok.mpr hbits
  have hascii := encodedAsAscii_eq_ok.mpr ⟨hsmall, rfl⟩
  rw [decodedAsBase64Data, hp]
  change (checkOperation _ >>= fun _ => text.encodedAsAscii >>= _) = _
  rw [hcheck, hascii]
  rfl

/-- A string is refused by another exception than `OperationFailed` where one of its characters is
not of the alphabet, and nothing else about it is wrong. -/
theorem failsSafely_decodedAsBase64Data (h : text ≠ []) :
    Throws.FailsSafely text.decodedAsBase64Data ↔
      ((∀ p, text.paddingCount = .ok p → (text.length * 6 - p * 8) % 8 = 0) →
        (∀ unit ∈ text, unit < 0x80) → HasBase64Characters text) := by
  obtain ⟨p, hp, hpadded⟩ := paddingCount_spec h
  have hle := hpadded.le_two
  have hcount : ∀ p', text.paddingCount = .ok p' ↔ p' = p := fun p' => by
    rw [hp]
    exact ⟨fun hsame => (Except.ok.inj hsame).symm, fun hsame => hsame ▸ rfl⟩
  simp only [HasBase64Characters, hcount, forall_eq]
  by_cases hbits : (text.length * 6 - p * 8) % 8 = 0
  · by_cases hsmall : ∀ unit ∈ text, unit < 0x80
    · have hread := fun words => @mapM_words_eq_ok words _ _ hsmall (Nat.sub_le text.length p)
      rw [decodedAsBase64Data_eq hp hbits hsmall]
      constructor
      · intro hsafe _ _
        cases hwords : (List.range (text.length - p)).mapM fun i => do
            let char ← uint8At (text.map UInt16.toUInt8) i
            owsRequire (charToValueMap char < 64)
            return charToValueMap char with
        | ok words => exact ⟨words, (hread words).mp hwords⟩
        | error e =>
          rw [hwords] at hsafe
          obtain ⟨description, rfl⟩ := hsafe e rfl
          cases eq_badArgument_of_words hwords
      · intro hcharacters
        obtain ⟨words, hwords⟩ := hcharacters hbits hsmall
        rw [(hread words).mpr hwords, Throws.failsSafely_ok_bind]
        have hlength := congrArg List.length hwords.1
        rw [List.length_take, List.length_map] at hlength
        have hcount : words.length = text.length - p := by omega
        obtain ⟨data, hdata⟩ := exists_mapM_byteOfBits (length_take_wordBits hcount hle hbits)
        exact Throws.failsSafely_of_eq_ok hdata
    · apply iff_of_true _ (fun _ hall => absurd hall hsmall)
      rw [decodedAsBase64Data, hp, Throws.failsSafely_ok_bind]
      apply Throws.failsSafely_bind.mpr ⟨Throws.failsSafely_checkOperation, fun _ _ => ?_⟩
      apply Throws.failsSafely_bind.mpr ⟨failsSafely_encodedAsAscii text, fun _ hascii => ?_⟩
      exact absurd (encodedAsAscii_eq_ok.mp hascii).1 hsmall
  · apply iff_of_true _ (fun hall => absurd hall hbits)
    rw [decodedAsBase64Data, hp, Throws.failsSafely_ok_bind]
    apply Throws.failsSafely_bind.mpr ⟨Throws.failsSafely_checkOperation, fun _ hcheck => ?_⟩
    exact absurd (checkOperation_eq_ok.mp hcheck) hbits

/-- The string without characters has no last one to look at. -/
theorem decodedAsBase64Data_nil : decodedAsBase64Data [] = .error .nsRangeException := by decide

/-- What is to be expected of a string: it is read or refused, and where no bits of it go
unused it is what encoding gives back. -/
structure ReadsBase64 (text : CodeUnits) : Prop where
  refuses : (∃ data, text.decodedAsBase64Data = .ok data) ∨
    (∃ description, text.decodedAsBase64Data = .error (.operationFailed description)) ∨
      text.decodedAsBase64Data = .error .badArgument
  encoded : ∀ data, text.decodedAsBase64Data = .ok data → HasZeroUnusedBits text →
    ofString data.encodedAsBase64 = text

theorem not_readsBase64_nil : ¬ ReadsBase64 [] := by
  intro h
  rcases h.refuses with ⟨_, hdata⟩ | ⟨_, herror⟩ | herror
  · cases decodedAsBase64Data_nil.symm.trans hdata
  · cases decodedAsBase64Data_nil.symm.trans herror
  · cases decodedAsBase64Data_nil.symm.trans herror

/-- The two directions agree, and strings are read or refused, but for what is empty. -/
theorem decodedAsBase64Data_spec (data : NSData) (text : CodeUnits) :
    ((ofString data.encodedAsBase64).decodedAsBase64Data = .ok data ↔ data ≠ []) ∧
      (ReadsBase64 text ↔ text ≠ []) := by
  constructor
  · constructor
    · intro h hempty
      subst hempty
      cases decodedAsBase64Data_nil.symm.trans h
    · exact decodedAsBase64Data_encodedAsBase64
  · constructor
    · intro h hempty
      exact not_readsBase64_nil (hempty ▸ h)
    · intro h
      constructor
      · cases hresult : text.decodedAsBase64Data with
        | ok data => exact .inl ⟨data, rfl⟩
        | error e =>
          rcases refusesInput_decodedAsBase64Data h e hresult with ⟨description, rfl⟩ | rfl
          · exact .inr (.inl ⟨description, rfl⟩)
          · exact .inr (.inr rfl)
      · intro data hdata hzero
        exact encodedAsBase64_of_decodedAsBase64Data h hdata hzero

/-- The empty data is encoded as the empty string, which cannot be read. -/
theorem decodedAsBase64Data_empty :
    ¬ (∀ data : NSData, (ofString data.encodedAsBase64).decodedAsBase64Data = .ok data) ∧
      ¬ ∀ text : CodeUnits, ReadsBase64 text := by
  constructor
  · intro h
    exact absurd (h []) (by decide)
  · intro h
    exact not_readsBase64_nil (h [])

end Decoding

end CodeUnits
end SignalIOS
