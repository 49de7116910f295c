import SignalIOS.Util.JSONSerialization

/-! A `JSONSerialization` for objects without nesting, whose values are strings, integers and
Booleans. It writes and reads no white space. -/
namespace SignalIOS.FlatJson
open NSString

def writtenCharacter (c : Char) : NSString :=
  if c = '"' ∨ c = '\\' ∨ c = '/' then ['\\', c] else [c]

def writtenString (text : NSString) : NSString := '"' :: text.flatMap writtenCharacter ++ ['"']

def writtenValue : JSONValue → NSString
  | .number (.boolean value) => if value then "true".toList else "false".toList
  | .number number => number.description
  | .string text => writtenString text
  | .other => "null".toList

def writtenEntry (entry : NSString × JSONValue) : NSString :=
  writtenString entry.1 ++ ':' :: writtenValue entry.2

/-- The entries and the brace after them. -/
def writtenEntries : List (NSString × JSONValue) → NSString
  | [] => ['}']
  | [entry] => writtenEntry entry ++ ['}']
  | entry :: entries => writtenEntry entry ++ ',' :: writtenEntries entries

def writtenObject (entries : List (NSString × JSONValue)) : NSString := '{' :: writtenEntries entries

/-- The characters before the next quotation mark, and what follows that. -/
def readCharacters : NSString → Option (NSString × NSString)
  | [] => none
  | '"' :: rest => some ([], rest)
  | '\\' :: c :: rest => (readCharacters rest).map fun read => (c :: read.1, read.2)
  | c :: rest => (readCharacters rest).map fun read => (c :: read.1, read.2)

def readMagnitude (text : NSString) : Option (ℕ × NSString) :=
  match text.takeWhile Char.isDigit with
  | [] => none
  | digits => some (Nat.ofDigitChars 10 digits 0, text.dropWhile Char.isDigit)

def readValue : NSString → Option (JSONValue × NSString)
  | '"' :: text => (readCharacters text).map fun read => (.string read.1, read.2)
  | 't' :: 'r' :: 'u' :: 'e' :: rest => some (.number (.boolean true), rest)
  | 'f' :: 'a' :: 'l' :: 's' :: 'e' :: rest => some (.number (.boolean false), rest)
  | '-' :: text => (readMagnitude text).map fun read => (.number (.integer (-read.1)), read.2)
  | text => (readMagnitude text).map fun read => (.number (.integer read.1), read.2)

/-- At most so many entries are read, up to the end of the text. -/
def readEntries : ℕ → NSString → Option (List (NSString × JSONValue))
  | n + 1, '"' :: text =>
    match readCharacters text with
    | some (key, ':' :: text) =>
      match readValue text with
      | some (value, ',' :: rest) => (readEntries n rest).map ((key, value) :: ·)
      | some (value, ['}']) => some [(key, value)]
      | _ => none
    | _ => none
  | _, _ => none

def readObject : NSString → Option (List (NSString × JSONValue))
  | ['{', '}'] => some []
  | '{' :: text => readEntries text.length text
  | _ => none

def jsonObjectWithData (data : NSData) : Except NSString JSONObject :=
  match data.decodedAsUtf8 with
  | .error _ => .error "The data is not UTF-8.".toList
  | .ok text =>
    match readObject text with
    | none => .error "The text is not an object.".toList
    | some entries => .ok (.dictionary (entries.lookup ·))

local instance jsonSerialization : JSONSerialization where
  jsonObjectWithData := jsonObjectWithData
  dataWithJSONObject entries := .ok (writtenObject entries).encodedAsUtf8

theorem readCharacters_cons {c : Char} (rest : NSString) (hquote : c ≠ '"') (hescape : c ≠ '\\') :
    readCharacters (c :: rest) =
      (readCharacters rest).map fun read => (c :: read.1, read.2) := by
  rw [readCharacters]
  · exact hquote
  · intro _ _ h
    exact absurd h hescape

theorem readCharacters_writtenCharacter (c : Char) (rest : NSString) :
    readCharacters (writtenCharacter c ++ rest) =
      (readCharacters rest).map fun read => (c :: read.1, read.2) := by
  unfold writtenCharacter
  split_ifs with hescaped
  · rfl
  · simp only [not_or] at hescaped
    exact readCharacters_cons rest hescaped.1 hescaped.2.1

/-- A string is read as it was written. -/
theorem readCharacters_written (text rest : NSString) :
    readCharacters (text.flatMap writtenCharacter ++ '"' :: rest) = some (text, rest) := by
  induction text with
  | nil => rfl
  | cons c text ih =>
    rw [List.flatMap_cons, List.append_assoc, readCharacters_writtenCharacter, ih]
    rfl

theorem readMagnitude_ofNumber (n : ℕ) {c : Char} (hc : c.isDigit = false) (rest : NSString) :
    readMagnitude (ofNumber n ++ c :: rest) = some (n, c :: rest) := by
  have hdigits : ∀ d ∈ ofNumber n, d.isDigit = true := fun _ => isDigit_of_mem_ofNumber
  have htake : (ofNumber n ++ c :: rest).takeWhile Char.isDigit = ofNumber n := by
    rw [List.takeWhile_append_of_pos hdigits, List.takeWhile_cons_of_neg (by rw [hc]; decide),
      List.append_nil]
  have hdrop : (ofNumber n ++ c :: rest).dropWhile Char.isDigit = c :: rest := by
    rw [List.dropWhile_append_of_pos hdigits, List.dropWhile_cons_of_neg (by rw [hc]; decide)]
  rw [readMagnitude, htake, hdrop]
  split
  case h_1 hempty => exact absurd hempty (ofNumber_ne_nil n)
  case h_2 => rw [ofDigitChars_ofNumber]

theorem readValue_ofNumber (n : ℕ) (rest : NSString) :
    readValue (ofNumber n ++ rest) =
      (readMagnitude (ofNumber n ++ rest)).map fun read =>
        (.number (.integer read.1), read.2) := by
  obtain ⟨c, digits, hnumber⟩ := List.exists_cons_of_ne_nil (ofNumber_ne_nil n)
  have hfirst : c ∈ ofNumber n := hnumber ▸ List.mem_cons_self
  have hne : ∀ (d : Char) (text : NSString), d.toNat < 48 ∨ 57 < d.toNat →
      c :: (digits ++ rest) ≠ d :: text := by
    intro d text hd h
    exact notMem_ofNumber hd ((List.cons.inj h).1 ▸ hfirst)
  rw [hnumber, List.cons_append, readValue]
  · exact fun text => hne '"' text (by decide)
  · exact fun text => hne 't' _ (by decide)
  · exact fun text => hne 'f' _ (by decide)
  · exact fun text => hne '-' text (by decide)

/-- A value is read as it was written, when no digit follows. -/
theorem readValue_written {value : JSONValue} (hwritable : value.IsWritable) {c : Char}
    (hc : c.isDigit = false) (rest : NSString) :
    readValue (writtenValue value ++ c :: rest) = some (value, c :: rest) := by
  cases value with
  | other => exact hwritable.elim
  | string text =>
    rw [writtenValue, writtenString, List.append_assoc, List.cons_append, readValue,
      List.singleton_append, readCharacters_written]
    rfl
  | number number =>
    cases number with
    | boolean => exact hwritable.elim
    | fraction => exact hwritable.elim
    | integer value =>
      have hwritten : writtenValue (.number (.integer value)) =
          JSONNumber.description (.integer value) := rfl
      rw [hwritten, JSONNumber.description]
      split_ifs with hsign
      · have habs : -(value.natAbs : ℤ) = value := by omega
        rw [List.cons_append, readValue, readMagnitude_ofNumber _ hc, Option.map_some, habs]
      · have habs : (value.natAbs : ℤ) = value := by omega
        rw [readValue_ofNumber, readMagnitude_ofNumber _ hc, Option.map_some, habs]

theorem length_le_writtenEntries (entries : List (NSString × JSONValue)) :
    entries.length ≤ (writtenEntries entries).length := by
  fun_induction writtenEntries entries with
  | case1 => exact Nat.zero_le _
  | case2 entry => exact List.length_pos_of_ne_nil (List.append_ne_nil_of_right_ne_nil _ (by simp))
  | case3 entry entries _ ih =>
    simp only [List.length_append, List.length_cons] at ih ⊢
    omega

/-- The entries of an object that is not empty are read as they were written. -/
theorem readEntries_written {entries : List (NSString × JSONValue)} (hne : entries ≠ [])
    (hwritable : ∀ entry ∈ entries, entry.2.IsWritable) {n : ℕ} (hn : entries.length ≤ n) :
    readEntries n (writtenEntries entries) = some entries := by
  induction entries generalizing n with
  | nil => exact absurd rfl hne
  | cons entry entries ih =>
    obtain ⟨n, rfl⟩ := Nat.exists_eq_add_one_of_ne_zero (Nat.ne_of_gt (Nat.lt_of_lt_of_le
      (Nat.succ_pos entries.length) hn))
    have hvalue := hwritable entry List.mem_cons_self
    cases entries with
    | nil =>
      rw [writtenEntries, writtenEntry, writtenString]
      simp only [List.cons_append, List.append_assoc, List.nil_append, readEntries,
        readCharacters_written, readValue_written hvalue (c := '}') rfl]
    | cons next entries =>
      have hrest := ih (List.cons_ne_nil _ _) (fun e he => hwritable e (List.mem_cons_of_mem _ he))
        (Nat.le_of_succ_le_succ hn)
      rw [writtenEntries, writtenEntry, writtenString]
      simp only [List.cons_append, List.append_assoc, List.nil_append, readEntries,
        readCharacters_written, readValue_written hvalue (c := ',') rfl, hrest, Option.map_some]
      simp

theorem readObject_written {entries : List (NSString × JSONValue)}
    (hwritable : ∀ entry ∈ entries, entry.2.IsWritable) :
    readObject (writtenObject entries) = some entries := by
  by_cases hne : entries = []
  · rw [hne]
    rfl
  have hread := readEntries_written hne hwritable (length_le_writtenEntries entries)
  rw [writtenObject, readObject]
  · exact hread
  · intro hbrace
    have hnone : ∀ n, readEntries n ['}'] = none := fun n => by cases n <;> rfl
    rw [hbrace, hnone] at hread
    cases hread

theorem jsonObjectWithData_of_readObject {text : NSString}
    {entries : List (NSString × JSONValue)} (h : readObject text = some entries) :
    JSONSerialization.jsonObjectWithData text.encodedAsUtf8 =
      .ok (.dictionary (entries.lookup ·)) := by
  have hdecoded : text.encodedAsUtf8.decodedAsUtf8 = .ok text := NSData.decodedAsUtf8_eq_ok.mpr rfl
  change jsonObjectWithData _ = _
  rw [jsonObjectWithData, hdecoded]
  dsimp only
  rw [h]

theorem lawful_jsonSerialization : JSONSerialization.Lawful where
  reads_written entries hwritable _ :=
    ⟨writtenObject entries, rfl, jsonObjectWithData_of_readObject (readObject_written hwritable)⟩

end SignalIOS.FlatJson
