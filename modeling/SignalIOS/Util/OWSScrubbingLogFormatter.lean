import SignalIOS.Lib.Patterns
import SignalIOS.Util.NSString

/-! `OWSScrubbingLogFormatter`, which replaces the phone numbers in the lines of a log. -/
namespace SignalIOS
open SignalIOS.Lib Pattern

/-- The characters of the Unicode category Nd, which `\d` stands for. Among the ASCII characters
these are the ten digits. -/
structure DecimalDigits where
  contains : Char → Bool
  ascii : ∀ c, c.toNat < 128 → contains c = c.isDigit

/-- What the matches are replaced by. It refers to no group. -/
def redactedTemplate : NSString := "[ REDACTED_PHONE_NUMBER ]".toList

namespace DecimalDigits

/-- `\+\d{7,12}(\d{3})`. -/
def phoneRegex (digits : DecimalDigits) : Pattern Char :=
  .seq (.char (· == '+')) (.seq (.repetition (.char digits.contains) 7 5)
    (.group (.repetition (.char digits.contains) 3 0)))

def filteredString (digits : DecimalDigits) (string : NSString) : NSString :=
  digits.phoneRegex.replaceMatches redactedTemplate string

/-- The line that the superclass formats is filtered. -/
def formatLogMessage {DDLogMessage : Type} (digits : DecimalDigits)
    (superFormatLogMessage : DDLogMessage → NSString) (logMessage : DDLogMessage) : NSString :=
  digits.filteredString (superFormatLogMessage logMessage)

variable {digits : DecimalDigits} {c : Char} {l l' rest text : NSString}

theorem not_contains_plus (digits : DecimalDigits) : digits.contains '+' = false :=
  digits.ascii '+' (by decide)

theorem not_contains_bracket (digits : DecimalDigits) : digits.contains '[' = false :=
  digits.ascii '[' (by decide)

theorem matchEnd_plus (digits : DecimalDigits) (l : NSString) :
    digits.phoneRegex.matchEnd ('+' :: l) =
      if 10 ≤ run digits.contains l then some (l.drop (min 15 (run digits.contains l)))
        else none := by
  have hplus : digits.phoneRegex.matchEnd ('+' :: l) =
      (seq (repetition (char digits.contains) 7 5)
        (repetition (char digits.contains) 3 0)).matchEnd l :=
    congrArg List.head? (List.flatMap_singleton _ l)
  rw [hplus, matchEnd_repetition]

theorem matchEnd_of_ne (h : c ≠ '+') : digits.phoneRegex.matchEnd (c :: l) = none := by
  have hends : (char (· == '+')).ends (c :: l) = [] := ends_char_of_neg (beq_false_of_ne h)
  rw [phoneRegex, matchEnd, ends, hends]
  rfl

theorem matchEnd_nil : digits.phoneRegex.matchEnd [] = none := rfl

theorem matchEnd_plus_eq_none :
    digits.phoneRegex.matchEnd ('+' :: l) = none ↔ run digits.contains l < 10 := by
  rw [matchEnd_plus]
  by_cases h : 10 ≤ run digits.contains l
  · rw [if_pos h]
    exact iff_of_false (Option.some_ne_none _) (Nat.not_lt.mpr h)
  · rw [if_neg h]
    exact iff_of_true rfl (Nat.lt_of_not_le h)

theorem consumes_phoneRegex (digits : DecimalDigits) : digits.phoneRegex.Consumes := by
  intro l rest h
  cases l with
  | nil => cases h
  | cons c l =>
    by_cases hc : c = '+'
    · subst hc
      rw [matchEnd_plus] at h
      split_ifs at h
      obtain rfl := Option.some.inj h
      rw [List.length_drop, List.length_cons]
      omega
    · rw [matchEnd_of_ne hc] at h
      cases h

theorem run_of_not_contains (h : ∀ c ∈ l'.head?, digits.contains c = false) :
    run digits.contains l' = 0 := by
  cases l' with
  | nil => rfl
  | cons c l' => exact run_cons_of_neg (h c rfl)

theorem run_append (h : ∀ c ∈ l'.head?, digits.contains c = false) (l : NSString) :
    run digits.contains (l ++ l') = run digits.contains l := by
  induction l with
  | nil => exact run_of_not_contains h
  | cons c l ih =>
    cases hc : digits.contains c with
    | true => rw [List.cons_append, run_cons_of_pos hc, run_cons_of_pos hc, ih]
    | false => rw [List.cons_append, run_cons_of_neg hc, run_cons_of_neg hc]

theorem run_of_digits (h : ∀ c ∈ l, digits.contains c = true) :
    run digits.contains l = l.length := by
  rw [run, List.takeWhile_eq_self_iff.mpr h]

/-- A match ends before a character that is no digit. -/
theorem matchEnd_append (h : ∀ c ∈ l'.head?, digits.contains c = false) (hl : l ≠ []) :
    digits.phoneRegex.matchEnd (l ++ l') = (digits.phoneRegex.matchEnd l).map (· ++ l') := by
  obtain ⟨c, l, rfl⟩ := List.exists_cons_of_ne_nil hl
  rw [List.cons_append]
  by_cases hc : c = '+'
  · subst hc
    rw [matchEnd_plus, matchEnd_plus, run_append h]
    by_cases hrun : 10 ≤ run digits.contains l
    · have hle := run_le digits.contains l
      rw [if_pos hrun, if_pos hrun, Option.map_some, List.drop_append_of_le_length (by omega)]
    · rw [if_neg hrun, if_neg hrun, Option.map_none]
  · rw [matchEnd_of_ne hc, matchEnd_of_ne hc, Option.map_none]

theorem filteredString_append (h : ∀ c ∈ l'.head?, digits.contains c = false) (l : NSString) :
    digits.filteredString (l ++ l') = digits.filteredString l ++ digits.filteredString l' :=
  digits.consumes_phoneRegex.replaceMatches_append fun _ _ hfront => matchEnd_append h hfront

/-- A phone number by its digits, with the text behind it up to the next one. -/
structure NumberAndText where
  number : NSString
  text : NSString

/-- The digits are between 10 and 15, and no other digit follows. -/
structure IsPhoneNumber (digits : DecimalDigits) (n : NumberAndText) : Prop where
  contains : ∀ c ∈ n.number, digits.contains c = true
  least : 10 ≤ n.number.length
  most : n.number.length ≤ 15
  maximal : ∀ c ∈ n.text.head?, digits.contains c = false

/-- A line with the numbers in it. -/
def line (text : NSString) (numbers : List NumberAndText) : NSString :=
  text ++ numbers.flatMap fun n => '+' :: n.number ++ n.text

/-- The line with something else in the place of its numbers. -/
def redactedLine (text : NSString) (numbers : List NumberAndText) : NSString :=
  text ++ numbers.flatMap fun n => redactedTemplate ++ n.text

theorem line_cons (text : NSString) (n : NumberAndText) (numbers : List NumberAndText) :
    line text (n :: numbers) = text ++ '+' :: (n.number ++ line n.text numbers) := by
  simp only [line, List.flatMap_cons, List.cons_append, List.append_assoc]

theorem head?_line {n : NumberAndText} (h : IsPhoneNumber digits n)
    (numbers : List NumberAndText) :
    ∀ c ∈ (line n.text numbers).head?, digits.contains c = false := by
  intro c hc
  cases htext : n.text with
  | cons c' text =>
    rw [htext] at hc
    exact h.maximal c (by rw [htext]; exact hc)
  | nil =>
    cases numbers with
    | nil =>
      rw [htext] at hc
      cases hc
    | cons n' numbers =>
      rw [htext, line_cons] at hc
      obtain rfl := Option.some.inj hc
      exact digits.not_contains_plus

/-- Numbers are replaced as a whole, and the text between them on its own. -/
theorem filteredString_line {numbers : List NumberAndText}
    (h : ∀ n ∈ numbers, IsPhoneNumber digits n) (text : NSString) :
    digits.filteredString (line text numbers) = digits.filteredString text ++
      numbers.flatMap fun n => redactedTemplate ++ digits.filteredString n.text := by
  induction numbers generalizing text with
  | nil => rw [line, List.flatMap_nil, List.flatMap_nil, List.append_nil, List.append_nil]
  | cons n numbers ih =>
    obtain ⟨hn, hnumbers⟩ := List.forall_mem_cons.mp h
    have hrun : run digits.contains (n.number ++ line n.text numbers) = n.number.length := by
      rw [run_append (head?_line hn numbers), run_of_digits hn.contains]
    have hmatch : digits.phoneRegex.matchEnd ('+' :: (n.number ++ line n.text numbers)) =
        some (line n.text numbers) := by
      rw [matchEnd_plus, hrun, if_pos hn.least, Nat.min_eq_right hn.most, List.drop_left]
    have hplus : ∀ c ∈ ('+' :: (n.number ++ line n.text numbers)).head?,
        digits.contains c = false := by
      intro c hc
      obtain rfl := Option.some.inj hc
      exact digits.not_contains_plus
    have hreplaced : digits.filteredString ('+' :: (n.number ++ line n.text numbers)) =
        redactedTemplate ++ digits.filteredString (line n.text numbers) :=
      replaceMatches_match hmatch (digits.consumes_phoneRegex _ _ hmatch)
    rw [line_cons, filteredString_append hplus, hreplaced, ih hnumbers, List.flatMap_cons,
      List.append_assoc]

/-- The text contains no plus sign with ten digits behind it. -/
def HasNoNumber (digits : DecimalDigits) (text : NSString) : Prop :=
  ∀ number : NSString, number.length = 10 → (∀ c ∈ number, digits.contains c = true) →
    ¬ '+' :: number <:+: text

theorem hasNoNumber_iff :
    HasNoNumber digits text ↔ ∀ l, l <:+ text → digits.phoneRegex.matchEnd l = none := by
  constructor
  · intro h l hl
    cases l with
    | nil => exact matchEnd_nil
    | cons c l =>
      by_cases hc : c = '+'
      · subst hc
        apply matchEnd_plus_eq_none.mpr
        by_contra hrun
        have hten : 10 ≤ (l.takeWhile digits.contains).length := Nat.not_lt.mp hrun
        have hprefix : (l.takeWhile digits.contains).take 10 <+: l :=
          (List.take_prefix _ _).trans (List.takeWhile_prefix _)
        apply h ((l.takeWhile digits.contains).take 10) (List.length_take_of_le hten)
        · exact fun c hc => List.mem_takeWhile_imp (List.mem_of_mem_take hc)
        · exact ((List.prefix_cons_inj '+').mpr hprefix).isInfix.trans hl.isInfix
      · exact matchEnd_of_ne hc
  · intro h number hlength hcontains ⟨front, back, htext⟩
    have hnone := h ('+' :: number ++ back) ⟨front, by rw [← htext, List.append_assoc]⟩
    have hrun : run digits.contains (number ++ back) < 10 := matchEnd_plus_eq_none.mp hnone
    rw [run, List.takeWhile_append_of_pos hcontains, List.length_append] at hrun
    omega

theorem filteredString_of_hasNoNumber (h : HasNoNumber digits text) :
    digits.filteredString text = text :=
  replaceMatches_of_no_match (hasNoNumber_iff.mp h)

/-- What a line begins with as digits is not touched. -/
theorem run_filteredString (digits : DecimalDigits) (l : NSString) :
    run digits.contains (digits.filteredString l) = run digits.contains l := by
  induction l using digits.consumes_phoneRegex.induction with
  | nil => rw [filteredString, digits.consumes_phoneRegex.replaceMatches_nil]
  | copied c l hnone ih =>
    rw [filteredString, replaceMatches_cons hnone, ← filteredString]
    cases hc : digits.contains c with
    | true => rw [run_cons_of_pos hc, run_cons_of_pos hc, ih]
    | false => rw [run_cons_of_neg hc, run_cons_of_neg hc]
  | replaced l rest hsome ih =>
    rw [filteredString, replaceMatches_match hsome (digits.consumes_phoneRegex l rest hsome)]
    have hfront : run digits.contains
        (redactedTemplate ++ digits.phoneRegex.replaceMatches redactedTemplate rest) = 0 :=
      run_cons_of_neg digits.not_contains_bracket
    cases l with
    | nil => cases hsome
    | cons c l =>
      by_cases hc : c = '+'
      · subst hc
        rw [hfront, run_cons_of_neg digits.not_contains_plus]
      · rw [matchEnd_of_ne hc] at hsome
        cases hsome

/-- Nothing is found from inside of text without plus signs. -/
theorem matchEnd_append_of_notMem (h : '+' ∉ l)
    (hl' : ∀ back, back <:+ l' → digits.phoneRegex.matchEnd back = none) :
    ∀ back, back <:+ l ++ l' → digits.phoneRegex.matchEnd back = none := by
  induction l with
  | nil => exact hl'
  | cons c l ih =>
    obtain ⟨hc, hmem⟩ := List.ne_and_not_mem_of_not_mem_cons h
    intro back hback
    rcases List.suffix_cons_iff.mp hback with rfl | hback
    · exact matchEnd_of_ne (Ne.symm hc)
    · exact ih hmem back hback

/-- No number is left in a filtered line. -/
theorem hasNoNumber_filteredString (digits : DecimalDigits) (string : NSString) :
    HasNoNumber digits (digits.filteredString string) := by
  rw [hasNoNumber_iff]
  induction string using digits.consumes_phoneRegex.induction with
  | nil =>
    rw [filteredString, digits.consumes_phoneRegex.replaceMatches_nil]
    intro back hback
    rw [List.suffix_nil.mp hback]
    exact matchEnd_nil
  | copied c l hnone ih =>
    rw [filteredString, replaceMatches_cons hnone, ← filteredString]
    intro back hback
    rcases List.suffix_cons_iff.mp hback with rfl | hback
    · by_cases hc : c = '+'
      · subst hc
        rw [matchEnd_plus_eq_none, run_filteredString, ← matchEnd_plus_eq_none]
        exact hnone
      · exact matchEnd_of_ne hc
    · exact ih back hback
  | replaced l rest hsome ih =>
    rw [filteredString, replaceMatches_match hsome (digits.consumes_phoneRegex l rest hsome),
      ← filteredString]
    exact matchEnd_append_of_notMem (by decide) ih

/-- The lines are the same but for the digits of their numbers. -/
def DifferInNumbers (digits : DecimalDigits) (l l' : NSString) : Prop :=
  ∃ text numbers numbers', l = line text numbers ∧ l' = line text numbers' ∧
    (∀ n ∈ numbers, IsPhoneNumber digits n) ∧ (∀ n ∈ numbers', IsPhoneNumber digits n) ∧
    numbers.map NumberAndText.text = numbers'.map NumberAndText.text

/-- What is expected of the formatter, whatever lines it inherits. A line that it has scrubbed is
one of them. -/
structure HidesPhoneNumbers (digits : DecimalDigits) : Prop where
  hides : ∀ {DDLogMessage : Type} (superFormatLogMessage : DDLogMessage → NSString)
    (logMessage logMessage' : DDLogMessage),
    DifferInNumbers digits (superFormatLogMessage logMessage)
      (superFormatLogMessage logMessage') →
    digits.formatLogMessage superFormatLogMessage logMessage =
      digits.formatLogMessage superFormatLogMessage logMessage'
  keeps : ∀ {DDLogMessage : Type} (superFormatLogMessage : DDLogMessage → NSString)
    (logMessage : DDLogMessage) (text : NSString) (numbers : List NumberAndText),
    superFormatLogMessage logMessage = line text numbers →
    (∀ n ∈ numbers, IsPhoneNumber digits n) → HasNoNumber digits text →
    (∀ n ∈ numbers, HasNoNumber digits n.text) →
      digits.formatLogMessage superFormatLogMessage logMessage = redactedLine text numbers
  idempotent : ∀ {DDLogMessage : Type} (superFormatLogMessage : DDLogMessage → NSString)
    (logMessage logMessage' : DDLogMessage),
    superFormatLogMessage logMessage' =
      digits.formatLogMessage superFormatLogMessage logMessage →
    digits.formatLogMessage superFormatLogMessage logMessage' =
      digits.formatLogMessage superFormatLogMessage logMessage

/-- Numbers in text that has no others are all that is replaced. -/
theorem filteredString_eq_redactedLine {numbers : List NumberAndText}
    (hnumbers : ∀ n ∈ numbers, IsPhoneNumber digits n) (htext : HasNoNumber digits text)
    (htexts : ∀ n ∈ numbers, HasNoNumber digits n.text) :
    digits.filteredString (line text numbers) = redactedLine text numbers := by
  have hkept : ∀ n ∈ numbers, redactedTemplate ++ digits.filteredString n.text =
      redactedTemplate ++ n.text := fun n hn => by
    rw [filteredString_of_hasNoNumber (htexts n hn)]
  rw [filteredString_line hnumbers, filteredString_of_hasNoNumber htext, redactedLine,
    List.flatMap_congr hkept]

/-- Two lines that differ in their numbers become the same, with all other text as it was. -/
theorem hidesPhoneNumbers (digits : DecimalDigits) : HidesPhoneNumbers digits where
  hides := by
    intro DDLogMessage superFormatLogMessage logMessage logMessage'
    rintro ⟨text, numbers, numbers', hline, hline', hnumbers, hnumbers', htexts⟩
    have hflat (ns : List NumberAndText) :
        (ns.flatMap fun n => redactedTemplate ++ digits.filteredString n.text) =
          (ns.map NumberAndText.text).flatMap fun text =>
            redactedTemplate ++ digits.filteredString text := by
      rw [List.flatMap_map]
    rw [formatLogMessage, formatLogMessage, hline, hline', filteredString_line hnumbers,
      filteredString_line hnumbers', hflat, hflat, htexts]
  keeps := by
    intro DDLogMessage superFormatLogMessage logMessage text numbers hline hnumbers htext htexts
    rw [formatLogMessage, hline, filteredString_eq_redactedLine hnumbers htext htexts]
  idempotent := by
    intro DDLogMessage superFormatLogMessage logMessage logMessage' hscrubbed
    have hnone := digits.hasNoNumber_filteredString (superFormatLogMessage logMessage)
    rw [formatLogMessage, hscrubbed, formatLogMessage, filteredString_of_hasNoNumber hnone]

section Sample

def asciiDigits : DecimalDigits := ⟨Char.isDigit, fun _ _ => rfl⟩

example : asciiDigits.filteredString "from +4113331231234+12345, to +13331231234567890".toList =
    "from [ REDACTED_PHONE_NUMBER ]+12345, to [ REDACTED_PHONE_NUMBER ]90".toList := by
  decide +kernel

end Sample

end DecimalDigits
end SignalIOS
