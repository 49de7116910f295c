import Mathlib.Data.List.Infix
import Mathlib.Data.Nat.Notation

/-! Regular expressions as a backtracking matcher reads them, with greedy repetitions, and the
replacement of their matches from left to right. -/
namespace SignalIOS.Lib

inductive Pattern (α : Type)
  /-- One character of a class. -/
  | char (isMember : α → Bool)
  | seq (first second : Pattern α)
  /-- At least `least` times and at most `least + more` times, and rather more often than less. -/
  | repetition (p : Pattern α) (least more : ℕ)
  | group (p : Pattern α)

namespace Pattern

variable {α : Type} {isMember : α → Bool} {l l' rest template : List α} {a : α}

/-- The ways to match up to `more` times, the one with most matches first. -/
def upTo (ends : List α → List (List α)) : ℕ → List α → List (List α)
  | 0, l => [l]
  | more + 1, l => (ends l).flatMap (upTo ends more) ++ [l]

/-- The ways to match `least` times, and then up to `more` times. -/
def repeated (ends : List α → List (List α)) (more : ℕ) : ℕ → List α → List (List α)
  | 0, l => upTo ends more l
  | least + 1, l => (ends l).flatMap (repeated ends more least)

/-- What is left of a text behind the matches at its beginning, in the order that these are tried
in. -/
def ends : Pattern α → List α → List (List α)
  | char isMember, a :: l => if isMember a then [l] else []
  | char _, [] => []
  | seq first second, l => (first.ends l).flatMap second.ends
  | repetition p least more, l => repeated p.ends more least l
  | group p, l => p.ends l

/-- What is left behind the match at the beginning of a text. -/
def matchEnd (p : Pattern α) (l : List α) : Option (List α) := (p.ends l).head?

/-- The matches in a text are replaced, where the first characters of it are part of the last one. A
match of nothing is replaced as well, and the character behind it stays. -/
def replaceFrom (p : Pattern α) (template : List α) : ℕ → List α → List α
  | _, [] => if (p.matchEnd []).isSome then template else []
  | matched + 1, _ :: l => replaceFrom p template matched l
  | 0, a :: l =>
    match p.matchEnd (a :: l) with
    | none => a :: replaceFrom p template 0 l
    | some rest =>
      match (a :: l).length - rest.length with
      | 0 => template ++ a :: replaceFrom p template 0 l
      | matched + 1 => template ++ replaceFrom p template matched l

/-- All matches are replaced, each one as far to the left as possible. -/
def replaceMatches (p : Pattern α) (template l : List α) : List α := p.replaceFrom template 0 l

theorem repeated_suffix {ends : List α → List (List α)}
    (h : ∀ l, ∀ rest ∈ ends l, rest <:+ l) (more least : ℕ) :
    ∀ l, ∀ rest ∈ repeated ends more least l, rest <:+ l := by
  have hupTo : ∀ more l, ∀ rest ∈ upTo ends more l, rest <:+ l := by
    intro more
    induction more with
    | zero =>
      intro l rest hrest
      rw [upTo, List.mem_singleton] at hrest
      rw [hrest]
    | succ more ih =>
      intro l rest hrest
      rw [upTo, List.mem_append, List.mem_flatMap, List.mem_singleton] at hrest
      rcases hrest with ⟨l', hl', hrest⟩ | rfl
      · exact (ih l' rest hrest).trans (h l l' hl')
      · exact List.suffix_rfl
  induction least with
  | zero => exact hupTo more
  | succ least ih =>
    intro l rest hrest
    obtain ⟨l', hl', hrest⟩ := List.mem_flatMap.mp hrest
    exact (ih l' rest hrest).trans (h l l' hl')

theorem ends_suffix (p : Pattern α) : ∀ l, ∀ rest ∈ p.ends l, rest <:+ l := by
  induction p with
  | char isMember =>
    intro l rest hrest
    cases l with
    | nil => cases hrest
    | cons a l =>
      rw [ends] at hrest
      split at hrest
      · rw [List.mem_singleton.mp hrest]
        exact List.suffix_cons a l
      · cases hrest
  | seq first second ih ih' =>
    intro l rest hrest
    obtain ⟨l', hl', hrest⟩ := List.mem_flatMap.mp hrest
    exact (ih' l' rest hrest).trans (ih l l' hl')
  | repetition p least more ih => exact repeated_suffix ih more least
  | group p ih => exact ih

theorem suffix_of_matchEnd {p : Pattern α} (h : p.matchEnd l = some rest) : rest <:+ l :=
  p.ends_suffix l rest (List.mem_of_mem_head? (Option.mem_def.mpr h))

theorem replaceFrom_eq (p : Pattern α) (template : List α) (matched : ℕ) (l : List α) :
    p.replaceFrom template matched l = p.replaceMatches template (l.drop matched) := by
  induction l generalizing matched with
  | nil =>
    rw [List.drop_nil, replaceMatches]
    simp only [replaceFrom]
  | cons a l ih =>
    cases matched with
    | zero => rfl
    | succ matched => exact ih matched

theorem replaceMatches_cons {p : Pattern α} (h : p.matchEnd (a :: l) = none) :
    p.replaceMatches template (a :: l) = a :: p.replaceMatches template l := by
  rw [replaceMatches, replaceFrom, h]
  rfl

theorem replaceMatches_match {p : Pattern α} (h : p.matchEnd l = some rest)
    (hlt : rest.length < l.length) :
    p.replaceMatches template l = template ++ p.replaceMatches template rest := by
  have hrest := List.suffix_iff_eq_drop.mp (suffix_of_matchEnd h)
  cases l with
  | nil => cases hlt
  | cons a l =>
    obtain ⟨matched, hmatched⟩ := Nat.exists_eq_add_of_lt hlt
    have hlength : (a :: l).length - rest.length = matched + 1 := by omega
    rw [hlength, List.drop_succ_cons] at hrest
    rw [replaceMatches, replaceFrom, h]
    simp only [hlength]
    rw [replaceFrom_eq, ← hrest]

/-- No match is one of nothing. -/
def Consumes (p : Pattern α) : Prop :=
  ∀ l rest, p.matchEnd l = some rest → rest.length < l.length

theorem Consumes.replaceMatches_nil {p : Pattern α} (hp : p.Consumes) :
    p.replaceMatches template [] = [] := by
  rw [replaceMatches, replaceFrom]
  cases h : p.matchEnd [] with
  | none => rfl
  | some rest => exact absurd (hp [] rest h) (Nat.not_lt_zero _)

/-- From left to right, a character is copied or a match is replaced. -/
theorem Consumes.induction {p : Pattern α} (hp : p.Consumes) {motive : List α → Prop}
    (nil : motive [])
    (copied : ∀ a l, p.matchEnd (a :: l) = none → motive l → motive (a :: l))
    (replaced : ∀ l rest, p.matchEnd l = some rest → motive rest → motive l) (l : List α) :
    motive l := by
  induction hlength : l.length using Nat.strong_induction_on generalizing l with
  | h n ih =>
    cases hmatch : p.matchEnd l with
    | some rest =>
      exact replaced l rest hmatch (ih rest.length (hlength ▸ hp l rest hmatch) rest rfl)
    | none =>
      cases l with
      | nil => exact nil
      | cons a l => exact copied a l hmatch (ih l.length (hlength ▸ Nat.lt_succ_self _) l rfl)

/-- A text in which nothing matches stays as it is. -/
theorem replaceMatches_of_no_match {p : Pattern α} (h : ∀ l', l' <:+ l → p.matchEnd l' = none) :
    p.replaceMatches template l = l := by
  induction l with
  | nil =>
    rw [replaceMatches, replaceFrom, h [] (List.suffix_refl [])]
    rfl
  | cons a l ih =>
    rw [replaceMatches_cons (h _ List.suffix_rfl),
      ih fun l' hl' => h l' (hl'.trans (List.suffix_cons a l))]

/-- Where no match goes beyond a place in a text, the two sides of it are replaced on their own. -/
theorem Consumes.replaceMatches_append {p : Pattern α} (hp : p.Consumes)
    (h : ∀ front, front <:+ l → front ≠ [] →
      p.matchEnd (front ++ l') = (p.matchEnd front).map (· ++ l')) :
    p.replaceMatches template (l ++ l') =
      p.replaceMatches template l ++ p.replaceMatches template l' := by
  induction l using hp.induction with
  | nil => rw [hp.replaceMatches_nil, List.nil_append, List.nil_append]
  | copied a l hnone ih =>
    have hmatch := h (a :: l) List.suffix_rfl (List.cons_ne_nil a l)
    rw [hnone, Option.map_none, List.cons_append] at hmatch
    rw [List.cons_append, replaceMatches_cons hmatch, replaceMatches_cons hnone, List.cons_append,
      ih fun front hfront => h front (hfront.trans (List.suffix_cons a l))]
  | replaced l rest hsome ih =>
    have hlt := hp l rest hsome
    have hmatch := h l List.suffix_rfl (List.ne_nil_of_length_pos (Nat.zero_lt_of_lt hlt))
    rw [hsome, Option.map_some] at hmatch
    have hlt' : (rest ++ l').length < (l ++ l').length := by
      rw [List.length_append, List.length_append]
      omega
    rw [replaceMatches_match hmatch hlt', replaceMatches_match hsome hlt, List.append_assoc,
      ih fun front hfront => h front (hfront.trans (suffix_of_matchEnd hsome))]

/-- How many characters of a class a text begins with. -/
def run (isMember : α → Bool) (l : List α) : ℕ := (l.takeWhile isMember).length

theorem run_cons_of_pos (h : isMember a = true) : run isMember (a :: l) = run isMember l + 1 := by
  rw [run, List.takeWhile_cons_of_pos h]
  rfl

theorem run_cons_of_neg (h : isMember a = false) : run isMember (a :: l) = 0 := by
  rw [run, List.takeWhile_cons_of_neg (by rw [h]; decide)]
  rfl

theorem run_le (isMember : α → Bool) (l : List α) : run isMember l ≤ l.length :=
  (List.takeWhile_prefix isMember).length_le

theorem ends_char_of_pos (h : isMember a = true) : (char isMember).ends (a :: l) = [l] := by
  rw [ends, if_pos h]

theorem ends_char_of_neg (h : isMember a = false) : (char isMember).ends (a :: l) = [] := by
  rw [ends, h]
  rfl

/-- A fixed number of characters has one way to match. -/
theorem ends_repetition_char (isMember : α → Bool) (n : ℕ) (l : List α) :
    (repetition (char isMember) n 0).ends l = if n ≤ run isMember l then [l.drop n] else [] := by
  induction n generalizing l with
  | zero => exact (if_pos (Nat.zero_le _)).symm
  | succ n ih =>
    have hstep : (repetition (char isMember) (n + 1) 0).ends l =
        ((char isMember).ends l).flatMap (repetition (char isMember) n 0).ends := rfl
    rw [hstep]
    cases l with
    | nil => rfl
    | cons a l =>
      cases ha : isMember a with
      | true =>
        rw [ends_char_of_pos ha, List.flatMap_singleton, ih, run_cons_of_pos ha]
        simp only [Nat.add_le_add_iff_right, List.drop_succ_cons]
      | false =>
        rw [ends_char_of_neg ha, run_cons_of_neg ha, if_neg (Nat.not_succ_le_zero n)]
        rfl

/-- A greedy repetition leaves the characters that have to follow, and takes all others that it
can. -/
theorem head?_upTo (isMember : α → Bool) (n more : ℕ) (l : List α) :
    ((upTo (char isMember).ends more l).flatMap (repetition (char isMember) n 0).ends).head? =
      if n ≤ run isMember l then some (l.drop (min (more + n) (run isMember l))) else none := by
  induction more generalizing l with
  | zero =>
    rw [upTo, List.flatMap_singleton, ends_repetition_char]
    split_ifs with hn
    · rw [Nat.zero_add, Nat.min_eq_left hn]
      rfl
    · rfl
  | succ more ih =>
    rw [upTo, List.flatMap_append, List.flatMap_singleton, List.head?_append, List.flatMap_assoc,
      ends_repetition_char]
    have hstop (hends : (char isMember).ends l = []) (hrun : run isMember l = 0) :
        (((char isMember).ends l).flatMap fun l' =>
          (upTo (char isMember).ends more l').flatMap
            (repetition (char isMember) n 0).ends).head?.or
              (if n ≤ run isMember l then [l.drop n] else []).head? =
          if n ≤ run isMember l then some (l.drop (min (more + 1 + n) (run isMember l)))
            else none := by
      rw [hends, hrun, Nat.min_zero]
      split_ifs with hn
      · rw [Nat.le_zero.mp hn]
        rfl
      · rfl
    cases l with
    | nil => exact hstop rfl rfl
    | cons a l =>
      cases ha : isMember a with
      | false => exact hstop (ends_char_of_neg ha) (run_cons_of_neg ha)
      | true =>
        rw [ends_char_of_pos ha, List.flatMap_singleton, ih, run_cons_of_pos ha]
        by_cases hmore : n ≤ run isMember l
        · have hmin : min (more + 1 + n) (run isMember l + 1) =
              min (more + n) (run isMember l) + 1 := by omega
          have hless : n ≤ run isMember l + 1 := Nat.le_succ_of_le hmore
          rw [if_pos hmore, if_pos hless, if_pos hless, hmin, List.drop_succ_cons]
          rfl
        · rw [if_neg hmore, Option.none_or]
          by_cases hlast : n ≤ run isMember l + 1
          · have hmin : min (more + 1 + n) (run isMember l + 1) = n := by omega
            rw [if_pos hlast, if_pos hlast, hmin]
            rfl
          · rw [if_neg hlast, if_neg hlast]
            rfl

theorem matchEnd_repetition (isMember : α → Bool) (least more n : ℕ) (l : List α) :
    (seq (repetition (char isMember) least more) (repetition (char isMember) n 0)).matchEnd l =
      if least + n ≤ run isMember l then
        some (l.drop (min (least + more + n) (run isMember l))) else none := by
  induction least generalizing l with
  | zero =>
    rw [Nat.zero_add, Nat.zero_add]
    exact head?_upTo isMember n more l
  | succ least ih =>
    have hstep : (seq (repetition (char isMember) (least + 1) more)
        (repetition (char isMember) n 0)).matchEnd l =
          (((char isMember).ends l).flatMap (seq (repetition (char isMember) least more)
            (repetition (char isMember) n 0)).ends).head? :=
      congrArg List.head? List.flatMap_assoc
    rw [hstep]
    have hstop (hends : (char isMember).ends l = []) (hrun : run isMember l = 0) :
        (((char isMember).ends l).flatMap (seq (repetition (char isMember) least more)
          (repetition (char isMember) n 0)).ends).head? =
            if least + 1 + n ≤ run isMember l then
              some (l.drop (min (least + 1 + more + n) (run isMember l))) else none := by
      rw [hends, hrun, if_neg (by omega)]
      rfl
    cases l with
    | nil => exact hstop rfl rfl
    | cons a l =>
      cases ha : isMember a with
      | false => exact hstop (ends_char_of_neg ha) (run_cons_of_neg ha)
      | true =>
        have hmin : min (least + 1 + more + n) (run isMember l + 1) =
            min (least + more + n) (run isMember l) + 1 := by omega
        have hleast : least + 1 + n ≤ run isMember l + 1 ↔ least + n ≤ run isMember l := by omega
        rw [ends_char_of_pos ha, List.flatMap_singleton, run_cons_of_pos ha, hmin,
          List.drop_succ_cons, if_congr hleast rfl rfl]
        exact ih l

end Pattern
end SignalIOS.Lib
