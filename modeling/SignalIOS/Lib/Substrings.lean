import Mathlib.Data.List.Infix
import Mathlib.Data.Nat.Find

/-! Where a pattern first occurs in a list, and the parts of a list between the occurrences of a
separator. -/
namespace SignalIOS.Lib

variable {α : Type} {pattern l rest : List α} {i j : ℕ}

def OccursAt (pattern l : List α) (i : ℕ) : Prop := pattern <+: l.drop i

instance [DecidableEq α] : Decidable (OccursAt pattern l i) :=
  inferInstanceAs (Decidable (pattern <+: l.drop i))

/-- The first occurrence of `pattern` in `l` begins at `i`. -/
structure FirstAt (pattern l : List α) (i : ℕ) : Prop where
  occurs : OccursAt pattern l i
  not_before : ∀ j < i, ¬ OccursAt pattern l j

theorem OccursAt.le_length (h : OccursAt pattern l i) (hpattern : pattern ≠ []) :
    i + pattern.length ≤ l.length := by
  have hlength := h.length_le
  have hpos := List.length_pos_of_ne_nil hpattern
  rw [List.length_drop] at hlength
  omega

theorem OccursAt.append (h : OccursAt pattern l i) (hpattern : pattern ≠ []) :
    OccursAt pattern (l ++ rest) i := by
  have hlength := h.le_length hpattern
  unfold OccursAt at *
  rw [List.drop_append_of_le_length (by omega)]
  exact h.trans (List.prefix_append _ _)

theorem OccursAt.of_append (h : OccursAt pattern (l ++ rest) i)
    (hlength : i + pattern.length ≤ l.length) : OccursAt pattern l i := by
  unfold OccursAt at *
  rw [List.drop_append_of_le_length (by omega)] at h
  apply List.prefix_of_prefix_length_le h (List.prefix_append _ _)
  rw [List.length_drop]
  omega

theorem occursAt_append_right (pattern rest : List α) :
    OccursAt pattern (l ++ pattern ++ rest) l.length := by
  unfold OccursAt
  rw [List.append_assoc, List.drop_left]
  exact List.prefix_append _ _

theorem exists_occursAt_iff : (∃ i, OccursAt pattern l i) ↔ pattern <:+: l := by
  constructor
  · intro ⟨i, s, hs⟩
    exact ⟨l.take i, s, by rw [List.append_assoc, hs, List.take_append_drop]⟩
  · intro ⟨p, s, hs⟩
    exact ⟨p.length, hs ▸ occursAt_append_right pattern s⟩

theorem FirstAt.unique (h : FirstAt pattern l i) (h' : FirstAt pattern l j) : i = j := by
  rcases Nat.lt_trichotomy i j with hlt | heq | hlt
  · exact absurd h.occurs (h'.not_before i hlt)
  · exact heq
  · exact absurd h'.occurs (h.not_before j hlt)

/-- What is found stays where it is when more arrives. -/
theorem FirstAt.append (h : FirstAt pattern l i) (hpattern : pattern ≠ []) :
    FirstAt pattern (l ++ rest) i := by
  have hlength := h.occurs.le_length hpattern
  constructor
  · exact h.occurs.append hpattern
  · intro j hj hoccurs
    exact h.not_before j hj (hoccurs.of_append (by omega))

theorem FirstAt.of_append (h : FirstAt pattern (l ++ rest) i) (hpattern : pattern ≠ [])
    (hlength : i + pattern.length ≤ l.length) : FirstAt pattern l i := by
  constructor
  · exact h.occurs.of_append hlength
  · intro j hj hoccurs
    exact h.not_before j hj (hoccurs.append hpattern)

theorem exists_firstAt_iff : (∃ i, FirstAt pattern l i) ↔ pattern <:+: l := by
  classical
  rw [← exists_occursAt_iff]
  constructor
  · intro ⟨i, h⟩
    exact ⟨i, h.occurs⟩
  · intro h
    exact ⟨Nat.find h, Nat.find_spec h, fun j hj => Nat.find_min h hj⟩

section
variable [DecidableEq α] {separator p s : List α} {a : α} {n : ℕ}

/-- The parts of a list between the occurrences of `separator`, found from the left. The number
is how many elements of an occurrence are still to be passed over. -/
def splitFrom (separator : List α) : ℕ → List α → List (List α)
  | _, [] => [[]]
  | skipped + 1, _ :: l => splitFrom separator skipped l
  | 0, a :: l =>
    if separator <+: a :: l then [] :: splitFrom separator (separator.length - 1) l
    else (splitFrom separator 0 l).modifyHead (a :: ·)

def splitOn (separator l : List α) : List (List α) := splitFrom separator 0 l

theorem splitFrom_ne_nil : splitFrom separator n l ≠ [] := by
  fun_induction splitFrom separator n l with
  | case1 => simp
  | case2 _ _ _ ih => exact ih
  | case3 => simp
  | case4 _ _ _ ih => simpa using ih

theorem splitFrom_drop : splitFrom separator n l = splitOn separator (l.drop n) := by
  induction n generalizing l with
  | zero => rfl
  | succ n ih =>
    cases l with
    | nil => rfl
    | cons a l => exact ih

theorem splitOn_ne_nil : splitOn separator l ≠ [] := splitFrom_ne_nil

theorem splitOn_separator (hseparator : separator ≠ []) :
    splitOn separator (separator ++ s) = [] :: splitOn separator s := by
  obtain ⟨a, tail, rfl⟩ := List.exists_cons_of_ne_nil hseparator
  rw [splitOn, List.cons_append, splitFrom, if_pos ⟨s, List.cons_append⟩, splitFrom_drop]
  simp

theorem splitOn_cons (h : ¬ separator <+: a :: l) :
    splitOn separator (a :: l) = (splitOn separator l).modifyHead (a :: ·) := by
  rw [splitOn, splitFrom, if_neg h]
  rfl

omit [DecidableEq α] in
theorem intercalate_modifyHead {parts : List (List α)} (h : parts ≠ []) :
    separator.intercalate (parts.modifyHead (a :: ·)) = a :: separator.intercalate parts := by
  match parts with
  | [part] => simp
  | part :: part' :: parts => simp

theorem intercalate_splitFrom (hseparator : separator ≠ []) :
    separator.intercalate (splitFrom separator n l) = l.drop n := by
  fun_induction splitFrom separator n l with
  | case1 => simp
  | case2 _ _ _ ih => exact ih
  | case3 a l h ih =>
    obtain ⟨b, tail, rfl⟩ := List.exists_cons_of_ne_nil hseparator
    obtain ⟨s, hs⟩ := h
    rw [List.intercalate_cons_of_ne_nil splitFrom_ne_nil, ih, ← hs]
    rw [List.cons_append, List.cons.injEq] at hs
    rw [List.nil_append, List.length_cons, Nat.add_sub_cancel, ← hs.2, List.drop_left]
    rfl
  | case4 a l h ih =>
    rw [intercalate_modifyHead splitFrom_ne_nil, ih]
    rfl

/-- Nothing is lost by splitting. -/
theorem intercalate_splitOn (hseparator : separator ≠ []) :
    separator.intercalate (splitOn separator l) = l := intercalate_splitFrom hseparator

theorem splitOn_of_notMem (ha : a ∉ l) : splitOn (a :: separator) l = [l] := by
  induction l with
  | nil => rfl
  | cons b l ih =>
    rw [List.mem_cons, not_or] at ha
    have hinitial : ¬ a :: separator <+: b :: l := fun h => ha.1 (List.cons_prefix_cons.mp h).1
    rw [splitOn_cons hinitial, ih ha.2]
    rfl

/-- Where the separator does not occur, there is one part. -/
theorem splitOn_of_no_occurrence (h : ¬ separator <:+: l) : splitOn separator l = [l] := by
  induction l with
  | nil => rfl
  | cons b l ih =>
    have hinitial : ¬ separator <+: b :: l := fun hprefix => h hprefix.isInfix
    have hrest : ¬ separator <:+: l := fun hoccurs => h (hoccurs.trans (List.suffix_cons b l).isInfix)
    rw [splitOn_cons hinitial, ih hrest]
    rfl

/-- The first part ends where the first element of the separator is. -/
theorem splitOn_append (ha : a ∉ p) :
    splitOn (a :: separator) (p ++ (a :: separator ++ s)) = p :: splitOn (a :: separator) s := by
  induction p with
  | nil => exact splitOn_separator (List.cons_ne_nil _ _)
  | cons b p ih =>
    rw [List.mem_cons, not_or] at ha
    have hinitial : ¬ a :: separator <+: b :: (p ++ (a :: separator ++ s)) := fun h =>
      ha.1 (List.cons_prefix_cons.mp h).1
    rw [List.cons_append, splitOn_cons hinitial, ih ha.2]
    rfl

theorem splitOn_intercalate {parts : List (List α)} (hparts : ∀ part ∈ parts, a ∉ part)
    (hne : parts ≠ []) :
    splitOn (a :: separator) ((a :: separator).intercalate parts) = parts := by
  induction parts with
  | nil => exact absurd rfl hne
  | cons part parts ih =>
    have ha := hparts part List.mem_cons_self
    by_cases h : parts = []
    · subst h
      rw [List.intercalate_singleton]
      exact splitOn_of_notMem ha
    · rw [List.intercalate_cons_of_ne_nil h, List.append_assoc, splitOn_append ha,
        ih (fun part hpart => hparts part (List.mem_cons_of_mem _ hpart)) h]

end

section
variable {separator p s : List α} {a : α}

/-- No occurrence begins in `p`, where its first element is not. -/
theorem OccursAt.length_le_of_notMem (h : OccursAt (a :: separator) (p ++ s) i) (ha : a ∉ p) :
    p.length ≤ i := by
  by_contra hlt
  unfold OccursAt at h
  rw [List.drop_append_of_le_length (by omega),
    List.drop_eq_getElem_cons (by omega : i < p.length), List.cons_append,
    List.cons_prefix_cons] at h
  exact ha (h.1 ▸ List.getElem_mem _)

theorem occursAt_append_iff :
    OccursAt pattern (p ++ s) (p.length + i) ↔ OccursAt pattern s i := by
  unfold OccursAt
  rw [← List.drop_drop, List.drop_left]

/-- Lines that all end with the separator, and lines that are joined by it. -/
theorem append_flatMap_append (part : List α) (parts : List (List α)) :
    part ++ separator ++ parts.flatMap (· ++ separator) =
      separator.intercalate (part :: parts) ++ separator := by
  induction parts generalizing part with
  | nil => simp
  | cons next parts ih =>
    rw [List.flatMap_cons, ih, List.intercalate_cons_of_ne_nil (List.cons_ne_nil _ _)]
    simp only [List.append_assoc]

theorem prefix_intercalate (part : List α) (parts : List (List α)) :
    part <+: separator.intercalate (part :: parts) := by
  by_cases h : parts = []
  · subst h
    rw [List.intercalate_singleton]
  · rw [List.intercalate_cons_of_ne_nil h, List.append_assoc]
    exact List.prefix_append _ _

/-- Where lines are joined by a separator, and none is empty, two separators in a row first stand
at the end. -/
theorem firstAt_intercalate {parts : List (List α)}
    (hparts : ∀ part ∈ parts, part ≠ [] ∧ a ∉ part) (hseparator : a ∉ separator)
    (hne : parts ≠ []) (rest : List α) :
    FirstAt (a :: separator ++ (a :: separator))
      ((a :: separator).intercalate parts ++ (a :: separator ++ (a :: separator)) ++ rest)
      ((a :: separator).intercalate parts).length := by
  constructor
  · exact occursAt_append_right _ _
  rw [List.append_assoc]
  induction parts with
  | nil => exact absurd rfl hne
  | cons part parts ih =>
    obtain ⟨hpart, ha⟩ := hparts part List.mem_cons_self
    intro i hi hoccurs
    by_cases h : parts = []
    · subst h
      rw [List.intercalate_singleton] at hi hoccurs
      have hle := hoccurs.length_le_of_notMem ha
      omega
    rw [List.intercalate_cons_of_ne_nil h, List.append_assoc, List.append_assoc] at hoccurs
    rw [List.intercalate_cons_of_ne_nil h] at hi
    have hle := hoccurs.length_le_of_notMem ha
    obtain ⟨k, rfl⟩ := Nat.exists_eq_add_of_le hle
    rw [occursAt_append_iff] at hoccurs
    match k with
    | 0 =>
      -- One separator is that behind `part`. The next part does not begin with the other.
      obtain ⟨next, parts, rfl⟩ := List.exists_cons_of_ne_nil h
      obtain ⟨hnext, hnotMem⟩ := hparts next (by simp)
      obtain ⟨s, hs⟩ := @prefix_intercalate α (a :: separator) next parts
      unfold OccursAt at hoccurs
      rw [List.drop_zero, List.prefix_append_right_inj, ← hs, List.append_assoc] at hoccurs
      have hsecond : OccursAt (a :: separator) (next ++ (s ++ _)) 0 := hoccurs
      have hpos := List.length_pos_of_ne_nil hnext
      have hle' := hsecond.length_le_of_notMem hnotMem
      omega
    | k + 1 =>
      -- Within the separator there is no `a` but the first.
      have htail : OccursAt (a :: separator ++ (a :: separator)) (separator ++ _) k := hoccurs
      have hle' := htail.length_le_of_notMem hseparator
      obtain ⟨m, rfl⟩ := Nat.exists_eq_add_of_le hle'
      rw [occursAt_append_iff] at htail
      simp only [List.length_append, List.length_cons] at hi
      apply ih (fun part hpart => hparts part (List.mem_cons_of_mem _ hpart)) h m _ htail
      omega

end
end SignalIOS.Lib
