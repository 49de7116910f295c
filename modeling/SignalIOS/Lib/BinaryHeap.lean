import Mathlib.Data.Nat.Notation
import Mathlib.Order.Defs.Unbundled

/-! Binary heaps in arrays, ordered by a relation. An element that moves up or down by exchanges
leaves the order broken at most where it is. -/
namespace SignalIOS.Lib.BinaryHeap

/-- The index of the parent. -/
def parent (i : ℕ) : ℕ := (i - 1) / 2

theorem parent_lt {i : ℕ} (h : 0 < i) : parent i < i := by
  unfold parent
  omega

theorem parent_eq_iff {i j : ℕ} (h : 0 < i) : parent i = j ↔ i = 2 * j + 1 ∨ i = 2 * j + 2 := by
  unfold parent
  omega

variable {α : Type} {r : α → α → Prop} {items : Array α} {hole p c : ℕ}

/-- No element is behind its parent. -/
def Ordered (r : α → α → Prop) (items : Array α) : Prop :=
  ∀ i j (hi : i < items.size) (hj : j < items.size), 0 < i → parent i = j → r items[j] items[i]

/-- Ordered but for the element at `hole` and its parent. -/
structure UpOrdered (r : α → α → Prop) (items : Array α) (hole : ℕ) : Prop where
  except : ∀ i j (hi : i < items.size) (hj : j < items.size), 0 < i → parent i = j → i ≠ hole →
    r items[j] items[i]
  grand : ∀ i j (hi : i < items.size) (hj : j < items.size), 0 < i → 0 < hole →
    parent i = hole → parent hole = j → r items[j] items[i]

/-- Ordered but for the element at `hole` and its children. -/
structure DownOrdered (r : α → α → Prop) (items : Array α) (hole : ℕ) : Prop where
  except : ∀ i j (hi : i < items.size) (hj : j < items.size), 0 < i → parent i = j → j ≠ hole →
    r items[j] items[i]
  grand : ∀ i j (hi : i < items.size) (hj : j < items.size), 0 < i → 0 < hole →
    parent i = hole → parent hole = j → r items[j] items[i]

/-- The first element is not behind any other. -/
theorem Ordered.root [IsPreorder α r] (h : Ordered r items) (i : ℕ) (hi : i < items.size)
    (h0 : 0 < items.size) : r items[0] items[i] := by
  induction i using Nat.strongRecOn with
  | ind i ih =>
    by_cases hzero : i = 0
    · subst hzero
      exact refl _
    · have hlt := parent_lt (Nat.pos_of_ne_zero hzero)
      have hparent := ih (parent i) hlt (by omega)
      exact trans_of r hparent (h i (parent i) hi (by omega) (by omega) rfl)

theorem Ordered.mono {r' : α → α → Prop} (h : Ordered r items)
    (hr : ∀ a ∈ items, ∀ b ∈ items, r a b → r' a b) : Ordered r' items :=
  fun i j hi hj h0 hij => hr _ (Array.getElem_mem hj) _ (Array.getElem_mem hi) (h i j hi hj h0 hij)

/-- An element at the end of an ordered array. -/
theorem Ordered.push (h : Ordered r items) (a : α) : UpOrdered r (items.push a) items.size := by
  constructor
  · intro i j hi hj h0 hij hne
    rw [Array.size_push] at hi hj
    have hlt := parent_lt h0
    rw [Array.getElem_push_lt (by omega), Array.getElem_push_lt (by omega)]
    exact h i j (by omega) (by omega) h0 hij
  · intro i j hi hj h0 _ hij
    rw [Array.size_push] at hi
    have hlt := parent_lt h0
    omega

theorem UpOrdered.swap [IsTrans α r] (h : UpOrdered r items hole) (hh : hole < items.size)
    (hp : p < items.size) (h0 : 0 < hole) (hparent : parent hole = p)
    (hr : r items[hole] items[p]) : UpOrdered r (items.swap hole p) p := by
  have hlt := parent_lt h0
  constructor
  · intro i j hi hj hi0 hij hne
    rw [Array.size_swap] at hi hj
    have hilt := parent_lt hi0
    rw [Array.getElem_swap, Array.getElem_swap]
    by_cases hih : i = hole
    · subst hih
      have hjp : j = p := hij.symm.trans hparent
      simp only [hjp, if_true, show p ≠ i by omega, if_false]
      exact hr
    · rw [if_neg hih, if_neg hne]
      by_cases hjh : j = hole
      · rw [if_pos hjh]
        exact h.grand i p hi hp hi0 h0 (hij.trans hjh) hparent
      · rw [if_neg hjh]
        by_cases hjp : j = p
        · rw [if_pos hjp]
          exact trans_of r hr (h.except i p hi hp hi0 (hij.trans hjp) hih)
        · rw [if_neg hjp]
          exact h.except i j hi hj hi0 hij hih
  · intro i j hi hj hi0 hp0 hip hpj
    rw [Array.size_swap] at hi hj
    have hilt := parent_lt hi0
    have hplt := parent_lt hp0
    rw [Array.getElem_swap, Array.getElem_swap, if_neg (show j ≠ hole by omega),
      if_neg (show j ≠ p by omega), if_neg (show i ≠ p by omega)]
    have habove := h.except p j hp hj hp0 hpj (by omega)
    by_cases hih : i = hole
    · rw [if_pos hih]
      exact habove
    · rw [if_neg hih]
      exact trans_of r habove (h.except i p hi hp hi0 hip hih)

/-- The element that moves up has arrived. -/
theorem UpOrdered.ordered (h : UpOrdered r items hole)
    (hr : ∀ p (hh : hole < items.size) (hp : p < items.size), 0 < hole → parent hole = p →
      r items[p] items[hole]) : Ordered r items := by
  intro i j hi hj h0 hij
  by_cases hih : i = hole
  · subst hih
    exact hr j hi hj h0 hij
  · exact h.except i j hi hj h0 hij hih

theorem DownOrdered.swap (h : DownOrdered r items hole) (hh : hole < items.size)
    (hc : c < items.size) (h0 : 0 < c) (hparent : parent c = hole) (hr : r items[c] items[hole])
    (hmin : ∀ i (hi : i < items.size), 0 < i → parent i = hole → r items[c] items[i]) :
    DownOrdered r (items.swap hole c) c := by
  have hlt := parent_lt h0
  constructor
  · intro i j hi hj hi0 hij hne
    rw [Array.size_swap] at hi hj
    have hilt := parent_lt hi0
    rw [Array.getElem_swap, Array.getElem_swap, if_neg hne]
    by_cases hjh : j = hole
    · rw [if_pos hjh, if_neg (show i ≠ hole by omega)]
      by_cases hic : i = c
      · rw [if_pos hic]
        exact hr
      · rw [if_neg hic]
        exact hmin i hi hi0 (hij.trans hjh)
    · have hic : i ≠ c := fun hic => hjh (hij.symm.trans ((congrArg parent hic).trans hparent))
      rw [if_neg hjh, if_neg hic]
      by_cases hih : i = hole
      · rw [if_pos hih]
        have hhole := (congrArg parent hih).symm.trans hij
        exact h.grand c j hc hj h0 (by omega) hparent hhole
      · rw [if_neg hih]
        exact h.except i j hi hj hi0 hij hjh
  · intro i j hi hj hi0 _ hic hcj
    rw [Array.size_swap] at hi hj
    have hilt := parent_lt hi0
    rw [Array.getElem_swap, Array.getElem_swap, if_pos (show j = hole by omega),
      if_neg (show i ≠ hole by omega), if_neg (show i ≠ c by omega)]
    exact h.except i c hi hc hi0 hic (by omega)

/-- The element that moves down has arrived. -/
theorem DownOrdered.ordered (h : DownOrdered r items hole)
    (hr : ∀ i (hi : i < items.size) (hh : hole < items.size), 0 < i → parent i = hole →
      r items[hole] items[i]) : Ordered r items := by
  intro i j hi hj h0 hij
  by_cases hjh : j = hole
  · subst hjh
    exact hr i hi hj h0 hij
  · exact h.except i j hi hj h0 hij hjh

/-- The array without its last place, and `last` where there is a hole. -/
def filled (items : Array α) (hole : ℕ) (last : α) : Array α :=
  (items.setIfInBounds hole last).pop

@[simp] theorem size_filled (items : Array α) (hole : ℕ) (last : α) :
    (filled items hole last).size = items.size - 1 := by
  rw [filled, Array.size_pop, Array.size_setIfInBounds]

theorem getElem_filled (last : α) {i : ℕ} (hi : i < (filled items hole last).size)
    (hi' : i < items.size) :
    (filled items hole last)[i] = if hole = i then last else items[i] := by
  simp only [filled, Array.getElem_pop]
  exact Array.getElem_setIfInBounds _

/-- What moves from `c` into the hole leaves a hole at `c`. -/
theorem filled_set (last : α) (hh : hole < items.size - 1) (hc : c < items.size - 1)
    (hne : hole ≠ c) :
    filled (items.set hole items[c]) c last =
      (filled items hole last).swap hole c (by simpa using hh) (by simpa using hc) := by
  apply Array.ext
  · simp
  · intro i hi hi'
    rw [size_filled, Array.size_set] at hi
    have hsize : i < items.size ∧ hole < items.size ∧ c < items.size := by omega
    rw [getElem_filled last _ (by rw [Array.size_set]; exact hsize.1), Array.getElem_swap,
      Array.getElem_set, getElem_filled last _ hsize.1, getElem_filled last _ hsize.2.1,
      getElem_filled last _ hsize.2.2]
    grind

/-- `last` can stay in the hole. -/
theorem DownOrdered.filled_ordered {last : α} (h : DownOrdered r (filled items hole last) hole)
    (hh : hole < items.size) (hmin : ∀ i (hi : i < items.size - 1), 0 < i → parent i = hole →
      r last items[i]) : Ordered r (filled items hole last) := by
  apply h.ordered
  intro i hi _ h0 hparent
  rw [size_filled] at hi
  have hlt := parent_lt h0
  rw [getElem_filled last _ hh, if_pos rfl, getElem_filled last _ (show i < items.size by omega),
    if_neg (by omega)]
  exact hmin i hi h0 hparent

/-- The child that is not behind the other children, nor behind `last`, moves into the hole. -/
theorem DownOrdered.moveHole {last : α} (h : DownOrdered r (filled items hole last) hole)
    (hh : hole < items.size - 1) (hc : c < items.size - 1) (h0 : 0 < c) (hparent : parent c = hole)
    (hr : r items[c] last) (hmin : ∀ i (hi : i < items.size - 1), 0 < i → parent i = hole →
      r items[c] items[i]) :
    DownOrdered r (filled (items.set hole items[c]) c last) c ∧
      (filled (items.set hole items[c]) c last).Perm (filled items hole last) := by
  have hlt := parent_lt h0
  rw [filled_set last hh hc (by omega)]
  refine ⟨h.swap _ _ h0 hparent ?_ ?_, Array.swap_perm _ _⟩
  · rw [getElem_filled last _ (show c < items.size by omega), if_neg (by omega),
      getElem_filled last _ (show hole < items.size by omega), if_pos rfl]
    exact hr
  · intro i hi hi0 hiparent
    rw [size_filled] at hi
    have hilt := parent_lt hi0
    rw [getElem_filled last _ (show c < items.size by omega), if_neg (by omega),
      getElem_filled last _ (show i < items.size by omega), if_neg (by omega)]
    exact hmin i hi hi0 hiparent

/-- The first element and what remains without it. -/
theorem perm_filled (h : 0 < items.size) :
    items.toList.Perm (items[0] :: (filled items 0 items[items.size - 1]).toList) := by
  obtain ⟨list⟩ := items
  cases list with
  | nil => exact absurd h (Nat.lt_irrefl 0)
  | cons a rest =>
    rcases List.eq_nil_or_concat rest with rfl | ⟨front, b, rfl⟩
    · simp [filled]
    · have hfilled : (b :: (front ++ [b])).dropLast = b :: front := by
        rw [← List.cons_append, List.dropLast_concat]
      simp [filled, hfilled]

/-- Where the last element takes the place of the first, it may have to move down. -/
theorem Ordered.filled (h : Ordered r items) (last : α) :
    DownOrdered r (filled items 0 last) 0 := by
  constructor
  · intro i j hi hj h0 hij hne
    rw [size_filled] at hi hj
    rw [getElem_filled last _ (by omega), getElem_filled last _ (by omega),
      if_neg (show ¬ 0 = j by omega), if_neg (show ¬ 0 = i by omega)]
    exact h i j (by omega) (by omega) h0 hij
  · intro i j hi hj _ h0
    omega

end SignalIOS.Lib.BinaryHeap
