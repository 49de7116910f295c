import Mathlib.Data.List.Rotate
import Mathlib.Data.Nat.Notation

/-! Queues in cells that are used around their end. -/
namespace SignalIOS.Lib

variable {α : Type*} {cells items front back : List α} {i n : ℕ}

/-- The cells with `items` in them from `i` on. -/
def overwrite (cells : List α) (i : ℕ) (items : List α) : List α :=
  cells.take i ++ items ++ cells.drop (i + items.length)

def stretch (cells : List α) (i n : ℕ) : List α := (cells.drop i).take n

theorem length_stretch (h : i + n ≤ cells.length) : (stretch cells i n).length = n := by
  rw [stretch, List.length_take, List.length_drop]
  omega

theorem stretch_zero (cells : List α) (i : ℕ) : stretch cells i 0 = [] := List.take_zero

theorem overwrite_nil (cells : List α) (i : ℕ) : overwrite cells i [] = cells := by
  rw [overwrite, List.append_nil, List.length_nil, Nat.add_zero, List.take_append_drop]

theorem length_overwrite (h : i + items.length ≤ cells.length) :
    (overwrite cells i items).length = cells.length := by
  simp only [overwrite, List.length_append, List.length_take, List.length_drop]
  omega

/-- Items replace as many as they are. -/
theorem overwrite_append {old : List α} (hold : old.length = items.length) :
    overwrite (old ++ back) 0 items = items ++ back := by
  rw [overwrite, Nat.zero_add, ← hold, List.drop_left, List.take_zero, List.nil_append]

/-- What stands in front stays. -/
theorem overwrite_append_right (front cells items : List α) (i : ℕ) :
    overwrite (front ++ cells) (front.length + i) items = front ++ overwrite cells i items := by
  simp only [overwrite, List.take_length_add_append, Nat.add_assoc, List.drop_length_add_append,
    List.append_assoc]

theorem overwrite_append_length (front cells items : List α) :
    overwrite (front ++ cells) front.length items = front ++ overwrite cells 0 items :=
  overwrite_append_right front cells items 0

theorem exists_append {l : List α} (h : n ≤ l.length) :
    ∃ front back, l = front ++ back ∧ front.length = n :=
  ⟨l.take n, l.drop n, (List.take_append_drop n l).symm, List.length_take_of_le h⟩

/-- Cells in which the items of a queue stand one behind the other, from `offset` on and then
from the beginning. -/
structure RingBuffer (α : Type*) where
  cells : List α
  offset : ℕ
  count : ℕ

namespace RingBuffer

/-- The items, the oldest first. -/
def contents (r : RingBuffer α) : List α := (r.cells.rotate r.offset).take r.count

structure WellFormed (r : RingBuffer α) : Prop where
  offset_lt : 0 < r.cells.length → r.offset < r.cells.length
  count_le : r.count ≤ r.cells.length

/-- The oldest items are no more. -/
def advance (r : RingBuffer α) (n : ℕ) : RingBuffer α :=
  { r with offset := (r.offset + n) % r.cells.length, count := r.count - n }

/-- Where the next item goes. -/
def place (r : RingBuffer α) : ℕ := (r.offset + r.count) % r.cells.length

/-- The items are written from the next place on, and the rest of them from the beginning. -/
def write (r : RingBuffer α) (items : List α) : RingBuffer α :=
  let slack := r.cells.length - r.place
  { r with
    cells := overwrite (overwrite r.cells r.place (items.take slack)) 0 (items.drop slack)
    count := r.count + items.length }

/-- The oldest items are copied to the beginning of other cells, first those up to the end. -/
def copy (r : RingBuffer α) (target : List α) (n : ℕ) : List α :=
  let slack := r.cells.length - r.offset
  let target := overwrite target 0 (stretch r.cells r.offset (min slack n))
  if slack < n then overwrite target slack (stretch r.cells 0 (n - slack)) else target

variable {r : RingBuffer α}

theorem length_contents (h : r.WellFormed) : r.contents.length = r.count := by
  rw [contents, List.length_take, List.length_rotate]
  exact Nat.min_eq_left h.count_le

theorem contents_front (items rest : List α) :
    contents ⟨items ++ rest, 0, items.length⟩ = items := by
  rw [contents, List.rotate_zero, List.take_left]

theorem WellFormed.advance (h : r.WellFormed) (n : ℕ) : (r.advance n).WellFormed := by
  constructor
  · exact Nat.mod_lt _
  · exact Nat.le_trans (Nat.sub_le r.count n) h.count_le

theorem contents_advance (h : r.WellFormed) (hn : n ≤ r.count) :
    (r.advance n).contents = r.contents.drop n := by
  have hcount := h.count_le
  have hlength : n ≤ (r.cells.rotate r.offset).length := by
    rw [List.length_rotate]
    omega
  have hrest : r.count - n ≤ ((r.cells.rotate r.offset).drop n).length := by
    rw [List.length_drop, List.length_rotate]
    omega
  unfold contents RingBuffer.advance
  dsimp only
  rw [List.rotate_mod, ← List.rotate_rotate, List.rotate_eq_drop_append_take hlength,
    List.take_append_of_le_length hrest, List.drop_take]

/-- The oldest items stand in one stretch, or in two. -/
theorem take_contents (h : r.WellFormed) (hn : n ≤ r.count) :
    r.contents.take n = stretch r.cells r.offset (min (r.cells.length - r.offset) n) ++
      stretch r.cells 0 (n - (r.cells.length - r.offset)) := by
  have hcount := h.count_le
  rcases Nat.eq_zero_or_pos r.cells.length with hempty | hpos
  · have hzero : n = 0 := by omega
    subst hzero
    simp [stretch]
  · have hoffset := h.offset_lt hpos
    unfold contents stretch
    rw [List.take_take, Nat.min_eq_left hn, List.rotate_eq_drop_append_take hoffset.le,
      List.take_append, List.length_drop, List.drop_zero, List.take_take]
    congr 1
    · rw [← List.length_drop, List.take_eq_take_iff]
      omega
    · congr 1
      omega

theorem copy_eq (h : r.WellFormed) (hn : n ≤ r.count) {old : List α} (hold : old.length = n)
    (rest : List α) : r.copy (old ++ rest) n = r.contents.take n ++ rest := by
  have hcount := h.count_le
  have hfirst : (stretch r.cells r.offset (min (r.cells.length - r.offset) n)).length =
      min (r.cells.length - r.offset) n := by
    rw [stretch, List.length_take, List.length_drop]
    omega
  rw [take_contents h hn]
  unfold copy
  dsimp only
  by_cases hslack : r.cells.length - r.offset < n
  · have hmin : min (r.cells.length - r.offset) n = r.cells.length - r.offset := by omega
    have hsecond : (stretch r.cells 0 (n - (r.cells.length - r.offset))).length =
        n - (r.cells.length - r.offset) := length_stretch (by omega)
    rw [hmin] at hfirst ⊢
    obtain ⟨x, y, rfl, hx⟩ := exists_append (show r.cells.length - r.offset ≤ old.length by omega)
    rw [List.length_append] at hold
    have hy : y.length = (stretch r.cells 0 (n - (r.cells.length - r.offset))).length := by omega
    rw [if_pos hslack, List.append_assoc, overwrite_append (hx.trans hfirst.symm)]
    nth_rewrite 2 [← hfirst]
    rw [overwrite_append_length, overwrite_append hy, List.append_assoc]
  · have hmin : min (r.cells.length - r.offset) n = n := by omega
    have hnone : stretch r.cells 0 (n - (r.cells.length - r.offset)) = [] := by
      rw [Nat.sub_eq_zero_of_le (Nat.not_lt.mp hslack), stretch_zero]
    rw [hmin] at hfirst ⊢
    rw [if_neg hslack, hnone, List.append_nil, overwrite_append (hold.trans hfirst.symm)]

/-- Seen from the offset, the items are written behind the others. -/
theorem rotate_write (h : r.WellFormed) (hroom : r.count + items.length ≤ r.cells.length)
    (hitems : 0 < items.length) :
    (r.write items).cells.rotate r.offset = overwrite (r.cells.rotate r.offset) r.count items := by
  have hoffset := h.offset_lt (by omega)
  obtain ⟨cells, offset, count⟩ := r
  obtain ⟨p, s, rfl, rfl⟩ := exists_append hoffset.le
  dsimp only at *
  rw [List.length_append] at hroom hoffset
  unfold write place
  dsimp only
  rw [List.rotate_append_length_eq, List.length_append]
  by_cases hwraps : count < s.length
  · -- the queue stands in one stretch, with free cells behind it
    obtain ⟨q, t, rfl, rfl⟩ := exists_append hwraps.le
    rw [List.length_append] at hroom hwraps
    have hplace : (p.length + q.length) % (p.length + (q ++ t).length) = p.length + q.length := by
      apply Nat.mod_eq_of_lt
      rw [List.length_append]
      omega
    have hslack : p.length + (q ++ t).length - (p.length + q.length) = t.length := by
      rw [List.length_append]
      omega
    rw [hplace, hslack, overwrite_append_right, overwrite_append_length]
    by_cases hfits : items.length ≤ t.length
    · obtain ⟨x, u, rfl, hx⟩ := exists_append hfits
      rw [List.take_of_length_le hfits, List.drop_of_length_le hfits, overwrite_nil,
        overwrite_append hx, List.rotate_append_length_eq]
      simp only [List.append_assoc, overwrite_append_length, overwrite_append hx]
    · obtain ⟨i, j, rfl, hi⟩ := exists_append (Nat.not_le.mp hfits).le
      rw [List.length_append] at hroom
      obtain ⟨x, u, rfl, hx⟩ := exists_append (show j.length ≤ p.length by omega)
      have hrotate : (j ++ (u ++ (q ++ i))).rotate (x ++ u).length = q ++ (i ++ (j ++ u)) := by
        rw [List.length_append, hx, ← List.length_append, ← List.append_assoc,
          List.rotate_append_length_eq, List.append_assoc]
      have hwhole : overwrite t 0 i = i := by
        rw [← List.append_nil t, overwrite_append hi.symm, List.append_nil]
      have hback : t ++ (x ++ u) = (t ++ x) ++ u := (List.append_assoc t x u).symm
      rw [← hi, List.take_left, List.drop_left, hwhole, List.append_assoc, overwrite_append hx,
        hrotate, List.append_assoc, overwrite_append_length, hback, overwrite_append,
        List.append_assoc]
      rw [List.length_append, List.length_append, hx, hi]
  · -- the queue stands around the end, with the free cells between its ends
    have hlast : count - s.length ≤ p.length := by omega
    obtain ⟨q, w, rfl, hq⟩ := exists_append hlast
    have hcount : count = s.length + q.length := by omega
    rw [List.length_append] at hroom
    obtain ⟨x, u, rfl, hx⟩ := exists_append (show items.length ≤ w.length by omega)
    have hplace : ((q ++ (x ++ u)).length + count) % ((q ++ (x ++ u)).length + s.length) =
        q.length := by
      rw [hcount, ← Nat.add_assoc, Nat.add_mod_left]
      apply Nat.mod_eq_of_lt
      rw [List.length_append, List.length_append]
      omega
    have hfits : items.length ≤ (q ++ (x ++ u)).length + s.length - q.length := by
      rw [List.length_append, List.length_append]
      omega
    have hlength : (q ++ (x ++ u)).length = (q ++ (items ++ u)).length := by
      simp only [List.length_append, hx]
    rw [hplace, List.take_of_length_le hfits, List.drop_of_length_le hfits, overwrite_nil, hcount,
      overwrite_append_right, overwrite_append_length, overwrite_append hx, List.append_assoc,
      overwrite_append_length, List.append_assoc, overwrite_append hx, hlength,
      ← List.append_assoc items, ← List.append_assoc q, List.rotate_append_length_eq]

theorem length_write (h : r.WellFormed) (hroom : r.count + items.length ≤ r.cells.length) :
    (r.write items).cells.length = r.cells.length := by
  rcases Nat.eq_zero_or_pos items.length with hempty | hitems
  · rw [List.eq_nil_of_length_eq_zero hempty]
    simp only [write, List.take_nil, List.drop_nil, overwrite_nil]
  · have hrotate := congrArg List.length (rotate_write h hroom hitems)
    rwa [List.length_rotate, length_overwrite (by rw [List.length_rotate]; exact hroom),
      List.length_rotate] at hrotate

theorem WellFormed.write (h : r.WellFormed)
    (hroom : r.count + items.length ≤ r.cells.length) : (r.write items).WellFormed := by
  have hlength := length_write h hroom
  constructor
  · rw [hlength]
    exact h.offset_lt
  · rw [hlength]
    exact hroom

theorem contents_write (h : r.WellFormed) (hroom : r.count + items.length ≤ r.cells.length) :
    (r.write items).contents = r.contents ++ items := by
  rcases Nat.eq_zero_or_pos items.length with hempty | hitems
  · rw [List.eq_nil_of_length_eq_zero hempty]
    simp only [write, contents, List.take_nil, List.drop_nil, overwrite_nil, List.length_nil,
      Nat.add_zero, List.append_nil]
  · have hrotate := rotate_write h hroom hitems
    have hlength : (r.contents ++ items).length = r.count + items.length := by
      rw [List.length_append, length_contents h]
    calc (r.write items).contents
      _ = ((r.write items).cells.rotate r.offset).take (r.count + items.length) := rfl
      _ = (overwrite (r.cells.rotate r.offset) r.count items).take (r.count + items.length) := by
          rw [hrotate]
      _ = r.contents ++ items := List.take_left' hlength

end RingBuffer
end SignalIOS.Lib
