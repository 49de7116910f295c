import Mathlib.Data.Int.Notation
import Mathlib.Data.List.Range
import SignalIOS.Srtp.SrtpStream

/-! Sequence counters extend sixteen bits to the nearest number of sixty-four that ends in them. -/
namespace SignalIOS.Srtp
open SignalIOS.Rtp

/-- The low sixteen bits. -/
def shortId (longId : Int64) : UInt16 := longId.toUInt64.toUInt16

/-- From `previous`, the number `next` is within the range of sixteen bits. -/
def WithinShortRange (previous next : Int64) : Prop :=
  -32768 ≤ next - previous ∧ next - previous ≤ 32767

theorem toInt_shortId (longId : Int64) : ((shortId longId).toNat : ℤ) = longId.toInt % 65536 := by
  have hlow : (shortId longId).toNat = longId.toUInt64.toNat % 65536 := rfl
  have hlong : longId.toInt = if 2 * longId.toUInt64.toNat < 18446744073709551616 then
      (longId.toUInt64.toNat : ℤ) else longId.toUInt64.toNat - 18446744073709551616 :=
    BitVec.toInt_eq_toNat_cond longId.toBitVec
  rw [hlow, hlong]
  split <;> omega

theorem toInt_ofShort (id : UInt16) : id.toUInt64.toInt64.toInt = id.toNat := by
  have hlt := id.toNat_lt
  have hlong : id.toUInt64.toInt64.toInt = if 2 * id.toNat < 18446744073709551616 then
      (id.toNat : ℤ) else id.toNat - 18446744073709551616 :=
    BitVec.toInt_eq_toNat_cond id.toUInt64.toInt64.toBitVec
  rw [hlong, if_pos (by omega)]

theorem toInt_add_of_small {a b : Int64} (h : -2147483648 ≤ a.toInt + b.toInt)
    (h' : a.toInt + b.toInt ≤ 2147483648) : (a + b).toInt = a.toInt + b.toInt := by
  rw [Int64.toInt_add, Int.bmod_def]
  split <;> omega

theorem toInt_sub_of_small {a b : Int64} (h : -2147483648 ≤ a.toInt - b.toInt)
    (h' : a.toInt - b.toInt ≤ 2147483648) : (a - b).toInt = a.toInt - b.toInt := by
  rw [Int64.toInt_sub, Int.bmod_def]
  split <;> omega

theorem toInt_add_emod (a b : Int64) : (a + b).toInt % 65536 = (a.toInt + b.toInt) % 65536 := by
  rw [Int64.toInt_add, Int.bmod_def]
  split <;> omega

theorem toInt_sub_emod (a b : Int64) : (a - b).toInt % 65536 = (a.toInt - b.toInt) % 65536 := by
  rw [Int64.toInt_sub, Int.bmod_def]
  split <;> omega

theorem shortId_ofNat (n : ℕ) : shortId (Int64.ofNat n) = UInt16.ofNat n := by
  apply UInt16.toNat_inj.mp
  show n % 18446744073709551616 % 65536 = n % 65536
  omega

namespace SequenceCounter

/-- The short id is the end of the long one. -/
def Valid (s : SequenceCounter) : Prop := s.prevShortId = shortId s.prevLongId

theorem sequenceCounter_valid : sequenceCounter.Valid := rfl

theorem convertNext_eq (s : SequenceCounter) (nextShortId : UInt16) :
    ∃ delta : Int64, s.convertNext nextShortId =
        (s.prevLongId + delta, ⟨nextShortId, s.prevLongId + delta⟩) ∧
      -32768 ≤ delta.toInt ∧ delta.toInt ≤ 32767 ∧
      delta.toInt % 65536 = ((nextShortId.toNat : ℤ) - s.prevShortId.toNat) % 65536 := by
  have hnext := nextShortId.toNat_lt
  have hprev := s.prevShortId.toNat_lt
  have hdelta : (nextShortId.toUInt64.toInt64 - s.prevShortId.toUInt64.toInt64).toInt =
      nextShortId.toNat - s.prevShortId.toNat := by
    rw [toInt_sub_of_small] <;> simp only [toInt_ofShort] <;> omega
  have hrange : shortRange.toInt = 65536 := rfl
  have hhigh : (32767 : Int64).toInt = 32767 := rfl
  have hlow : (-32768 : Int64).toInt = -32768 := rfl
  refine ⟨_, rfl, ?_⟩
  generalize nextShortId.toUInt64.toInt64 - s.prevShortId.toUInt64.toInt64 = delta at hdelta
  simp only [gt_iff_lt, Int64.lt_iff_toInt_lt, hhigh, hlow]
  by_cases habove : 32767 < delta.toInt
  · rw [if_pos habove]
    have hbelow : (delta - shortRange).toInt = delta.toInt - 65536 := by
      rw [toInt_sub_of_small] <;> omega
    rw [if_neg (by omega)]
    omega
  · rw [if_neg habove]
    by_cases hbelow : delta.toInt < -32768
    · rw [if_pos hbelow]
      have hsum : (delta + shortRange).toInt = delta.toInt + 65536 := by
        rw [toInt_add_of_small] <;> omega
      omega
    · rw [if_neg hbelow]
      omega

/-- The counter finds the number within its range that ends in the id. -/
theorem convertNext_of_within {s : SequenceCounter} (hs : s.Valid) {longId : Int64}
    (h : WithinShortRange s.prevLongId longId) :
    s.convertNext (shortId longId) = (longId, ⟨shortId longId, longId⟩) := by
  obtain ⟨delta, hnext, hlow, hhigh, hemod⟩ := s.convertNext_eq (shortId longId)
  have hsub := toInt_sub_emod longId s.prevLongId
  have hlongId := toInt_shortId longId
  have hprev := toInt_shortId s.prevLongId
  rw [← hs] at hprev
  have hwindow : -32768 ≤ (longId - s.prevLongId).toInt ∧ (longId - s.prevLongId).toInt ≤ 32767 :=
    ⟨Int64.le_iff_toInt_le.mp h.1, Int64.le_iff_toInt_le.mp h.2⟩
  have hdelta : delta = longId - s.prevLongId := by
    apply Int64.toInt_inj.mp
    omega
  have hlong : s.prevLongId + delta = longId := by
    rw [hdelta, Int64.add_comm, Int64.sub_add_cancel]
  rw [hnext, hlong]

theorem convertNext_valid {s : SequenceCounter} (hs : s.Valid) (nextShortId : UInt16) :
    (s.convertNext nextShortId).2.Valid ∧
      shortId (s.convertNext nextShortId).1 = nextShortId ∧
      (s.convertNext nextShortId).2.prevLongId = (s.convertNext nextShortId).1 := by
  obtain ⟨delta, hnext, -, -, hemod⟩ := s.convertNext_eq nextShortId
  have hprev := toInt_shortId s.prevLongId
  rw [← hs] at hprev
  have hlong := toInt_shortId (s.prevLongId + delta)
  have hadd := toInt_add_emod s.prevLongId delta
  have hlt := nextShortId.toNat_lt
  have hshort : shortId (s.prevLongId + delta) = nextShortId := by
    apply UInt16.toNat_inj.mp
    omega
  rw [hnext]
  exact ⟨hshort.symm, hshort, rfl⟩

/-- The numbers that a counter finds for the ids one after the other. -/
def logicalSequences (s : SequenceCounter) : List UInt16 → List Int64
  | [] => []
  | id :: ids =>
    (s.convertNext id).1 :: logicalSequences (s.convertNext id).2 ids

@[simp] theorem length_logicalSequences (s : SequenceCounter) (ids : List UInt16) :
    (logicalSequences s ids).length = ids.length := by
  induction ids generalizing s with
  | nil => rfl
  | cons id ids ih => rw [logicalSequences, List.length_cons, List.length_cons, ih]

/-- Numbers each of which is within the range of the one before are found from their ends, however
often those wrap. -/
theorem logicalSequences_of_chain {s : SequenceCounter} (hs : s.Valid) {longIds : List Int64}
    (h : List.IsChain WithinShortRange (s.prevLongId :: longIds)) :
    s.logicalSequences (longIds.map shortId) = longIds := by
  induction longIds generalizing s with
  | nil => rfl
  | cons longId longIds ih =>
    obtain ⟨hwithin, hchain⟩ := List.isChain_cons_cons.mp h
    have hnext := convertNext_of_within hs hwithin
    have hrest := ih (s := ⟨shortId longId, longId⟩) rfl hchain
    rw [List.map_cons, logicalSequences, hnext, hrest]

theorem withinShortRange_of_toInt {previous next : Int64}
    (h : -32768 ≤ next.toInt - previous.toInt ∧ next.toInt - previous.toInt ≤ 32767) :
    WithinShortRange previous next := by
  have hsub : (next - previous).toInt = next.toInt - previous.toInt := by
    rw [toInt_sub_of_small] <;> omega
  exact ⟨Int64.le_iff_toInt_le.mpr (hsub ▸ h.1), Int64.le_iff_toInt_le.mpr (hsub ▸ h.2)⟩

/-- A new counter finds every number from its low sixteen bits, as long as none is further from the
one before than those can tell. -/
theorem logicalSequences_shortIds (longIds : List Int64)
    (h : List.IsChain (fun previous next : ℤ => -32768 ≤ next - previous ∧ next - previous ≤ 32767)
      (0 :: longIds.map Int64.toInt)) :
    sequenceCounter.logicalSequences (longIds.map shortId) = longIds := by
  have hzero : (0 : ℤ) = sequenceCounter.prevLongId.toInt := rfl
  rw [hzero, ← List.map_cons, List.isChain_map] at h
  apply logicalSequences_of_chain sequenceCounter_valid
  exact h.imp fun _ _ => withinShortRange_of_toInt

/-- Down by the largest difference twice, and up by the largest one. -/
theorem logicalSequences_shortIds_sample :
    sequenceCounter.logicalSequences ([-32768, -65536, -32769].map shortId) =
      [-32768, -65536, -32769] :=
  logicalSequences_shortIds _ (by decide)

/-- Numbers that follow each other are found from their ends, however often those wrap. -/
theorem logicalSequences_consecutive {s : SequenceCounter} (hs : s.Valid) (first count : ℕ)
    (hfirst : WithinShortRange s.prevLongId (Int64.ofNat first)) :
    s.logicalSequences ((List.range count).map fun i => UInt16.ofNat (first + i)) =
      (List.range count).map fun i => Int64.ofNat (first + i) := by
  have hids : ((List.range count).map fun i => UInt16.ofNat (first + i)) =
      ((List.range count).map fun i => Int64.ofNat (first + i)).map shortId := by
    simp only [List.map_map, Function.comp_def, shortId_ofNat]
  have hstep (i : ℕ) :
      WithinShortRange (Int64.ofNat (first + i)) (Int64.ofNat (first + i.succ)) := by
    rw [WithinShortRange, Nat.add_succ, Nat.succ_eq_add_one, Int64.ofNat_add, Int64.add_comm,
      Int64.add_sub_cancel]
    decide
  rw [hids]
  apply logicalSequences_of_chain hs
  cases count with
  | zero => exact .singleton _
  | succ count =>
    apply List.isChain_cons.mpr
    constructor
    · intro next hnext
      rw [List.range_succ_eq_map, List.map_cons, List.head?_cons] at hnext
      obtain rfl := Option.some.inj hnext
      exact hfirst
    · exact (List.isChain_map _).mpr ((List.isChain_range_succ _ _).mpr fun i _ => hstep i)

theorem shortId_of_mem_zip {s : SequenceCounter} (h : s.Valid) {packets : List RtpPacket}
    {r : RtpPacket × Int64}
    (hr : r ∈ packets.zip (logicalSequences s (packets.map (·.sequenceNumber)))) :
    shortId r.2 = r.1.sequenceNumber := by
  induction packets generalizing s with
  | nil => cases hr
  | cons p packets ih =>
    obtain ⟨hvalid, hshort, -⟩ := SequenceCounter.convertNext_valid h p.sequenceNumber
    simp only [List.map_cons, logicalSequences, List.zip_cons_cons, List.mem_cons] at hr
    rcases hr with rfl | hr
    · exact hshort
    · exact ih hvalid hr

end SequenceCounter
end SignalIOS.Srtp
