import SignalIOS.Audio.JitterQueue
import SignalIOS.Lib.ReorderBuffer

/-! A jitter queue is a reorder buffer of packets that are numbered by sixteen bits. -/
namespace SignalIOS.Audio
open SignalIOS.Lib SignalIOS.NumberUtil

def cyclicSequencing : Sequencing EncodedAudioPacket UInt16 where
  number packet := packet.sequenceNumber
  distance a b := (congruentDifferenceMod2ToThe16 a b).toInt
  next a := a + 1
  ahead := readHeadMaxQueueAhead
  spanLimit := readHeadBadSpanThreshold.toNat
  capacity := maximumJitterQueueSizeBeforeDiscarding

theorem congruentDifference_next (a b : UInt16) :
    (congruentDifferenceMod2ToThe16 (a + 1) b).toInt % 65536 =
      ((b.toNat : ℤ) - a.toNat - 1) % 65536 := by
  obtain ⟨-, -, hemod⟩ := toInt_congruentDifferenceMod2ToThe16 (a + 1) b
  have hnext : (a + 1).toNat = (a.toNat + 1) % 65536 := UInt16.toNat_add a 1
  omega

theorem cyclicSequencing_lawful : cyclicSequencing.Lawful where
  distance_self a := by
    obtain ⟨hlow, hhigh, hemod⟩ := toInt_congruentDifferenceMod2ToThe16 a a
    show (congruentDifferenceMod2ToThe16 a a).toInt = 0
    omega
  distance_sub {a b c} := by
    obtain ⟨hlow, hhigh, hemod⟩ := toInt_congruentDifferenceMod2ToThe16 a b
    obtain ⟨hlow', hhigh', hemod'⟩ := toInt_congruentDifferenceMod2ToThe16 a c
    obtain ⟨hlow'', hhigh'', hemod''⟩ := toInt_congruentDifferenceMod2ToThe16 b c
    simp only [cyclicSequencing]
    omega
  distance_next {a b c} := by
    obtain ⟨hlow, hhigh, hemod⟩ := toInt_congruentDifferenceMod2ToThe16 a b
    obtain ⟨hlow', hhigh', hemod'⟩ := toInt_congruentDifferenceMod2ToThe16 a c
    obtain ⟨hlow'', hhigh'', -⟩ := toInt_congruentDifferenceMod2ToThe16 (b + 1) c
    have hemod'' := congruentDifference_next b c
    simp only [cyclicSequencing]
    omega
  distance_inj {a b c} h := by
    obtain ⟨-, -, hemod⟩ := toInt_congruentDifferenceMod2ToThe16 a b
    obtain ⟨-, -, hemod'⟩ := toInt_congruentDifferenceMod2ToThe16 a c
    have hb := b.toNat_lt
    have hc := c.toNat_lt
    simp only [cyclicSequencing] at h
    apply UInt16.toNat_inj.mp
    omega
  ahead := by decide
  capacity := by decide
  spanLimit := by decide

/-- The packet is at the head or ahead of it, but not too far. -/
def Near (head : UInt16) (packet : EncodedAudioPacket) : Prop :=
  0 ≤ cyclicSequencing.distance head packet.sequenceNumber ∧
    cyclicSequencing.distance head packet.sequenceNumber ≤ readHeadMaxQueueAhead

/-- Packets near the head are near enough to each other to be compared. -/
theorem compares_cyclingPacketComparator (head : UInt16) :
    PriorityQueue.Compares JitterQueue.cyclingPacketComparator
      (ReorderBuffer.Before cyclicSequencing head) (Near head) := by
  intro a b ha hb
  obtain ⟨hlow, hhigh, hemod⟩ := toInt_congruentDifferenceMod2ToThe16 head a.sequenceNumber
  obtain ⟨hlow', hhigh', hemod'⟩ := toInt_congruentDifferenceMod2ToThe16 head b.sequenceNumber
  obtain ⟨hlow'', hhigh'', hemod''⟩ :=
    toInt_congruentDifferenceMod2ToThe16 b.sequenceNumber a.sequenceNumber
  simp only [Near, cyclicSequencing, readHeadMaxQueueAhead] at ha hb
  have hsmall : (congruentDifferenceMod2ToThe16 b.sequenceNumber a.sequenceNumber).toInt.natAbs ≤
      transitiveSafetyRange := by
    simp only [transitiveSafetyRange]
    omega
  obtain ⟨hle, hge⟩ := toInt_signOfInt32
    (congruentDifferenceMod2ToThe16 b.sequenceNumber a.sequenceNumber).toInt32
  rw [Int16.toInt_toInt32] at hle hge
  refine ⟨(signOfInt32 (congruentDifferenceMod2ToThe16 b.sequenceNumber
    a.sequenceNumber).toInt32).toInt, ?_, ?_, ?_⟩
  · simp only [JitterQueue.cyclingPacketComparator, requireState, if_pos hsmall]
    rfl
  · rw [hle]
    simp only [ReorderBuffer.Before, cyclicSequencing]
    omega
  · rw [hge]
    simp only [ReorderBuffer.Before, cyclicSequencing]
    omega

namespace JitterQueue

/-- The queue has these packets, whose order from the head is the one given. -/
structure Contains (s : JitterQueue) (head : UInt16) (span : ℕ)
    (packets : List EncodedAudioPacket) : Prop where
  readHeadMin : s.readHeadMin = head
  readHeadSpan : s.readHeadSpan.toNat = span
  queue : ∃ items, s.resultPriorityQueue = some ⟨cyclingPacketComparator, items⟩ ∧
    items.toList.Perm packets ∧
    BinaryHeap.Ordered (ReorderBuffer.Before cyclicSequencing head) items
  ids : s.idsInJitterQueue = some (packets.map (·.sequenceNumber)).toFinset
  near : ∀ packet ∈ packets, Near head packet
  sorted : packets.Pairwise fun x y => cyclicSequencing.distance head x.sequenceNumber <
    cyclicSequencing.distance head y.sequenceNumber

variable {s : JitterQueue} {head : UInt16} {span : ℕ} {packets : List EncodedAudioPacket}

theorem run_notify (s : JitterQueue) (notification : JitterNotification) :
    (notify notification).run.run s =
      (.ok ⟨⟩, { s with watchers := s.watchers.map (· ++ [notification]) }) := rfl

theorem run_onPriorityQueue {β : Type}
    {message : Method Exception (PriorityQueue EncodedAudioPacket) β}
    {q q' : PriorityQueue EncodedAudioPacket} {value : β} (hq : s.resultPriorityQueue = some q)
    (hmessage : message.run.run q = (.ok value, q')) :
    (onPriorityQueue message).run.run s =
      (.ok (some value), { s with resultPriorityQueue := some q' }) := by
  simp only [onPriorityQueue, Method.run_bind, Method.run_get, hq, hmessage, Method.run_modify,
    Method.run_lift, Method.run_pure]

theorem Contains.count (h : s.Contains head span packets) : s.count = packets.length := by
  obtain ⟨items, hitems, hperm, -⟩ := h.queue
  rw [JitterQueue.count, hitems]
  exact hperm.length_eq

/-- Where a packet is added that is near the head, and is not there yet. -/
theorem Contains.run_enqueue (h : s.Contains head span packets) {packet : EncodedAudioPacket}
    (hfits : ReorderBuffer.Fits cyclicSequencing ⟨head, span, packets⟩ packet) :
    ∃ q items, s.resultPriorityQueue = some q ∧
      (PriorityQueue.enqueue packet).run.run q = (.ok (), ⟨cyclingPacketComparator, items⟩) ∧
      items.toList.Perm (packet :: packets) ∧
      BinaryHeap.Ordered (ReorderBuffer.Before cyclicSequencing head) items := by
  obtain ⟨items, hitems, hperm, hordered⟩ := h.queue
  have hnear : ∀ x ∈ items.push packet, Near head x := by
    intro x hx
    rcases Array.mem_push.mp hx with hx | rfl
    · exact h.near x (hperm.mem_iff.mp (Array.mem_toList_iff.mpr hx))
    · exact ⟨hfits.1, hfits.2.1⟩
  obtain ⟨items', hrun, hperm', hordered'⟩ := PriorityQueue.run_enqueue
    (q := ⟨cyclingPacketComparator, items⟩)
    (fun a b ha hb => compares_cyclingPacketComparator head a b (hnear a ha) (hnear b hb)) hordered
  refine ⟨_, items', hitems, hrun, ?_, hordered'⟩
  have hpush : (items.push packet).toList.Perm (packet :: packets) := by
    rw [Array.toList_push]
    exact (List.perm_append_singleton packet items.toList).trans (.cons packet hperm)
  exact (Array.perm_iff_toList_perm.mp hperm').trans hpush

/-- The root of the heap is the packet that is first in the order. -/
theorem Contains.root {first : EncodedAudioPacket} {rest : List EncodedAudioPacket}
    (h : s.Contains head span (first :: rest)) {items : Array EncodedAudioPacket}
    (hperm : items.toList.Perm (first :: rest))
    (hordered : BinaryHeap.Ordered (ReorderBuffer.Before cyclicSequencing head) items) :
    ∃ h0 : 0 < items.size, items[0] = first := by
  have hlength : items.size = rest.length + 1 := hperm.length_eq
  have h0 : 0 < items.size := by omega
  refine ⟨h0, ?_⟩
  have hroot : items[0] ∈ first :: rest :=
    hperm.mem_iff.mp (Array.mem_toList_iff.mpr (Array.getElem_mem h0))
  rcases List.mem_cons.mp hroot with hfirst | hrest
  · exact hfirst
  · have hmem : first ∈ items :=
      Array.mem_toList_iff.mp (hperm.mem_iff.mpr (List.mem_cons_self ..))
    obtain ⟨i, hi, hget⟩ := Array.mem_iff_getElem.mp hmem
    have hle : ReorderBuffer.Before cyclicSequencing head items[0] items[i] :=
      hordered.root i hi h0
    rw [hget] at hle
    have hlt := (List.pairwise_cons.mp h.sorted).1 items[0] hrest
    exact absurd hle (Int.not_le.mpr hlt)

/-- Dequeuing takes the packet that is first in the order. -/
theorem Contains.run_dequeue {first : EncodedAudioPacket} {rest : List EncodedAudioPacket}
    (h : s.Contains head span (first :: rest)) :
    ∃ items, (onPriorityQueue PriorityQueue.dequeue).run.run s =
        (.ok (some first),
          { s with resultPriorityQueue := some ⟨cyclingPacketComparator, items⟩ }) ∧
      items.toList.Perm rest ∧
      BinaryHeap.Ordered (ReorderBuffer.Before cyclicSequencing head) items := by
  obtain ⟨items, hitems, hperm, hordered⟩ := h.queue
  obtain ⟨h0, hroot⟩ := h.root hperm hordered
  have hnear : ∀ x ∈ items, Near head x :=
    fun x hx => h.near x (hperm.mem_iff.mp (Array.mem_toList_iff.mpr hx))
  obtain ⟨items', hrun, hperm', hordered'⟩ := PriorityQueue.run_dequeue
    (q := ⟨cyclingPacketComparator, items⟩)
    (fun a b ha hb => compares_cyclingPacketComparator head a b (hnear a ha) (hnear b hb))
    hordered h0
  rw [hroot] at hrun hperm'
  exact ⟨items', run_onPriorityQueue hitems hrun, (hperm'.symm.trans hperm).cons_inv, hordered'⟩

theorem Contains.run_peek {first : EncodedAudioPacket} {rest : List EncodedAudioPacket}
    (h : s.Contains head span (first :: rest)) :
    (onPriorityQueue PriorityQueue.peek).run.run s = (.ok (some first), s) := by
  obtain ⟨items, hitems, hperm, hordered⟩ := h.queue
  obtain ⟨h0, hroot⟩ := h.root hperm hordered
  have hpeek := PriorityQueue.run_peek (q := ⟨cyclingPacketComparator, items⟩) h0
  rw [hroot] at hpeek
  rw [run_onPriorityQueue hitems hpeek, ← hitems]

/-- The head can move towards the packets, or past the first of them. -/
theorem ordered_of_head {head' : UInt16} {packets : List EncodedAudioPacket}
    {items : Array EncodedAudioPacket} (hperm : items.toList.Perm packets)
    (hordered : BinaryHeap.Ordered (ReorderBuffer.Before cyclicSequencing head) items) {shift : ℤ}
    (hshift : ∀ x ∈ packets, cyclicSequencing.distance head' x.sequenceNumber =
      cyclicSequencing.distance head x.sequenceNumber - shift) :
    BinaryHeap.Ordered (ReorderBuffer.Before cyclicSequencing head') items := by
  refine hordered.mono ?_
  intro a ha b hb hab
  have ha' := hshift a (hperm.mem_iff.mp (Array.mem_toList_iff.mpr ha))
  have hb' := hshift b (hperm.mem_iff.mp (Array.mem_toList_iff.mpr hb))
  show cyclicSequencing.distance head' a.sequenceNumber ≤
    cyclicSequencing.distance head' b.sequenceNumber
  have hle : cyclicSequencing.distance head a.sequenceNumber ≤
    cyclicSequencing.distance head b.sequenceNumber := hab
  omega

theorem sorted_of_head {head' : UInt16} {packets : List EncodedAudioPacket}
    (hsorted : packets.Pairwise fun x y => cyclicSequencing.distance head x.sequenceNumber <
      cyclicSequencing.distance head y.sequenceNumber) {shift : ℤ}
    (hshift : ∀ x ∈ packets, cyclicSequencing.distance head' x.sequenceNumber =
      cyclicSequencing.distance head x.sequenceNumber - shift) :
    packets.Pairwise fun x y => cyclicSequencing.distance head' x.sequenceNumber <
      cyclicSequencing.distance head' y.sequenceNumber := by
  refine hsorted.imp_of_mem ?_
  intro x y hx hy hlt
  rw [hshift x hx, hshift y hy]
  omega

theorem near_of_head {head' : UInt16} {packet : EncodedAudioPacket} (hnear : Near head packet)
    {shift : ℤ} (hshift : cyclicSequencing.distance head' packet.sequenceNumber =
      cyclicSequencing.distance head packet.sequenceNumber - shift) (h0 : 0 ≤ shift)
    (hle : shift ≤ cyclicSequencing.distance head packet.sequenceNumber) :
    Near head' packet := by
  unfold Near at hnear ⊢
  omega

theorem run_tryForceSyncIfNecessary_of_le (h : s.readHeadSpan ≤ readHeadBadSpanThreshold)
    (sequenceNumber : UInt16) :
    (tryForceSyncIfNecessary sequenceNumber).run.run s = (.ok false, s) := by
  simp only [tryForceSyncIfNecessary, Method.run_bind, Method.run_get, if_pos h, Method.run_pure]

/-- A queue that synchronizes drops its packets. -/
theorem run_tryForceSyncIfNecessary_of_gt (h : ¬ s.readHeadSpan ≤ readHeadBadSpanThreshold)
    (sequenceNumber : UInt16) :
    ∃ t, (tryForceSyncIfNecessary sequenceNumber).run.run s = (.ok true, t) ∧
      t.Contains sequenceNumber 1 [] := by
  let synchronized (watchers : List JitterWatcher) : JitterQueue :=
    { readHeadMin := sequenceNumber
      largestLatestEnqueued := sequenceNumber
      readHeadSpan := 1
      idsInJitterQueue := some ∅
      resultPriorityQueue := some makeCyclingPacketPriorityQueue
      watchers }
  have hempty (watchers : List JitterWatcher) :
      (synchronized watchers).Contains sequenceNumber 1 [] := by
    refine ⟨rfl, rfl, ⟨#[], rfl, .nil, ?_⟩, rfl, by simp, .nil⟩
    intro i j hi
    exact absurd hi (Nat.not_lt_zero i)
  by_cases hsome : s.resultPriorityQueue.isSome
  · refine ⟨synchronized (s.watchers.map (· ++ [.resync s.readHeadMin sequenceNumber])), ?_,
      hempty _⟩
    simp only [tryForceSyncIfNecessary, Method.run_bind, Method.run_get, if_neg h, if_pos hsome,
      run_notify, Method.run_modify, Method.run_pure, synchronized]
  · refine ⟨synchronized s.watchers, ?_, hempty _⟩
    simp only [tryForceSyncIfNecessary, Method.run_bind, Method.run_get, if_neg h, if_neg hsome,
      Method.run_modify, Method.run_pure, synchronized]

/-- A packet is bad exactly where the reorder buffer has no place for it. -/
theorem Contains.badArrivalType_eq_none (h : s.Contains head span packets)
    (packet : EncodedAudioPacket) :
    s.badArrivalType (congruentDifferenceMod2ToThe16 s.readHeadMin packet.sequenceNumber).toInt
        packet.sequenceNumber = none ↔
      ReorderBuffer.Fits cyclicSequencing ⟨head, span, packets⟩ packet := by
  rw [h.readHeadMin, badArrivalType, h.ids]
  simp only [ReorderBuffer.Fits, cyclicSequencing]
  generalize (congruentDifferenceMod2ToThe16 head packet.sequenceNumber).toInt = d
  have hids : (∃ ids ∈ some (packets.map (·.sequenceNumber)).toFinset,
      packet.sequenceNumber ∈ ids) ↔ ¬ ∀ x ∈ packets, x.sequenceNumber ≠ packet.sequenceNumber := by
    simp
  simp only [hids]
  split
  · simp only [reduceCtorEq, false_iff]
    omega
  · split
    · simp only [reduceCtorEq, false_iff]
      omega
    · split
      · rename_i hduplicate
        simp only [reduceCtorEq, false_iff]
        exact fun hfits => hduplicate hfits.2.2
      · rename_i hlow hhigh hnew
        simp only [true_iff]
        exact ⟨Int.not_lt.mp hlow, Int.not_lt.mp hhigh, not_not.mp hnew⟩

/-- Only the packets, their ids and the read head matter. -/
theorem Contains.update (h : s.Contains head span packets) (watchers : List JitterWatcher)
    (largestLatestEnqueued : UInt16) :
    Contains { s with watchers, largestLatestEnqueued } head span packets :=
  ⟨h.readHeadMin, h.readHeadSpan, h.queue, h.ids, h.near, h.sorted⟩

theorem run_discardExcess_of_le (h : s.count ≤ maximumJitterQueueSizeBeforeDiscarding) :
    discardExcess.run.run s = (.ok (), s) := by
  simp only [discardExcess, Method.run_bind, Method.run_get, if_pos h, Method.run_pure]

theorem distance_of_mem {packet : EncodedAudioPacket} (hpackets : ∀ x ∈ packets, Near head x)
    (hpacket : 0 ≤ cyclicSequencing.distance head packet.sequenceNumber)
    (hfirst : ∀ x ∈ packets, cyclicSequencing.distance head packet.sequenceNumber ≤
      cyclicSequencing.distance head x.sequenceNumber) :
    ∀ x ∈ packets, cyclicSequencing.distance packet.sequenceNumber x.sequenceNumber =
      cyclicSequencing.distance head x.sequenceNumber -
        cyclicSequencing.distance head packet.sequenceNumber :=
  fun x hx => cyclicSequencing_lawful.distance_sub hpacket (hfirst x hx) (hpackets x hx).2

/-- The ids without that of the first packet. -/
theorem Contains.erase_ids {first : EncodedAudioPacket} {rest : List EncodedAudioPacket}
    (h : s.Contains head span (first :: rest)) :
    ((first :: rest).map (·.sequenceNumber)).toFinset.erase first.sequenceNumber =
      (rest.map (·.sequenceNumber)).toFinset := by
  rw [List.map_cons, List.toFinset_cons, Finset.erase_insert]
  rw [List.mem_toFinset, List.mem_map]
  rintro ⟨x, hx, heq⟩
  have hlt := (List.pairwise_cons.mp h.sorted).1 x hx
  rw [heq] at hlt
  exact Int.lt_irrefl _ hlt

/-- The first packet is discarded, and the head moves to the second. -/
theorem Contains.run_discardExcess {first second : EncodedAudioPacket}
    {rest : List EncodedAudioPacket} (h : s.Contains head span (first :: second :: rest))
    (hcount : ¬ s.count ≤ maximumJitterQueueSizeBeforeDiscarding) :
    ∃ t, discardExcess.run.run s = (.ok (), t) ∧
      t.Contains second.sequenceNumber 1 (second :: rest) := by
  obtain ⟨items, hrun, hperm, hordered⟩ := h.run_dequeue
  obtain ⟨hfirst, hsorted⟩ := List.pairwise_cons.mp h.sorted
  have hnear : ∀ x ∈ second :: rest, Near head x :=
    fun x hx => h.near x (List.mem_cons_of_mem _ hx)
  have hbetween : Contains { s with
      resultPriorityQueue := some ⟨cyclingPacketComparator, items⟩
      idsInJitterQueue := some ((second :: rest).map (·.sequenceNumber)).toFinset } head span
      (second :: rest) :=
    ⟨h.readHeadMin, h.readHeadSpan, ⟨items, rfl, hperm, hordered⟩, rfl, hnear, hsorted⟩
  have hsecond : ∀ x ∈ second :: rest, cyclicSequencing.distance head second.sequenceNumber ≤
      cyclicSequencing.distance head x.sequenceNumber := by
    intro x hx
    rcases List.mem_cons.mp hx with rfl | hx
    · exact Int.le_refl _
    · exact Int.le_of_lt ((List.pairwise_cons.mp hsorted).1 x hx)
  have hdistance := distance_of_mem hnear (hnear second (List.mem_cons_self ..)).1 hsecond
  have hdiscarded : (discardExcess.run.run s).1 = .ok () ∧
      (discardExcess.run.run s).2.Contains second.sequenceNumber 1 (second :: rest) := by
    simp only [discardExcess, Method.run_bind, Method.run_get, if_neg hcount, hrun,
      Method.run_modify, h.ids, sequenceNumberOf, Option.map_some, h.erase_ids, hbetween.run_peek,
      run_notify]
    refine ⟨trivial, rfl, rfl, ⟨items, rfl, hperm, ordered_of_head hperm hordered hdistance⟩, rfl,
      ?_, sorted_of_head hsorted hdistance⟩
    intro x hx
    exact near_of_head (hnear x hx) (hdistance x hx) (hnear second (List.mem_cons_self ..)).1
      (hsecond x hx)
  exact ⟨_, Prod.ext hdiscarded.1 rfl, hdiscarded.2⟩

/-- Once there is a place for the packet, it is put into the order. After that, the queue looks for
excess. -/
theorem Contains.run_insert {t : JitterQueue} {packet : EncodedAudioPacket}
    (h : t.Contains head span packets)
    (hfits : ReorderBuffer.Fits cyclicSequencing ⟨head, span, packets⟩ packet)
    (hfit : (tryFitIntoSequence packet.sequenceNumber).run.run s = (.ok true, t)) :
    ∃ u, u.Contains head span
        (packets.orderedInsert (ReorderBuffer.Before cyclicSequencing head) packet) ∧
      (tryEnqueue packet).run.run s =
        (discardExcess >>= fun _ => pure true : Method Exception JitterQueue Bool).run.run u := by
  obtain ⟨q, items, hq, hrun, hperm, hordered⟩ := h.run_enqueue hfits
  have hinsert :=
    List.perm_orderedInsert (ReorderBuffer.Before cyclicSequencing head) packet packets
  obtain ⟨hsorted, hnear⟩ := ReorderBuffer.insert_sorted cyclicSequencing_lawful
    (b := ⟨head, span, packets⟩) h.sorted h.near hfits
  generalize packets.orderedInsert (ReorderBuffer.Before cyclicSequencing head) packet = queued at *
  have hids : insert packet.sequenceNumber (packets.map (·.sequenceNumber)).toFinset =
      (queued.map (·.sequenceNumber)).toFinset := by
    rw [List.toFinset_eq_of_perm _ _ (hinsert.map _), List.map_cons, List.toFinset_cons]
  have hcontains : Contains { t with
      resultPriorityQueue := some ⟨cyclingPacketComparator, items⟩
      idsInJitterQueue := some (queued.map (·.sequenceNumber)).toFinset } head span queued :=
    ⟨h.readHeadMin, h.readHeadSpan, ⟨items, rfl, hperm.trans hinsert.symm, hordered⟩, rfl, hnear,
      hsorted⟩
  have henqueue := run_onPriorityQueue (s := { t with
    idsInJitterQueue := some (queued.map (·.sequenceNumber)).toFinset }) hq hrun
  by_cases hlargest : (congruentDifferenceMod2ToThe16 t.largestLatestEnqueued
      packet.sequenceNumber).toInt > 0
  · refine ⟨_, hcontains.update (t.watchers.map (· ++ [.arrival packet.sequenceNumber]))
      packet.sequenceNumber, ?_⟩
    simp only [tryEnqueue, Method.run_bind, hfit, if_true, Method.run_modify, h.ids,
      Option.map_some, hids, henqueue, run_notify, if_pos hlargest]
  · refine ⟨_, hcontains.update (t.watchers.map (· ++ [.arrival packet.sequenceNumber]))
      t.largestLatestEnqueued, ?_⟩
    simp only [tryEnqueue, Method.run_bind, hfit, if_true, Method.run_modify, h.ids,
      Option.map_some, hids, henqueue, run_notify, if_neg hlargest]

theorem Contains.run_tryEnqueue {t : JitterQueue} {packet : EncodedAudioPacket}
    (h : t.Contains head span packets)
    (hfits : ReorderBuffer.Fits cyclicSequencing ⟨head, span, packets⟩ packet)
    (hfit : (tryFitIntoSequence packet.sequenceNumber).run.run s = (.ok true, t))
    {queued : List EncodedAudioPacket}
    (hqueued : queued =
      packets.orderedInsert (ReorderBuffer.Before cyclicSequencing head) packet) :
    ∃ u, (tryEnqueue packet).run.run s = (.ok true, u) ∧
      (queued.length ≤ maximumJitterQueueSizeBeforeDiscarding → u.Contains head span queued) ∧
      ∀ first second rest, queued = first :: second :: rest →
        maximumJitterQueueSizeBeforeDiscarding < queued.length →
        u.Contains second.sequenceNumber 1 (second :: rest) := by
  obtain ⟨u, hu, hrun⟩ := h.run_insert hfits hfit
  rw [← hqueued] at hu
  rw [hrun, Method.run_bind]
  by_cases hcount : u.count ≤ maximumJitterQueueSizeBeforeDiscarding
  · have hlength : queued.length ≤ maximumJitterQueueSizeBeforeDiscarding := hu.count ▸ hcount
    refine ⟨u, by rw [run_discardExcess_of_le hcount]; rfl, fun _ => hu, ?_⟩
    intro first second rest _ hlarge
    omega
  · have hlength : maximumJitterQueueSizeBeforeDiscarding < queued.length :=
      Nat.lt_of_not_le (hu.count ▸ hcount)
    match queued, hu, hlength with
    | first :: second :: rest, hu, hlength =>
      obtain ⟨v, hdiscard, hv⟩ := hu.run_discardExcess hcount
      refine ⟨v, by rw [hdiscard]; rfl, fun hsmall => absurd hsmall (by omega), ?_⟩
      intro first' second' rest' hcons _
      obtain ⟨rfl, rfl, rfl⟩ : first = first' ∧ second = second' ∧ rest = rest' := by
        simpa using hcons
      exact hv

/-- What the buffer holds between two operations. -/
structure Represents (s : JitterQueue) (b : ReorderBuffer EncodedAudioPacket UInt16) : Prop where
  wellFormed : ReorderBuffer.WellFormed cyclicSequencing b
  contains : s.Contains b.head b.span b.queued ∨
    (s.readHeadMin = b.head ∧ s.readHeadSpan.toNat = b.span ∧
      s.resultPriorityQueue = none ∧ s.idsInJitterQueue = none ∧
      b.queued = [] ∧ b.span > cyclicSequencing.spanLimit)

variable {b : ReorderBuffer EncodedAudioPacket UInt16}

theorem Represents.readHeadSpan (h : s.Represents b) : s.readHeadSpan.toNat = b.span := by
  rcases h.contains with hcontains | ⟨-, hspan, -⟩
  · exact hcontains.readHeadSpan
  · exact hspan

theorem Represents.le_iff (h : s.Represents b) :
    s.readHeadSpan ≤ readHeadBadSpanThreshold ↔ b.span ≤ cyclicSequencing.spanLimit := by
  rw [← h.readHeadSpan]
  exact UInt16.le_iff_toNat_le

theorem Represents.contains_of_le (h : s.Represents b)
    (hspan : b.span ≤ cyclicSequencing.spanLimit) : s.Contains b.head b.span b.queued := by
  rcases h.contains with hcontains | ⟨-, -, -, -, -, hlimit⟩
  · exact hcontains
  · omega

/-- The packet is accepted where the buffer accepts it. -/
theorem Represents.run_tryEnqueue (h : s.Represents b) (packet : EncodedAudioPacket) :
    ∃ t, (tryEnqueue packet).run.run s =
        (.ok (!(ReorderBuffer.accepted
          (ReorderBuffer.arrive cyclicSequencing b packet).1).isEmpty), t) ∧
      t.Represents (ReorderBuffer.arrive cyclicSequencing b packet).2 := by
  have hwellFormed := h.wellFormed.arrive cyclicSequencing_lawful packet
  rcases ReorderBuffer.arrive_cases cyclicSequencing b packet with ⟨hspan, harrive⟩ |
    ⟨hspan, hfits, harrive⟩ | ⟨hspan, hfits, queued, hqueued, hcase⟩
  · have hsync : ¬ s.readHeadSpan ≤ readHeadBadSpanThreshold := by
      rw [h.le_iff]
      omega
    obtain ⟨t, hforce, hempty⟩ := run_tryForceSyncIfNecessary_of_gt hsync packet.sequenceNumber
    have hfit : (tryFitIntoSequence packet.sequenceNumber).run.run s = (.ok true, t) := by
      simp only [tryFitIntoSequence, Method.run_bind, Method.run_get, hforce, if_true,
        Method.run_pure]
    have hfits : ReorderBuffer.Fits cyclicSequencing ⟨packet.sequenceNumber, 1, []⟩ packet := by
      have hself := cyclicSequencing_lawful.distance_self packet.sequenceNumber
      refine ⟨Int.le_of_eq hself.symm, ?_, by simp⟩
      exact hself.symm ▸ cyclicSequencing_lawful.ahead
    obtain ⟨u, hrun, hcontains, -⟩ := hempty.run_tryEnqueue hfits hfit rfl
    rw [harrive] at hwellFormed ⊢
    exact ⟨u, hrun, hwellFormed,
      .inl (hcontains (show 1 ≤ maximumJitterQueueSizeBeforeDiscarding by decide))⟩
  · have hcontains := h.contains_of_le hspan
    have hbad : ∃ badArrivalType, s.badArrivalType
        (congruentDifferenceMod2ToThe16 s.readHeadMin packet.sequenceNumber).toInt
          packet.sequenceNumber = some badArrivalType :=
      Option.ne_none_iff_exists'.mp fun hnone =>
        hfits ((hcontains.badArrivalType_eq_none packet).mp hnone)
    obtain ⟨badArrivalType, hbad⟩ := hbad
    have hforce := run_tryForceSyncIfNecessary_of_le (h.le_iff.mpr hspan) packet.sequenceNumber
    rw [harrive] at hwellFormed ⊢
    refine ⟨_, ?_, hwellFormed, .inl (hcontains.update
      (s.watchers.map (· ++ [.badArrival packet.sequenceNumber badArrivalType]))
      s.largestLatestEnqueued)⟩
    simp only [tryEnqueue, tryFitIntoSequence, Method.run_bind, Method.run_get, hforce,
      Bool.false_eq_true, if_false, hbad, run_notify, Method.run_pure]
    rfl
  · have hcontains := h.contains_of_le hspan
    have hforce := run_tryForceSyncIfNecessary_of_le (h.le_iff.mpr hspan) packet.sequenceNumber
    have hfit : (tryFitIntoSequence packet.sequenceNumber).run.run s = (.ok true, s) := by
      simp only [tryFitIntoSequence, Method.run_bind, Method.run_get, hforce, Bool.false_eq_true,
        if_false, (hcontains.badArrivalType_eq_none packet).mpr hfits, Method.run_pure]
    obtain ⟨u, hrun, hsmall, hlarge⟩ := hcontains.run_tryEnqueue hfits hfit hqueued
    rcases hcase with ⟨hlength, harrive⟩ | ⟨first, second, rest, hcons, hlength, harrive⟩
    · rw [harrive] at hwellFormed ⊢
      exact ⟨u, hrun, hwellFormed, .inl (hsmall hlength)⟩
    · rw [harrive] at hwellFormed ⊢
      exact ⟨u, hrun, hwellFormed, .inl (hlarge first second rest hcons hlength)⟩

theorem Represents.update (h : s.Represents b) (watchers : List JitterWatcher)
    (largestLatestEnqueued : UInt16) :
    Represents { s with watchers, largestLatestEnqueued } b := by
  refine ⟨h.wellFormed, ?_⟩
  rcases h.contains with hcontains | hinitial
  · exact .inl (hcontains.update watchers largestLatestEnqueued)
  · exact .inr hinitial

/-- The span grows while nothing can be dequeued. -/
theorem Contains.grow (h : s.Contains head span packets) (hspan : span < 65535)
    (watchers : List JitterWatcher) :
    Contains { s with readHeadSpan := s.readHeadSpan + 1, watchers } head (span + 1) packets := by
  have hgrown : (s.readHeadSpan + 1).toNat = (s.readHeadSpan.toNat + 1) % 65536 :=
    UInt16.toNat_add _ 1
  rw [h.readHeadSpan] at hgrown
  have hspan : (s.readHeadSpan + 1).toNat = span + 1 := by omega
  exact ⟨h.readHeadMin, hspan, h.queue, h.ids, h.near, h.sorted⟩

theorem run_checkReactIfOutOfSync (s : JitterQueue) :
    checkReactIfOutOfSyncForDequeue.run.run s =
      if s.readHeadSpan > readHeadBadSpanThreshold then
        (.ok true, { s with watchers := s.watchers.map (· ++ [.badDequeue .desynced]) })
      else (.ok false, s) := by
  by_cases hsync : s.readHeadSpan > readHeadBadSpanThreshold
  · simp only [checkReactIfOutOfSyncForDequeue, Method.run_bind, Method.run_get, hsync, if_true,
      run_notify, Method.run_pure, decide_true]
  · simp only [checkReactIfOutOfSyncForDequeue, Method.run_bind, Method.run_get, hsync, if_false,
      Method.run_pure, decide_false]

theorem run_checkReactIfEmpty (s : JitterQueue) :
    checkReactIfEmptyForDequeue.run.run s =
      if s.count = 0 then
        (.ok true, { s with
          readHeadSpan := s.readHeadSpan + 1
          watchers := s.watchers.map (· ++ [.badDequeue .empty]) })
      else (.ok false, s) := by
  by_cases hempty : s.count = 0
  · simp only [checkReactIfEmptyForDequeue, Method.run_bind, Method.run_get, hempty, if_true,
      Method.run_modify, run_notify, Method.run_pure, decide_true]
  · simp only [checkReactIfEmptyForDequeue, Method.run_bind, Method.run_get, hempty, if_false,
      Method.run_pure, decide_false]

theorem Contains.run_checkReactIfNoData {first : EncodedAudioPacket}
    {rest : List EncodedAudioPacket} (h : s.Contains head span (first :: rest)) :
    checkReactIfNoDataUnderReadHeadForDequeue.run.run s =
      if cyclicSequencing.distance head first.sequenceNumber < span then (.ok false, s)
      else
        (.ok true, { s with
          readHeadSpan := s.readHeadSpan + 1
          watchers := s.watchers.map (· ++ [.badDequeue .noDataUnderReadHead]) }) := by
  have hlow : 0 ≤ (congruentDifferenceMod2ToThe16 head first.sequenceNumber).toInt :=
    (h.near first (List.mem_cons_self ..)).1
  simp only [checkReactIfNoDataUnderReadHeadForDequeue, Method.run_bind, h.run_peek, Method.run_get,
    sequenceNumberOf, h.readHeadMin, h.readHeadSpan, cyclicSequencing]
  by_cases hnear : (congruentDifferenceMod2ToThe16 head first.sequenceNumber).toInt < span
  · have hunder : ¬ ((congruentDifferenceMod2ToThe16 head first.sequenceNumber).toInt < 0 ∨
        (congruentDifferenceMod2ToThe16 head first.sequenceNumber).toInt ≥ span) := by
      omega
    simp only [hunder, hnear, if_true, if_false, Method.run_pure, decide_false]
  · have hunder : (congruentDifferenceMod2ToThe16 head first.sequenceNumber).toInt < 0 ∨
        (congruentDifferenceMod2ToThe16 head first.sequenceNumber).toInt ≥ span := by
      omega
    simp only [hunder, hnear, if_true, if_false, Method.run_bind, Method.run_modify, run_notify,
      Method.run_pure, decide_true]
    rw [h.readHeadMin]

/-- Where the first packet is under the head, it is dequeued, and the head moves past it. -/
theorem Contains.run_tryDequeue {first : EncodedAudioPacket}
    {rest : List EncodedAudioPacket} (h : s.Contains head span (first :: rest))
    (hsync : ¬ s.readHeadSpan > readHeadBadSpanThreshold)
    (hnear : cyclicSequencing.distance head first.sequenceNumber < span) :
    ∃ t, tryDequeue.run.run s = (.ok (some first), t) ∧
      t.Contains (first.sequenceNumber + 1) 1 rest := by
  have hcount : ¬ s.count = 0 := by
    rw [h.count, List.length_cons]
    omega
  obtain ⟨items, hrun, hperm, hordered⟩ := h.run_dequeue
  obtain ⟨hfirst, hsorted⟩ := List.pairwise_cons.mp h.sorted
  have hdistance : ∀ x ∈ rest,
      cyclicSequencing.distance (first.sequenceNumber + 1) x.sequenceNumber =
        cyclicSequencing.distance head x.sequenceNumber -
          (cyclicSequencing.distance head first.sequenceNumber + 1) := by
    intro x hx
    have hnext := cyclicSequencing_lawful.distance_next (h.near first (List.mem_cons_self ..)).1
      (hfirst x hx) (h.near x (List.mem_cons_of_mem _ hx)).2
    rw [← Int.sub_sub]
    exact hnext
  have hdequeued : (tryDequeue.run.run s).1 = .ok (some first) ∧
      (tryDequeue.run.run s).2.Contains (first.sequenceNumber + 1) 1 rest := by
    simp only [tryDequeue, Method.run_bind, run_checkReactIfOutOfSync, if_neg hsync,
      Bool.false_eq_true, if_false, run_checkReactIfEmpty, if_neg hcount, h.run_checkReactIfNoData,
      if_pos hnear, hrun, Method.run_modify, h.ids, sequenceNumberOf, Option.map_some, h.erase_ids,
      Method.run_get, run_notify, Method.run_pure]
    refine ⟨trivial, rfl, rfl, ⟨items, rfl, hperm, ordered_of_head hperm hordered hdistance⟩, rfl,
      ?_, sorted_of_head hsorted hdistance⟩
    intro x hx
    have hlt := hfirst x hx
    have hnearFirst := h.near first (List.mem_cons_self ..)
    unfold Near at hnearFirst
    exact near_of_head (h.near x (List.mem_cons_of_mem _ hx)) (hdistance x hx) (by omega)
      (by omega)
  exact ⟨_, Prod.ext hdequeued.1 rfl, hdequeued.2⟩

/-- What is dequeued is what the buffer dequeues. -/
theorem Represents.run_tryDequeue (h : s.Represents b) :
    ∃ t, tryDequeue.run.run s =
        (.ok (ReorderBuffer.dequeued (ReorderBuffer.request cyclicSequencing b).1).head?, t) ∧
      t.Represents (ReorderBuffer.request cyclicSequencing b).2 := by
  have hwellFormed := h.wellFormed.request cyclicSequencing_lawful
  have hout :
      s.readHeadSpan > readHeadBadSpanThreshold ↔ ¬ b.span ≤ cyclicSequencing.spanLimit := by
    rw [← h.le_iff]
    exact UInt16.not_le.symm
  have hlimit : cyclicSequencing.spanLimit = 256 := rfl
  rcases ReorderBuffer.request_cases cyclicSequencing b with ⟨hspan, hrequest⟩ |
    ⟨hspan, hfirst, hrequest⟩ | ⟨hspan, first, rest, hqueued, hnear, hrequest⟩
  · rw [hrequest] at hwellFormed ⊢
    have hsync := hout.mpr (Nat.not_le.mpr hspan)
    refine ⟨_, ?_, h.update (s.watchers.map (· ++ [.badDequeue .desynced]))
      s.largestLatestEnqueued⟩
    simp only [tryDequeue, Method.run_bind, run_checkReactIfOutOfSync, if_pos hsync, if_true,
      Method.run_pure]
    rfl
  · rw [hrequest] at hwellFormed ⊢
    have hsync : ¬ s.readHeadSpan > readHeadBadSpanThreshold := fun hgt => hout.mp hgt hspan
    have hcontains := h.contains_of_le hspan
    by_cases hempty : s.count = 0
    · refine ⟨_, ?_, hwellFormed, .inl (hcontains.grow (by omega)
        (s.watchers.map (· ++ [.badDequeue .empty])))⟩
      simp only [tryDequeue, Method.run_bind, run_checkReactIfOutOfSync, if_neg hsync,
        Bool.false_eq_true, if_false, run_checkReactIfEmpty, if_pos hempty, if_true,
        Method.run_pure]
      rfl
    · have hne : b.queued ≠ [] := fun hnil => hempty (hcontains.count.trans (by rw [hnil]; rfl))
      obtain ⟨first, rest, hqueued⟩ := List.exists_cons_of_ne_nil hne
      have hfar : ¬ cyclicSequencing.distance b.head first.sequenceNumber < b.span :=
        Int.not_lt.mpr (hfirst first (by rw [hqueued]; rfl))
      have hnoData := hqueued ▸ hcontains
      refine ⟨_, ?_, hwellFormed, .inl (hcontains.grow (by omega)
        (s.watchers.map (· ++ [.badDequeue .noDataUnderReadHead])))⟩
      simp only [tryDequeue, Method.run_bind, run_checkReactIfOutOfSync, if_neg hsync,
        Bool.false_eq_true, if_false, run_checkReactIfEmpty, if_neg hempty,
        hnoData.run_checkReactIfNoData, if_neg hfar, if_true, Method.run_pure]
      rfl
  · rw [hrequest] at hwellFormed ⊢
    have hsync : ¬ s.readHeadSpan > readHeadBadSpanThreshold := fun hgt => hout.mp hgt hspan
    have hcontains := h.contains_of_le hspan
    rw [hqueued] at hcontains
    obtain ⟨t, hrun, ht⟩ := hcontains.run_tryDequeue hsync hnear
    exact ⟨t, hrun, hwellFormed, .inl ht⟩

/-- The message for an input of the buffer, and what the events say that it returns. -/
def messageOf : ReorderBuffer.Input EncodedAudioPacket → JitterMessage
  | .arrival audioPacket => .tryEnqueue audioPacket
  | .request => .tryDequeue

def resultOf (input : ReorderBuffer.Input EncodedAudioPacket)
    (events : List (ReorderBuffer.Event EncodedAudioPacket)) : JitterResult :=
  match input with
  | .arrival _ => .enqueued (!(ReorderBuffer.accepted events).isEmpty)
  | .request => .dequeued (ReorderBuffer.dequeued events).head?

theorem Represents.run_messageOf (h : s.Represents b)
    (input : ReorderBuffer.Input EncodedAudioPacket) :
    ∃ t, (messageOf input).send.run.run s =
        (.ok (resultOf input (ReorderBuffer.step cyclicSequencing b input).1), t) ∧
      t.Represents (ReorderBuffer.step cyclicSequencing b input).2 := by
  cases input with
  | arrival audioPacket =>
    obtain ⟨t, hrun, ht⟩ := h.run_tryEnqueue audioPacket
    refine ⟨t, ?_, ht⟩
    rw [messageOf, JitterMessage.send, Method.run_bind, hrun]
    rfl
  | request =>
    obtain ⟨t, hrun, ht⟩ := h.run_tryDequeue
    refine ⟨t, ?_, ht⟩
    rw [messageOf, JitterMessage.send, Method.run_bind, hrun]
    rfl

end JitterQueue
end SignalIOS.Audio
