import Mathlib.Order.Bounds.Basic
import SignalIOS.Audio.JitterRecovery
import SignalIOS.Audio.JitterRefinement

/-! The depth that a jitter queue reports, against a count of its packets in whole numbers. -/
namespace SignalIOS.Audio
open SignalIOS.Lib SignalIOS.NumberUtil

/-- The buffer of whole numbers, and the numbers that it has accepted since it last synchronized. -/
structure Unwrapped where
  buffer : ReorderBuffer (Arrival NSData) ℤ
  acceptedNumbers : List ℤ

namespace Unwrapped

/-- Of the numbers that show the bits of the packet, the one nearest to the head. -/
def arrivalOf (u : Unwrapped) (packet : EncodedAudioPacket) : Arrival NSData where
  number := u.buffer.head +
    (congruentDifferenceMod2ToThe16 (lowBits u.buffer.head) packet.sequenceNumber).toInt
  object := packet.audioData

def acceptedSince (numbers : List ℤ) (events : List (ReorderBuffer.Event (Arrival NSData))) :
    List ℤ :=
  events.foldl (fun numbers event =>
    match event with
    | .synchronized _ => []
    | .accepted arrival => arrival.number :: numbers
    | _ => numbers) numbers

def step (u : Unwrapped) : JitterMessage → JitterResult × Unwrapped
  | .registerWatcher _ => (.registered, u)
  | .tryEnqueue packet =>
    let (events, buffer) := ReorderBuffer.arrive (unboundedSequencing NSData) u.buffer
      (u.arrivalOf packet)
    (.enqueued (!(ReorderBuffer.accepted events).isEmpty),
      ⟨buffer, acceptedSince u.acceptedNumbers events⟩)
  | .tryDequeue =>
    let (events, buffer) := ReorderBuffer.request (unboundedSequencing NSData) u.buffer
    (.dequeued ((ReorderBuffer.dequeued events).head?.map (present id)), { u with buffer })

/-- What the messages return, and what is left after them. -/
def run : Unwrapped → List JitterMessage → List JitterResult × Unwrapped
  | u, [] => ([], u)
  | u, message :: messages =>
    let result := u.step message
    let rest := run result.2 messages
    (result.1 :: rest.1, rest.2)

end Unwrapped

theorem congruentDifference_lowBits {a b : ℤ} (hlow : -32768 ≤ b - a) (hhigh : b - a ≤ 32767) :
    (congruentDifferenceMod2ToThe16 (lowBits a) (lowBits b)).toInt = b - a := by
  obtain ⟨hmin, hmax, hemod⟩ := toInt_congruentDifferenceMod2ToThe16 (lowBits a) (lowBits b)
  have ha := toNat_lowBits a
  have hb := toNat_lowBits b
  omega

theorem lowBits_add_difference (a : ℤ) (sequenceNumber : UInt16) :
    lowBits (a + (congruentDifferenceMod2ToThe16 (lowBits a) sequenceNumber).toInt) =
      sequenceNumber := by
  obtain ⟨-, -, hemod⟩ := toInt_congruentDifferenceMod2ToThe16 (lowBits a) sequenceNumber
  have ha := toNat_lowBits a
  have hsum := toNat_lowBits
    (a + (congruentDifferenceMod2ToThe16 (lowBits a) sequenceNumber).toInt)
  have hlt := sequenceNumber.toNat_lt
  apply UInt16.toNat_inj.mp
  omega

theorem present_arrivalOf (u : Unwrapped) (packet : EncodedAudioPacket) :
    present id (u.arrivalOf packet) = packet := by
  have hnumber : lowBits (u.arrivalOf packet).number = packet.sequenceNumber :=
    lowBits_add_difference u.buffer.head packet.sequenceNumber
  show EncodedAudioPacket.mk packet.audioData (lowBits (u.arrivalOf packet).number) = packet
  rw [hnumber]

/-- An arrival seems to be as far from the head as it is. -/
theorem nearAsSeen_arrivalOf (u : Unwrapped) (packet : EncodedAudioPacket) :
    ReorderBuffer.NearAsSeen (unboundedSequencing NSData) cyclicSequencing lowBits u.buffer
      (u.arrivalOf packet) := by
  intro _ hlow hhigh
  have hnumber : lowBits ((unboundedSequencing NSData).number (u.arrivalOf packet)) =
      packet.sequenceNumber := lowBits_add_difference u.buffer.head packet.sequenceNumber
  have hdistance : (unboundedSequencing NSData).distance u.buffer.head
      ((unboundedSequencing NSData).number (u.arrivalOf packet)) =
        cyclicSequencing.distance (lowBits u.buffer.head) packet.sequenceNumber :=
    add_sub_cancel_left ..
  rw [hnumber] at hlow hhigh
  rw [hdistance]
  exact ⟨hlow, hhigh⟩

namespace Unwrapped

/-- The largest number accepted is just behind the head, or ahead of it but not too far. -/
structure HasLargest (u : Unwrapped) (largest : ℤ) : Prop where
  isGreatest : IsGreatest {n | n ∈ u.acceptedNumbers} largest
  head_le : u.buffer.head - 1 ≤ largest
  le_head : largest ≤ u.buffer.head + 0x1000
  queued : ∀ x ∈ u.buffer.queued, x.number ≤ largest

variable {u : Unwrapped} {largest : ℤ}

theorem isGreatest_cons {numbers : List ℤ} (h : IsGreatest {n | n ∈ numbers} largest)
    (number : ℤ) : IsGreatest {n | n ∈ number :: numbers} (max largest number) := by
  constructor
  · rcases max_choice largest number with hmax | hmax
    · rw [hmax]
      exact List.mem_cons_of_mem _ h.1
    · rw [hmax]
      exact List.mem_cons_self ..
  · intro n hn
    rcases List.mem_cons.mp hn with rfl | hn
    · exact le_max_right _ _
    · exact (h.2 hn).trans (le_max_left _ _)

/-- The buffer synchronizes at the number that arrives, which is then the only one. -/
theorem hasLargest_synchronize (u : Unwrapped) (packet : EncodedAudioPacket)
    (hspan : (unboundedSequencing NSData).spanLimit < u.buffer.span) :
    (u.step (.tryEnqueue packet)).2.HasLargest (u.arrivalOf packet).number := by
  have harrive : ReorderBuffer.arrive (unboundedSequencing NSData) u.buffer (u.arrivalOf packet) =
      ([.synchronized u.buffer.queued, .accepted (u.arrivalOf packet)],
        ⟨(u.arrivalOf packet).number, 1, [u.arrivalOf packet]⟩) := if_pos hspan
  simp only [step, harrive, acceptedSince, List.foldl]
  generalize u.arrivalOf packet = arrival
  refine ⟨by simp [IsGreatest, upperBounds], ?_, ?_, by simp⟩
  · show arrival.number - 1 ≤ arrival.number
    omega
  · show arrival.number ≤ arrival.number + 0x1000
    omega

theorem HasLargest.arrive (h : u.HasLargest largest) (packet : EncodedAudioPacket)
    (hwellFormed : ReorderBuffer.WellFormed (unboundedSequencing NSData) u.buffer)
    (hspan : u.buffer.span ≤ (unboundedSequencing NSData).spanLimit) :
    if (u.step (.tryEnqueue packet)).1 = .enqueued true then
      (u.step (.tryEnqueue packet)).2.HasLargest (max largest (u.arrivalOf packet).number) ∧
        0 ≤ (u.arrivalOf packet).number - u.buffer.head ∧
        (u.arrivalOf packet).number - u.buffer.head ≤ 0x1000
    else (u.step (.tryEnqueue packet)).2 = u := by
  generalize harrival : u.arrivalOf packet = arrival
  rcases ReorderBuffer.arrive_cases (unboundedSequencing NSData) u.buffer arrival with
    ⟨hlimit, -⟩ | ⟨-, -, harrive⟩ | ⟨-, hfits, queued, hqueued, hcase⟩
  · omega
  · simp only [step, harrival, harrive]
    rfl
  · have hlow : 0 ≤ arrival.number - u.buffer.head := hfits.1
    have hhigh : arrival.number - u.buffer.head ≤ 0x1000 := hfits.2.1
    have hhead := h.head_le
    have hle := h.le_head
    have hperm := List.perm_orderedInsert
      (ReorderBuffer.Before (unboundedSequencing NSData) u.buffer.head) arrival u.buffer.queued
    rw [← hqueued] at hperm
    have hbelow : ∀ x ∈ queued, x.number ≤ max largest arrival.number := by
      intro x hx
      rcases List.mem_cons.mp (hperm.mem_iff.mp hx) with rfl | hx
      · exact le_max_right _ _
      · exact (h.queued x hx).trans (le_max_left _ _)
    rcases hcase with ⟨-, harrive⟩ | ⟨first, second, rest, rfl, -, harrive⟩
    · simp only [step, harrival, harrive]
      refine ⟨⟨isGreatest_cons h.isGreatest _, ?_, ?_, hbelow⟩, hlow, hhigh⟩
      · show u.buffer.head - 1 ≤ max largest arrival.number
        omega
      · show max largest arrival.number ≤ u.buffer.head + 0x1000
        omega
    · obtain ⟨-, hwithin⟩ := ReorderBuffer.insert_sorted unboundedSequencing_lawful
        hwellFormed.sorted hwellFormed.within hfits
      rw [← hqueued] at hwithin
      have hsecond : 0 ≤ second.number - u.buffer.head := (hwithin second (by simp)).1
      have hsecond' : second.number ≤ max largest arrival.number := hbelow second (by simp)
      simp only [step, harrival, harrive]
      refine ⟨⟨isGreatest_cons h.isGreatest _, ?_, ?_, ?_⟩, hlow, hhigh⟩
      · show second.number - 1 ≤ max largest arrival.number
        omega
      · show max largest arrival.number ≤ second.number + 0x1000
        omega
      · intro x hx
        exact hbelow x (List.mem_cons_of_mem _ hx)

theorem HasLargest.request (h : u.HasLargest largest)
    (hwellFormed : ReorderBuffer.WellFormed (unboundedSequencing NSData) u.buffer) :
    (u.step .tryDequeue).2.HasLargest largest := by
  have hhead := h.head_le
  have hle := h.le_head
  rcases ReorderBuffer.request_cases (unboundedSequencing NSData) u.buffer with
    ⟨-, hrequest⟩ | ⟨-, -, hrequest⟩ | ⟨-, first, rest, hqueued, -, hrequest⟩
  · simp only [step, hrequest]
    exact h
  · simp only [step, hrequest]
    exact ⟨h.isGreatest, h.head_le, h.le_head, h.queued⟩
  · have hfirst : 0 ≤ first.number - u.buffer.head :=
      (hwellFormed.within first (by simp [hqueued])).1
    have hfirst' : first.number ≤ largest := h.queued first (by simp [hqueued])
    simp only [step, hrequest]
    refine ⟨h.isGreatest, ?_, ?_, ?_⟩
    · show first.number + 1 - 1 ≤ largest
      omega
    · show largest ≤ first.number + 1 + 0x1000
      omega
    · intro x hx
      exact h.queued x (by simp [hqueued, hx])

end Unwrapped

namespace JitterQueue

/-- The later of two numbers that are near each other. -/
def later (largest sequenceNumber : UInt16) : UInt16 :=
  if (congruentDifferenceMod2ToThe16 largest sequenceNumber).toInt > 0 then sequenceNumber
  else largest

theorem later_lowBits {a b : ℤ} (hlow : -32768 ≤ b - a) (hhigh : b - a ≤ 32767) :
    later (lowBits a) (lowBits b) = lowBits (max a b) := by
  unfold later
  rw [congruentDifference_lowBits hlow hhigh]
  by_cases hlt : b - a > 0
  · rw [if_pos hlt, max_eq_right (by omega)]
  · rw [if_neg hlt, max_eq_left (by omega)]

theorem fixes_notify (notification : JitterNotification) :
    Method.Fixes largestLatestEnqueued (notify notification) := .modify fun _ => rfl

theorem fixes_onPriorityQueue {β : Type}
    (message : Method Exception (PriorityQueue EncodedAudioPacket) β) :
    Method.Fixes largestLatestEnqueued (onPriorityQueue message) := by
  refine .bind .get fun s => ?_
  cases s.resultPriorityQueue with
  | none => exact .pure _
  | some q => exact .bind (.modify fun _ => rfl) fun _ => .bind (.lift _) fun _ => .pure _

theorem fixes_discardExcess : Method.Fixes largestLatestEnqueued discardExcess := by
  refine .bind .get fun s => .ite (.pure _) ?_
  refine .bind (fixes_onPriorityQueue _) fun _ => .bind (.modify fun _ => rfl) fun _ => ?_
  refine .bind .get fun _ => .bind (fixes_onPriorityQueue _) fun _ => ?_
  exact .bind (.modify fun _ => rfl) fun _ => fixes_notify _

theorem fixes_tryDequeue : Method.Fixes largestLatestEnqueued tryDequeue := by
  have hsync : Method.Fixes largestLatestEnqueued checkReactIfOutOfSyncForDequeue :=
    .bind .get fun _ => .ite (.bind (fixes_notify _) fun _ => .pure _) (.pure _)
  have hempty : Method.Fixes largestLatestEnqueued checkReactIfEmptyForDequeue :=
    .bind .get fun _ => .ite (.bind (.modify fun _ => rfl) fun _ =>
      .bind (fixes_notify _) fun _ => .pure _) (.pure _)
  have hnoData : Method.Fixes largestLatestEnqueued checkReactIfNoDataUnderReadHeadForDequeue :=
    .bind (fixes_onPriorityQueue _) fun _ => .bind .get fun _ =>
      .ite (.bind (.modify fun _ => rfl) fun _ => .bind (fixes_notify _) fun _ => .pure _) (.pure _)
  refine .bind hsync fun _ => .ite (.pure _) (.bind hempty fun _ => .ite (.pure _) ?_)
  refine .bind hnoData fun _ => .ite (.pure _) (.bind (fixes_onPriorityQueue _) fun _ => ?_)
  exact .bind (.modify fun _ => rfl) fun _ => .bind .get fun _ => .bind (fixes_notify _) fun _ =>
    .pure _

variable {s : JitterQueue}

/-- What a packet is compared with, if it fits. -/
theorem tryFitIntoSequence_largestLatestEnqueued (s : JitterQueue) (sequenceNumber : UInt16) :
    (tryFitIntoSequence sequenceNumber).Ensures s (fun fits t => t.largestLatestEnqueued =
      if fits ∧ s.Desynced then sequenceNumber else s.largestLatestEnqueued) fun _ _ => True := by
  by_cases hsync : s.readHeadSpan ≤ readHeadBadSpanThreshold
  · have hnot : ¬ s.Desynced := UInt16.not_lt.mpr hsync
    simp only [hnot, and_false, if_false]
    refine .get_bind ?_
    rw [Method.ensures_bind]
    refine .of_run_eq (run_tryForceSyncIfNecessary_of_le hsync sequenceNumber) ?_
    simp only [Bool.false_eq_true, if_false]
    refine .get_bind ?_
    cases s.badArrivalType _ sequenceNumber with
    | none => exact rfl
    | some badArrivalType => exact rfl
  · have hdesynced : s.Desynced := UInt16.not_le.mp hsync
    simp only [hdesynced, and_true]
    refine .get_bind ?_
    rw [Method.ensures_bind, tryForceSyncIfNecessary]
    refine .get_bind ?_
    rw [if_neg hsync]
    by_cases hsome : s.resultPriorityQueue.isSome
    · rw [if_pos hsome]
      exact rfl
    · rw [if_neg hsome]
      exact rfl

theorem tryEnqueue_largestLatestEnqueued (s : JitterQueue) (packet : EncodedAudioPacket) :
    (tryEnqueue packet).Ensures s (fun accepted t => t.largestLatestEnqueued =
      if accepted then
        later (if s.Desynced then packet.sequenceNumber else s.largestLatestEnqueued)
          packet.sequenceNumber
      else s.largestLatestEnqueued) fun _ _ => True := by
  rw [tryEnqueue, Method.ensures_bind]
  refine (tryFitIntoSequence_largestLatestEnqueued s packet.sequenceNumber).mono ?_
    fun _ _ _ => trivial
  intro fits t ht
  cases fits with
  | false => simpa using ht
  | true =>
    simp only [true_and] at ht
    rw [← ht]
    refine .modify_bind ?_
    rw [Method.ensures_bind]
    refine (fixes_onPriorityQueue _ _).mono ?_ fun _ _ _ => trivial
    intro _ u hu
    have hu : u.largestLatestEnqueued = t.largestLatestEnqueued := hu
    refine .modify_bind ?_
    rw [Method.ensures_bind]
    refine (fixes_notify _ _).mono ?_ fun _ _ _ => trivial
    intro _ v hv
    rw [Method.ensures_bind]
    refine (fixes_discardExcess _).mono ?_ fun _ _ _ => trivial
    intro _ w hw
    have hw : w.largestLatestEnqueued = later u.largestLatestEnqueued packet.sequenceNumber := by
      rw [hw, hv, later]
      split
      · rfl
      · rfl
    rw [← hu]
    exact hw

/-- Along the run, the queue shows the bits of the buffer of whole numbers and of the largest of the
numbers that this has accepted. -/
structure Unwraps (s : JitterQueue) (u : Unwrapped) : Prop where
  wellFormed : ReorderBuffer.WellFormed (unboundedSequencing NSData) u.buffer
  represents : s.Represents (u.buffer.map (present id) lowBits)
  largest : u.buffer.span ≤ 256 →
    ∃ largest, u.HasLargest largest ∧ s.largestLatestEnqueued = lowBits largest

variable {u : Unwrapped}

theorem Unwraps.desynced_iff (h : s.Unwraps u) : s.Desynced ↔ 256 < u.buffer.span :=
  h.represents.desynced_iff

theorem unwraps_jitterQueue (receiver : Option JitterWatcher) :
    (jitterQueue receiver).Unwraps ⟨unsynchronized NSData, []⟩ where
  wellFormed := unsynchronized_wellFormed
  represents := jitterQueue_represents receiver
  largest h := absurd h (by decide)

theorem Unwraps.run_tryEnqueue (h : s.Unwraps u) (packet : EncodedAudioPacket) :
    ∃ t, (JitterMessage.tryEnqueue packet).send.run.run s =
        (.ok (u.step (.tryEnqueue packet)).1, t) ∧ t.Unwraps (u.step (.tryEnqueue packet)).2 := by
  have hwellFormed := h.wellFormed.arrive unboundedSequencing_lawful (u.arrivalOf packet)
  obtain ⟨t, hrun, ht⟩ := h.represents.run_tryEnqueue packet
  have hmap := ReorderBuffer.arrive_map unboundedSequencing_lawful (images_present id)
    h.wellFormed (nearAsSeen_arrivalOf u packet)
  rw [present_arrivalOf] at hmap
  rw [hmap, ReorderBuffer.accepted_map, List.isEmpty_map] at hrun
  rw [hmap] at ht
  have hlargest := (tryEnqueue_largestLatestEnqueued s packet).of_run_ok (congrArg Prod.fst hrun)
  rw [hrun] at hlargest
  refine ⟨t, ?_, hwellFormed, ht, fun _ => ?_⟩
  · rw [JitterMessage.send, Method.run_bind, hrun]
    rfl
  · have hnumber : lowBits (u.arrivalOf packet).number = packet.sequenceNumber :=
      lowBits_add_difference u.buffer.head packet.sequenceNumber
    by_cases hspan : u.buffer.span ≤ (unboundedSequencing NSData).spanLimit
    · have hsynced : ¬ s.Desynced := fun hdesynced =>
        Nat.not_lt_of_le hspan (h.desynced_iff.mp hdesynced)
      obtain ⟨largest, hhas, hlow⟩ := h.largest hspan
      have harrive := hhas.arrive packet h.wellFormed hspan
      have hhead := hhas.head_le
      have hle := hhas.le_head
      rw [if_neg hsynced, hlow, ← hnumber] at hlargest
      have hresult : (u.step (.tryEnqueue packet)).1 = .enqueued (!(ReorderBuffer.accepted
          (ReorderBuffer.arrive (unboundedSequencing NSData) u.buffer
            (u.arrivalOf packet)).1).isEmpty) := rfl
      rw [hresult] at harrive
      generalize (!(ReorderBuffer.accepted (ReorderBuffer.arrive (unboundedSequencing NSData)
        u.buffer (u.arrivalOf packet)).1).isEmpty) = accepted at hlargest harrive
      cases accepted with
      | false =>
        rw [if_neg (by simp)] at harrive
        exact ⟨largest, (congrArg (Unwrapped.HasLargest · largest) harrive).mpr hhas, hlargest⟩
      | true =>
        obtain ⟨hnext, hahead, hnear⟩ := harrive
        refine ⟨_, hnext, hlargest.trans (later_lowBits ?_ ?_)⟩
        · omega
        · omega
    · have hdesynced : s.Desynced := h.desynced_iff.mpr (Nat.lt_of_not_le hspan)
      have harrive : ReorderBuffer.arrive (unboundedSequencing NSData) u.buffer
          (u.arrivalOf packet) = ([.synchronized u.buffer.queued,
            .accepted (u.arrivalOf packet)], ⟨(u.arrivalOf packet).number, 1,
              [u.arrivalOf packet]⟩) := if_pos (Nat.lt_of_not_le hspan)
      rw [harrive, if_pos hdesynced, ← hnumber] at hlargest
      refine ⟨_, Unwrapped.hasLargest_synchronize u packet (Nat.lt_of_not_le hspan), ?_⟩
      have hself := later_lowBits (a := (u.arrivalOf packet).number)
        (b := (u.arrivalOf packet).number) (by omega) (by omega)
      rw [max_self] at hself
      exact hlargest.trans hself

theorem Unwraps.run_tryDequeue (h : s.Unwraps u) :
    ∃ t, JitterMessage.tryDequeue.send.run.run s = (.ok (u.step .tryDequeue).1, t) ∧
      t.Unwraps (u.step .tryDequeue).2 := by
  have hwellFormed := h.wellFormed.request unboundedSequencing_lawful
  obtain ⟨t, hrun, ht⟩ := h.represents.run_tryDequeue
  have hmap := ReorderBuffer.request_map (images_present id) h.wellFormed
  rw [hmap, ReorderBuffer.dequeued_map, List.head?_map] at hrun
  rw [hmap] at ht
  have hfixed := (fixes_tryDequeue s).run
  rw [hrun] at hfixed
  refine ⟨t, ?_, hwellFormed, ht, ?_⟩
  · rw [JitterMessage.send, Method.run_bind, hrun]
    rfl
  · intro hspan
    -- a request never synchronizes the buffer
    have hspan' : u.buffer.span ≤ 256 := by
      have hgrows : u.buffer.span ≤ 256 ∨
          (ReorderBuffer.request (unboundedSequencing NSData) u.buffer).2 = u.buffer := by
        rcases ReorderBuffer.request_cases (unboundedSequencing NSData) u.buffer with
          ⟨-, hrequest⟩ | ⟨hlimit, -⟩ | ⟨hlimit, -⟩
        · exact .inr (congrArg Prod.snd hrequest)
        · exact .inl hlimit
        · exact .inl hlimit
      rcases hgrows with hle | heq
      · exact hle
      · exact heq ▸ hspan
    obtain ⟨largest, hhas, hlow⟩ := h.largest hspan'
    exact ⟨largest, hhas.request h.wellFormed, hfixed.trans hlow⟩

theorem Unwraps.send (h : s.Unwraps u) (message : JitterMessage) :
    ∃ t, message.send.run.run s = (.ok (u.step message).1, t) ∧ t.Unwraps (u.step message).2 := by
  cases message with
  | registerWatcher watcher =>
    exact ⟨_, rfl, h.wellFormed,
      h.represents.update (s.watchers ++ watcher.toList) s.largestLatestEnqueued, h.largest⟩
  | tryEnqueue packet => exact h.run_tryEnqueue packet
  | tryDequeue => exact h.run_tryDequeue

theorem Unwraps.runAll (h : s.Unwraps u) (messages : List JitterMessage) :
    (Method.runAll (messages.map JitterMessage.send) s).1 = (u.run messages).1.map .ok ∧
      (Method.runAll (messages.map JitterMessage.send) s).2.Unwraps (u.run messages).2 := by
  induction messages generalizing s u with
  | nil => exact ⟨rfl, h⟩
  | cons message messages ih =>
    obtain ⟨t, hrun, ht⟩ := h.send message
    obtain ⟨hresults, hleft⟩ := ih ht
    rw [List.map_cons, Method.runAll_cons, hrun]
    exact ⟨congrArg _ hresults, hleft⟩

/-- The end of the read head, where it is not desynced, and the largest number are less than 2^15
apart. -/
theorem Unwraps.currentBufferDepth (h : s.Unwraps u) {largest : ℤ} (hhas : u.HasLargest largest)
    (hlow : s.largestLatestEnqueued = lowBits largest) (hsynced : ¬ s.Desynced) :
    s.currentBufferDepth.toInt = largest - (u.buffer.head + u.buffer.span - 1) := by
  have hspan : u.buffer.span ≤ 256 := Nat.le_of_not_lt fun hlt => hsynced (h.desynced_iff.mpr hlt)
  have hhead := hhas.head_le
  have hle := hhas.le_head
  have hend : s.readHeadMin + s.readHeadSpan - 1 =
      lowBits (u.buffer.head + u.buffer.span - 1) := by
    have hmin : s.readHeadMin = lowBits u.buffer.head := h.represents.readHeadMin
    have hspan' : s.readHeadSpan.toNat = u.buffer.span := h.represents.readHeadSpan
    have hlowHead := toNat_lowBits u.buffer.head
    have hlowEnd := toNat_lowBits (u.buffer.head + u.buffer.span - 1)
    have hsum := UInt16.toNat_add s.readHeadMin s.readHeadSpan
    have hsub := UInt16.toNat_sub (s.readHeadMin + s.readHeadSpan) 1
    have hone : (1 : UInt16).toNat = 1 := rfl
    apply UInt16.toNat_inj.mp
    rw [hmin] at hsum hsub ⊢
    omega
  have hnear : ¬ s.readHeadSpan > readHeadBadSpanThreshold := hsynced
  rw [JitterQueue.currentBufferDepth, if_neg hnear, hend, hlow]
  apply congruentDifference_lowBits
  · omega
  · omega

/-- Along every run the queue returns what the buffer of whole numbers does, its read head shows
the bits of that buffer's, and while it is synced the depth is the difference of whole numbers. -/
theorem currentBufferDepth_run (receiver : Option JitterWatcher) (messages : List JitterMessage) :
    let code := Method.runAll (messages.map JitterMessage.send) (jitterQueue receiver)
    let whole := Unwrapped.run ⟨unsynchronized NSData, []⟩ messages
    code.1 = whole.1.map .ok ∧
    code.2.readHeadMin = lowBits whole.2.buffer.head ∧
    code.2.readHeadSpan.toNat = whole.2.buffer.span ∧
    (¬ code.2.Desynced → ∃ largest, IsGreatest {n | n ∈ whole.2.acceptedNumbers} largest ∧
      code.2.currentBufferDepth.toInt =
        largest - (whole.2.buffer.head + whole.2.buffer.span - 1)) := by
  intro code whole
  obtain ⟨hresults, hleft⟩ := (unwraps_jitterQueue receiver).runAll messages
  refine ⟨hresults, hleft.represents.readHeadMin, hleft.represents.readHeadSpan, ?_⟩
  intro hsynced
  have hspan : whole.2.buffer.span ≤ 256 :=
    Nat.le_of_not_lt fun hlt => hsynced (hleft.desynced_iff.mpr hlt)
  obtain ⟨largest, hhas, hlow⟩ := hleft.largest hspan
  exact ⟨largest, hhas.isGreatest, hleft.currentBufferDepth hhas hlow hsynced⟩

/-- Two packets on both sides of a wrap-around, and a third one that is still missing. -/
def wrappingMessages : List JitterMessage :=
  [.tryEnqueue ⟨[1], 65535⟩, .tryEnqueue ⟨[3], 1⟩, .tryDequeue]

theorem currentBufferDepth_run_wrappingMessages :
    ∃ largest : ℤ, IsGreatest {n | n ∈ [1, -1]} largest ∧
      (Method.runAll (wrappingMessages.map JitterMessage.send)
        (jitterQueue none)).2.currentBufferDepth.toInt = largest - (0 + (1 : ℕ) - 1) :=
  (currentBufferDepth_run none wrappingMessages).2.2.2 (by decide +kernel)

end JitterQueue
end SignalIOS.Audio
