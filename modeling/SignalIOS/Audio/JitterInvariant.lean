import SignalIOS.Audio.JitterOrder

/-! What holds of a jitter queue after every operation. No operation raises. -/
namespace SignalIOS.Audio
open SignalIOS.Lib SignalIOS.NumberUtil

namespace JitterQueue

/-- Ids and packets agree, and the packets are near the read head and can be compared. -/
structure RepresentationInvariant (s : JitterQueue) : Prop where
  ids : s.idsInJitterQueue.getD ∅ = (s.queuedPackets.map (·.sequenceNumber)).toFinset
  nodup : (s.queuedPackets.map (·.sequenceNumber)).Nodup
  card_ids : (s.idsInJitterQueue.getD ∅).card = s.count
  count : s.count ≤ maximumJitterQueueSizeBeforeDiscarding
  readHeadSpan : 1 ≤ s.readHeadSpan.toNat ∧ s.readHeadSpan.toNat ≤ 257
  window : s.readHeadSpan ≤ readHeadBadSpanThreshold → ∀ packet ∈ s.queuedPackets,
    0 ≤ (congruentDifferenceMod2ToThe16 s.readHeadMin packet.sequenceNumber).toInt ∧
      (congruentDifferenceMod2ToThe16 s.readHeadMin packet.sequenceNumber).toInt ≤ 0x1000
  comparable : ∀ obj1 ∈ s.queuedPackets, ∀ obj2 ∈ s.queuedPackets,
    ∃ comparison, cyclingPacketComparator obj1 obj2 = .ok comparison

variable {s : JitterQueue} {b : ReorderBuffer EncodedAudioPacket UInt16}

theorem Represents.perm_queuedPackets (h : s.Represents b) : s.queuedPackets.Perm b.queued := by
  rcases h.contains with hcontains | ⟨-, -, hqueue, -, hqueued, -⟩
  · obtain ⟨items, hitems, hperm, -⟩ := hcontains.queue
    rw [queuedPackets, hitems]
    exact hperm
  · rw [queuedPackets, hqueue, hqueued]

theorem Represents.readHeadMin (h : s.Represents b) : s.readHeadMin = b.head := by
  rcases h.contains with hcontains | ⟨hhead, -⟩
  · exact hcontains.readHeadMin
  · exact hhead

theorem Represents.near (h : s.Represents b) : ∀ packet ∈ s.queuedPackets, Near b.head packet :=
  fun packet hpacket => h.wellFormed.within packet (h.perm_queuedPackets.mem_iff.mp hpacket)

theorem Represents.nodup (h : s.Represents b) :
    (s.queuedPackets.map (·.sequenceNumber)).Nodup := by
  have hsorted : (b.queued.map (·.sequenceNumber)).Nodup := by
    refine List.pairwise_map.mpr (h.wellFormed.sorted.imp ?_)
    intro x y hlt heq
    have heq' : cyclicSequencing.number x = cyclicSequencing.number y := heq
    rw [heq'] at hlt
    exact Int.lt_irrefl _ hlt
  exact (h.perm_queuedPackets.map _).nodup_iff.mpr hsorted

theorem Represents.ids (h : s.Represents b) :
    s.idsInJitterQueue.getD ∅ = (s.queuedPackets.map (·.sequenceNumber)).toFinset := by
  rw [List.toFinset_eq_of_perm _ _ (h.perm_queuedPackets.map _)]
  rcases h.contains with hcontains | ⟨-, -, -, hids, hqueued, -⟩
  · rw [hcontains.ids]
    rfl
  · rw [hids, hqueued]
    rfl

theorem count_eq (s : JitterQueue) : s.count = s.queuedPackets.length := by
  unfold JitterQueue.count queuedPackets
  cases s.resultPriorityQueue with
  | none => rfl
  | some q => rfl

theorem Represents.representationInvariant (h : s.Represents b) : s.RepresentationInvariant where
  ids := h.ids
  nodup := h.nodup
  card_ids := by
    rw [h.ids, List.toFinset_card_of_nodup h.nodup, List.length_map, s.count_eq]
  count := by
    rw [s.count_eq, h.perm_queuedPackets.length_eq]
    exact h.wellFormed.length
  readHeadSpan := by
    rw [h.readHeadSpan]
    exact h.wellFormed.span
  window := by
    intro _ packet hpacket
    rw [h.readHeadMin]
    exact h.near packet hpacket
  comparable := by
    intro obj1 hobj1 obj2 hobj2
    obtain ⟨comparison, hcomparison, -⟩ :=
      compares_cyclingPacketComparator b.head obj1 obj2 (h.near obj1 hobj1) (h.near obj2 hobj2)
    exact ⟨comparison, hcomparison⟩

theorem jitterQueue_represents (receiver : Option JitterWatcher) :
    (jitterQueue receiver).Represents ⟨0, 257, []⟩ :=
  ⟨⟨.nil, by simp, Nat.zero_le _, by decide, by decide⟩,
    .inr ⟨rfl, rfl, rfl, rfl, rfl, by decide⟩⟩

theorem Represents.send (h : s.Represents b) (message : JitterMessage) :
    ∃ result t b', message.send.run.run s = (.ok result, t) ∧ t.Represents b' := by
  cases message with
  | registerWatcher watcher =>
    exact ⟨.registered, _, b, rfl, h.update (s.watchers ++ watcher.toList) s.largestLatestEnqueued⟩
  | tryEnqueue audioPacket =>
    obtain ⟨t, hrun, ht⟩ := h.run_messageOf (.arrival audioPacket)
    exact ⟨_, t, _, hrun, ht⟩
  | tryDequeue =>
    obtain ⟨t, hrun, ht⟩ := h.run_messageOf .request
    exact ⟨_, t, _, hrun, ht⟩

theorem Represents.runAll (h : s.Represents b) (messages : List JitterMessage) :
    (∀ result ∈ (Method.runAll (messages.map JitterMessage.send) s).1,
      ∃ value, result = .ok value) ∧
      ∃ b', (Method.runAll (messages.map JitterMessage.send) s).2.Represents b' := by
  induction messages generalizing s b with
  | nil => exact ⟨by simp, b, h⟩
  | cons message messages ih =>
    obtain ⟨result, t, b', hrun, ht⟩ := h.send message
    obtain ⟨hresults, hrepresents⟩ := ih ht
    rw [List.map_cons, Method.runAll_cons, hrun]
    refine ⟨?_, hrepresents⟩
    intro result' hresult'
    rcases List.mem_cons.mp hresult' with rfl | hresult'
    · exact ⟨result, rfl⟩
    · exact hresults result' hresult'

/-- In every run no message raises, and the invariant holds at its end. -/
theorem representationInvariant_run (receiver : Option JitterWatcher)
    (messages : List JitterMessage) :
    let run := Method.runAll (messages.map JitterMessage.send) (jitterQueue receiver)
    (∀ result ∈ run.1, ∃ value, result = .ok value) ∧ run.2.RepresentationInvariant := by
  intro run
  obtain ⟨hresults, b, hrepresents⟩ := (jitterQueue_represents receiver).runAll messages
  exact ⟨hresults, hrepresents.representationInvariant⟩

end JitterQueue
end SignalIOS.Audio
