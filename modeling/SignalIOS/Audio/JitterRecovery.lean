import SignalIOS.Audio.JitterInvariant

/-! A jitter queue that has nothing to return gives up after a while, and takes whatever packet
arrives next. -/
namespace SignalIOS.Audio
open SignalIOS.Lib SignalIOS.NumberUtil

namespace JitterQueue

/-- The read head has grown too far, or there has been no packet yet. -/
def Desynced (s : JitterQueue) : Prop := s.readHeadSpan > readHeadBadSpanThreshold

instance (s : JitterQueue) : Decidable s.Desynced :=
  inferInstanceAs (Decidable (s.readHeadSpan > readHeadBadSpanThreshold))

variable {s : JitterQueue} {b : ReorderBuffer EncodedAudioPacket UInt16}

theorem Represents.desynced_iff (h : s.Represents b) :
    s.Desynced ↔ cyclicSequencing.spanLimit < b.span := by
  have hle := h.le_iff
  have hgt : s.Desynced ↔ ¬ s.readHeadSpan ≤ readHeadBadSpanThreshold := UInt16.not_le.symm
  rw [hgt, hle, Nat.not_le]

/-- A call of `tryDequeue` returns a packet, or the head grows up to its limit. -/
theorem Represents.tryDequeue_cases (h : s.Represents b) :
    ∃ t b', t.Represents b' ∧
      ((∃ packet, tryDequeue.run.run s = (.ok (some packet), t)) ∨
        (tryDequeue.run.run s = (.ok none, t) ∧ min (b.span + 1) 257 ≤ b'.span)) := by
  obtain ⟨t, hrun, ht⟩ := h.run_tryDequeue
  have hlimit : cyclicSequencing.spanLimit = 256 := rfl
  refine ⟨t, _, ht, ?_⟩
  rcases ReorderBuffer.request_cases cyclicSequencing b with ⟨hspan, hrequest⟩ |
    ⟨-, -, hrequest⟩ | ⟨-, first, rest, -, -, hrequest⟩
  · right
    rw [hrequest] at hrun ⊢
    have hstays : min (b.span + 1) 257 ≤ b.span := by omega
    exact ⟨hrun, hstays⟩
  · right
    rw [hrequest] at hrun ⊢
    exact ⟨hrun, Nat.min_le_left _ _⟩
  · left
    rw [hrequest] at hrun
    exact ⟨first, hrun⟩

/-- The induction is on the number of calls. The span counts those that have failed. -/
theorem Represents.runAll_tryDequeue (h : s.Represents b) (n : ℕ) :
    (∃ packet, .ok (some packet) ∈ (Method.runAll (List.replicate n tryDequeue) s).1) ∨
      ∃ b', (Method.runAll (List.replicate n tryDequeue) s).2.Represents b' ∧
        min (b.span + n) 257 ≤ b'.span := by
  induction n generalizing s b with
  | zero => exact .inr ⟨b, h, Nat.min_le_left _ _⟩
  | succ n ih =>
    obtain ⟨t, b', ht, ⟨packet, hrun⟩ | ⟨hrun, hspan⟩⟩ := h.tryDequeue_cases
    · left
      refine ⟨packet, ?_⟩
      rw [List.replicate_succ, Method.runAll_cons, hrun]
      exact List.mem_cons_self ..
    · rw [List.replicate_succ, Method.runAll_cons, hrun]
      rcases ih ht with ⟨packet, hpacket⟩ | ⟨b'', hb'', hspan'⟩
      · exact .inl ⟨packet, List.mem_cons_of_mem _ hpacket⟩
      · right
        have hgrown : min (b.span + (n + 1)) 257 ≤ b''.span := by omega
        exact ⟨b'', hb'', hgrown⟩

/-- A queue that is desynced starts again at the packet that arrives. -/
theorem Represents.accepts_of_desynced (h : s.Represents b) (hdesynced : s.Desynced)
    (packet : EncodedAudioPacket) :
    ∃ t u, (tryEnqueue packet).run.run s = (.ok true, t) ∧
      tryDequeue.run.run t = (.ok (some packet), u) := by
  obtain ⟨t, harrival, ht⟩ := h.run_tryEnqueue packet
  have harrive : ReorderBuffer.arrive cyclicSequencing b packet =
      ([.synchronized b.queued, .accepted packet], ⟨packet.sequenceNumber, 1, [packet]⟩) :=
    if_pos (h.desynced_iff.mp hdesynced)
  rw [harrive] at harrival ht
  obtain ⟨u, hrequest, -⟩ := ht.run_tryDequeue
  have hself : cyclicSequencing.distance packet.sequenceNumber packet.sequenceNumber = 0 :=
    cyclicSequencing_lawful.distance_self packet.sequenceNumber
  have hdequeued : ReorderBuffer.request cyclicSequencing ⟨packet.sequenceNumber, 1, [packet]⟩ =
      ([.dequeued packet], ⟨packet.sequenceNumber + 1, 1, []⟩) := by
    unfold ReorderBuffer.request
    rw [if_neg (show ¬ 1 > cyclicSequencing.spanLimit by decide)]
    have hnear : cyclicSequencing.distance packet.sequenceNumber
        (cyclicSequencing.number packet) < (1 : ℕ) := by
      rw [show cyclicSequencing.number packet = packet.sequenceNumber from rfl, hself]
      decide
    exact if_pos hnear
  rw [hdequeued] at hrequest
  exact ⟨t, u, harrival, hrequest⟩

/-- However the queue has come to be as it is, 257 calls in a row return a packet or leave it
desynced. Then whatever packet arrives is accepted, and is what the next call returns. -/
theorem recovers (receiver : Option JitterWatcher) (messages : List JitterMessage) :
    let s := (Method.runAll (messages.map JitterMessage.send) (jitterQueue receiver)).2
    let calls := Method.runAll (List.replicate 257 tryDequeue) s
    ((∃ packet, .ok (some packet) ∈ calls.1) ∨ calls.2.Desynced) ∧
    (s.Desynced → ∀ packet, ∃ t u, (tryEnqueue packet).run.run s = (.ok true, t) ∧
      tryDequeue.run.run t = (.ok (some packet), u)) := by
  intro s calls
  obtain ⟨-, b, hs⟩ := (jitterQueue_represents receiver).runAll messages
  constructor
  · rcases hs.runAll_tryDequeue 257 with hpacket | ⟨b', hb', hspan⟩
    · exact .inl hpacket
    · right
      have hlimit : cyclicSequencing.spanLimit = 256 := rfl
      rw [hb'.desynced_iff]
      omega
  · exact hs.accepts_of_desynced

/-- Three packets are lost between two that have come. -/
def lossyMessages : List JitterMessage :=
  [.tryEnqueue ⟨[7], 9000⟩, .tryEnqueue ⟨[8], 9004⟩, .tryDequeue]

/-- Then all packets are lost. -/
def outageMessages : List JitterMessage :=
  lossyMessages ++ List.replicate 262 JitterMessage.tryDequeue

/-- The queue gives up in the outage, and a packet that is far away begins it again. -/
theorem recovers_outageMessages :
    let s := (Method.runAll (lossyMessages.map JitterMessage.send) (jitterQueue none)).2
    let calls := Method.runAll (List.replicate 257 tryDequeue) s
    let later := (Method.runAll (outageMessages.map JitterMessage.send) (jitterQueue none)).2
    ¬ s.Desynced ∧ ((∃ packet, .ok (some packet) ∈ calls.1) ∨ calls.2.Desynced) ∧
      later.Desynced ∧ ∃ t u, (tryEnqueue ⟨[9], 42000⟩).run.run later = (.ok true, t) ∧
        tryDequeue.run.run t = (.ok (some ⟨[9], 42000⟩), u) := by
  have hsynced : ¬ JitterQueue.Desynced
      (Method.runAll (lossyMessages.map JitterMessage.send) (jitterQueue none)).2 := by
    decide +kernel
  have hdesynced : JitterQueue.Desynced
      (Method.runAll (outageMessages.map JitterMessage.send) (jitterQueue none)).2 := by
    decide +kernel
  exact ⟨hsynced, (recovers none lossyMessages).1, hdesynced,
    (recovers none outageMessages).2 hdesynced ⟨[9], 42000⟩⟩

end JitterQueue
end SignalIOS.Audio
