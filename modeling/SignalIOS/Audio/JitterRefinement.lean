import SignalIOS.Audio.JitterInvariant
import SignalIOS.Lib.ReorderNumbers

/-! A jitter queue sees sixteen bits of the numbers of packets. As long as packets are near the
read head when they seem to be, it does what a queue does that sees the whole numbers. -/
namespace SignalIOS.Audio
open SignalIOS.Lib SignalIOS.NumberUtil

/-- A packet with the number it would have if numbers did not wrap around. -/
structure Arrival (δ : Type) where
  number : ℤ
  object : δ
  deriving DecidableEq, Repr

/-- What the packet shows of its number. -/
def lowBits (number : ℤ) : UInt16 := UInt16.ofNat (number % 65536).toNat

theorem toNat_lowBits (number : ℤ) : ((lowBits number).toNat : ℤ) = number % 65536 := by
  have hvalue : (lowBits number).toNat = (number % 65536).toNat % 65536 := rfl
  omega

section
variable {δ : Type}

def present (audioData : δ → NSData) (arrival : Arrival δ) : EncodedAudioPacket :=
  ⟨audioData arrival.object, lowBits arrival.number⟩

/-- The limits of the jitter queue, and the whole numbers. -/
def unboundedSequencing (δ : Type) : Sequencing (Arrival δ) ℤ :=
  .integers Arrival.number readHeadMaxQueueAhead readHeadBadSpanThreshold.toNat
    maximumJitterQueueSizeBeforeDiscarding

/-- The buffer before the first packet. -/
def unsynchronized (δ : Type) : ReorderBuffer (Arrival δ) ℤ := ⟨0, 257, []⟩

theorem unboundedSequencing_lawful : (unboundedSequencing δ).Lawful :=
  Sequencing.integers_lawful _ (by decide) (by decide) (by decide)

theorem unsynchronized_wellFormed :
    ReorderBuffer.WellFormed (unboundedSequencing δ) (unsynchronized δ) :=
  ⟨.nil, by simp [unsynchronized], Nat.zero_le _, Nat.le_add_left 1 256, Nat.le_refl 257⟩

theorem images_present (audioData : δ → NSData) :
    ReorderBuffer.Images (unboundedSequencing δ) cyclicSequencing (present audioData) lowBits where
  number _ := rfl
  next a := by
    have hnext : (lowBits a + 1).toNat = ((lowBits a).toNat + 1) % 65536 := UInt16.toNat_add _ 1
    have hlow := toNat_lowBits a
    have hlow' := toNat_lowBits (a + 1)
    apply UInt16.toNat_inj.mp
    show (lowBits a + 1).toNat = (lowBits (a + 1)).toNat
    omega
  distance a b hlow hhigh := by
    obtain ⟨hmin, hmax, hemod⟩ := toInt_congruentDifferenceMod2ToThe16 (lowBits a) (lowBits b)
    have ha := toNat_lowBits a
    have hb := toNat_lowBits b
    have hlow : 0 ≤ b - a := hlow
    have hhigh : b - a ≤ 0x1000 := hhigh
    show (congruentDifferenceMod2ToThe16 (lowBits a) (lowBits b)).toInt = b - a
    omega
  ahead := rfl
  spanLimit := rfl
  capacity := rfl

end

namespace JitterQueue

variable {s : JitterQueue} {b : ReorderBuffer EncodedAudioPacket UInt16}

/-- Along a run, the messages return what the events of the buffer say. -/
theorem Represents.runAll_messageOf (h : s.Represents b)
    (inputs : List (ReorderBuffer.Input EncodedAudioPacket)) :
    ∃ t, Method.runAll (inputs.map fun input => (messageOf input).send) s =
        ((inputs.zip (ReorderBuffer.run cyclicSequencing b inputs).1).map
          fun r => .ok (resultOf r.1 r.2), t) ∧
      t.Represents (ReorderBuffer.run cyclicSequencing b inputs).2 := by
  induction inputs generalizing s b with
  | nil => exact ⟨s, rfl, h⟩
  | cons input inputs ih =>
    obtain ⟨t, hrun, ht⟩ := h.run_messageOf input
    obtain ⟨u, hrest, hu⟩ := ih ht
    refine ⟨u, ?_, hu⟩
    rw [List.map_cons, Method.runAll_cons, hrun, hrest]
    rfl

/-- The jitter queue returns what the buffer of whole numbers returns, and holds the same packets.
That buffer dequeues packets in their order between two synchronizations, and every packet that it
accepts it dequeues, discards, drops or still holds. -/
theorem refines_unbounded {δ : Type} (audioData : δ → NSData) (receiver : Option JitterWatcher)
    (inputs : List (ReorderBuffer.Input (Arrival δ)))
    (hnear : ReorderBuffer.NearAsSeenAlong (unboundedSequencing δ) cyclicSequencing lowBits
      (unsynchronized δ) inputs) :
    let code := Method.runAll (inputs.map fun input =>
      (messageOf (input.map (present audioData))).send) (jitterQueue receiver)
    let buffer := ReorderBuffer.run (unboundedSequencing δ) (unsynchronized δ) inputs
    let events := buffer.1.flatten
    code.1 = (inputs.zip buffer.1).map (fun r => .ok (resultOf (r.1.map (present audioData))
      (r.2.map (ReorderBuffer.Event.map (present audioData))))) ∧
    code.2.queuedPackets.Perm (buffer.2.queued.map (present audioData)) ∧
    (∀ front between rest x y,
      events = front ++ .dequeued x :: between ++ .dequeued y :: rest →
      (∀ entries, .synchronized entries ∉ between) → x.number < y.number) ∧
    (ReorderBuffer.accepted events).Perm
      (ReorderBuffer.dequeued events ++ ReorderBuffer.discarded events ++
        ReorderBuffer.dropped events ++ buffer.2.queued) ∧
    ((ReorderBuffer.arrivals inputs).Nodup → (ReorderBuffer.accepted events).Nodup) := by
  intro code buffer events
  have hmap := ReorderBuffer.run_map unboundedSequencing_lawful (images_present audioData)
    unsynchronized_wellFormed hnear
  obtain ⟨t, hrun, ht⟩ := (jitterQueue_represents receiver).runAll_messageOf
    (inputs.map (ReorderBuffer.Input.map (present audioData)))
  have hstart : (⟨0, 257, []⟩ : ReorderBuffer EncodedAudioPacket UInt16) =
      (unsynchronized δ).map (present audioData) lowBits := rfl
  rw [hstart, hmap] at hrun ht
  have hcode : code = _ := (congrArg (Method.runAll · _) (List.map_map.symm)).trans hrun
  refine ⟨?_, ?_, ?_, ?_, ?_⟩
  · rw [hcode, List.zip_map, List.map_map]
    rfl
  · rw [hcode]
    exact ht.perm_queuedPackets
  · intro front between rest x y hevents hbetween
    have hascending : ReorderBuffer.AscendingFrom Arrival.number
        (some (unsynchronized δ).head) events :=
      ReorderBuffer.run_ascending unboundedSequencing_lawful unsynchronized_wellFormed inputs
    rw [hevents] at hascending
    exact hascending.lt hbetween
  · have hperm : (ReorderBuffer.accepted events ++ []).Perm
        (ReorderBuffer.dequeued events ++ ReorderBuffer.discarded events ++
          ReorderBuffer.dropped events ++ buffer.2.queued) :=
      ReorderBuffer.run_perm (unboundedSequencing δ) (unsynchronized δ) inputs
    rw [List.append_nil] at hperm
    exact hperm
  · intro hnodup
    exact (ReorderBuffer.accepted_run_sublist (unboundedSequencing δ) (unsynchronized δ)
      inputs).nodup hnodup

/-- Packets on both sides of a wrap-around arrive in the wrong order, one of them twice. -/
def wrappingInputs : List (ReorderBuffer.Input (Arrival NSData)) :=
  [.arrival ⟨65534, [1]⟩, .arrival ⟨65537, [4]⟩, .arrival ⟨65536, [3]⟩, .request,
    .arrival ⟨65536, [3]⟩, .arrival ⟨65535, [2]⟩, .request, .request, .request, .request]

theorem refines_unbounded_wrappingInputs :
    (Method.runAll (wrappingInputs.map fun input => (messageOf (input.map (present id))).send)
      (jitterQueue none)).1 =
      [.ok (.enqueued true), .ok (.enqueued true), .ok (.enqueued true),
        .ok (.dequeued (some ⟨[1], 65534⟩)), .ok (.enqueued false), .ok (.enqueued true),
        .ok (.dequeued (some ⟨[2], 65535⟩)), .ok (.dequeued (some ⟨[3], 0⟩)),
        .ok (.dequeued (some ⟨[4], 1⟩)), .ok (.dequeued none)] :=
  (refines_unbounded id none wrappingInputs (by decide)).1.trans rfl

end JitterQueue
end SignalIOS.Audio
