import Mathlib.Data.List.Induction
import SignalIOS.Audio.JitterInvariant
import SignalIOS.Lib.Runs

/-! The frames of a call on their way through packets: packed in pairs on one side, and unpacked on
the other as the jitter queue gives the packets out. -/
namespace SignalIOS.Audio
open SignalIOS.Lib

/-- The codec and the stretching of the audio work on the frames that are pulled. -/
structure AudioProcessor where
  jitterQueue : JitterQueue
  audioPacker : AudioPacker

namespace AudioProcessor

def audioProcessor (jitterQueueNotificationReceiver : Option JitterWatcher)
    (secureRandomUInt16 : UInt16) : AudioProcessor where
  jitterQueue := .jitterQueue jitterQueueNotificationReceiver
  audioPacker := .audioPacker secureRandomUInt16

def onJitterQueue {α : Type} : Method Exception JitterQueue α → Method Exception AudioProcessor α :=
  Method.onPart jitterQueue fun s jitterQueue => { s with jitterQueue }

def onAudioPacker {α : Type} : Method Exception AudioPacker α → Method Exception AudioProcessor α :=
  Method.onPart audioPacker fun s audioPacker => { s with audioPacker }

def receivedPacket (packet : EncodedAudioPacket) : Method Exception AudioProcessor Unit := do
  let _ ← onJitterQueue (JitterQueue.tryEnqueue packet)

def pullFrame : Method Exception AudioProcessor (Option EncodedAudioFrame) := do
  match ← onAudioPacker AudioPacker.tryGetReceivedFrame with
  | some frame => return some frame
  | none =>
    let potentiallyMissingPacket ← onJitterQueue JitterQueue.tryDequeue
    onAudioPacker (AudioPacker.unpackPotentiallyMissingAudioPacket potentiallyMissingPacket)
    onAudioPacker AudioPacker.tryGetReceivedFrame

/-- What `pullFrame` gets from the jitter queue, where it asks for something. -/
def dequeuedByPull (s : AudioProcessor) : Option (Option EncodedAudioPacket) :=
  if s.audioPacker.audioFrameToReceiveQueue = [] then
    (JitterQueue.tryDequeue.run.run s.jitterQueue).1.toOption
  else none

end AudioProcessor

/-- The receiving side of a call, with what has been dequeued and pulled. -/
structure Listening where
  processor : AudioProcessor
  dequeued : List (Option EncodedAudioPacket) := []
  pulled : List (Throws (Option EncodedAudioFrame)) := []

namespace Listening

inductive Event
  | receivedPacket (packet : EncodedAudioPacket)
  | pullFrame

def step (s : Listening) : Event → Option Listening
  | .receivedPacket packet =>
    some { s with processor := ((AudioProcessor.receivedPacket packet).run.run s.processor).2 }
  | .pullFrame =>
    let (result, processor) := AudioProcessor.pullFrame.run.run s.processor
    some
      { processor
        dequeued := s.dequeued ++ s.processor.dequeuedByPull.toList
        pulled := s.pulled ++ [result] }

def machine (jitterQueueNotificationReceiver : Option JitterWatcher) (secureRandomUInt16 : UInt16) :
    Machine Listening Event where
  init := { processor := .audioProcessor jitterQueueNotificationReceiver secureRandomUInt16 }
  step := step

/-- A packet stands for so many frames that are its payload together, and a missing one for as many
missing frames. -/
def Yields (packet : Option EncodedAudioPacket) (frames : List EncodedAudioFrame) : Prop :=
  frames.length = audioFramesPerPacket ∧
    match packet with
    | some packet => ∃ data : List NSData, frames = data.map (⟨some ·⟩) ∧
        data.flatten = packet.audioData
    | none => ∀ frame ∈ frames, frame.isMissingAudioData = true

/-- The frames that have been pulled, and those that are still to be. -/
def frames (s : Listening) : List EncodedAudioFrame :=
  s.pulled.filterMap (fun result => (result : Throws (Option EncodedAudioFrame)).toOption.join) ++
    s.processor.audioPacker.audioFrameToReceiveQueue

/-- Every frame that was pulled for is there, and the frames are those of the packets that were
dequeued, one packet after the other. -/
structure Unpacks (s : Listening) : Prop where
  returned : ∀ result ∈ s.pulled, ∃ frame, result = .ok (some frame)
  frames : ∃ groups, List.Forall₂ Yields s.dequeued groups ∧ s.frames = groups.flatten

/-- The packet that is pulled next can be divided. -/
def DequeuesDivisible (s : Listening) : Event → Prop
  | .receivedPacket _ => True
  | .pullFrame => ∀ dequeued ∈ s.processor.dequeuedByPull, ∀ packet ∈ dequeued,
      packet.audioData.length % audioFramesPerPacket = 0

instance (s : Listening) : ∀ e, Decidable (DequeuesDivisible s e)
  | .receivedPacket _ => .isTrue trivial
  | .pullFrame => inferInstanceAs (Decidable (∀ dequeued ∈ s.processor.dequeuedByPull,
      ∀ packet ∈ dequeued, packet.audioData.length % audioFramesPerPacket = 0))

end Listening

namespace AudioPacker

/-- What `encodeAudioPacketsFromBuffer` asks of the packer for the frames that it has encoded. -/
def encodingMessages (encodedFrames : List NSData) : List PackerMessage :=
  encodedFrames.flatMap fun data => [.packFrame ⟨some data⟩, .tryGetFinishedAudioPacket]

/-- The frames of packets, each of which is unpacked once the frames before are gone. -/
def unpackInOrder : List EncodedAudioPacket →
    Method Exception AudioPacker (List EncodedAudioFrame)
  | [] => return []
  | packet :: packets => do
    unpackPotentiallyMissingAudioPacket (some packet)
    let first ← tryGetReceivedFrame
    let second ← tryGetReceivedFrame
    let later ← unpackInOrder packets
    return first.toList ++ second.toList ++ later

/-- The frames that are in finished packets. The last one may wait for another. -/
def finishedFrames (encodedFrames : List NSData) : List NSData :=
  List.take (encodedFrames.length / audioFramesPerPacket * audioFramesPerPacket) encodedFrames

/-- The frames that come into one packet are equally long. -/
def PairedEquallyLong : List NSData → Prop
  | first :: second :: later => first.length = second.length ∧ PairedEquallyLong later
  | _ => True

variable {s : AudioPacker}

theorem run_tryGetReceivedFrame_nil (h : s.audioFrameToReceiveQueue = []) :
    tryGetReceivedFrame.run.run s = (.ok none, s) := by
  rw [tryGetReceivedFrame, Method.run_bind, Method.run_get]
  dsimp only
  rw [h]
  rfl

theorem run_tryGetReceivedFrame_cons {frame : EncodedAudioFrame} {frames : List EncodedAudioFrame}
    (h : s.audioFrameToReceiveQueue = frame :: frames) :
    tryGetReceivedFrame.run.run s =
      (.ok (some frame), { s with audioFrameToReceiveQueue := frames }) := by
  rw [tryGetReceivedFrame, Method.run_bind, Method.run_get]
  dsimp only
  rw [h]
  rfl

/-- Halves of a payload that can be halved. -/
theorem run_unpack_of_even {packet : EncodedAudioPacket}
    (h : packet.audioData.length % audioFramesPerPacket = 0) :
    (unpackPotentiallyMissingAudioPacket (some packet)).run.run s =
      (.ok (), { s with audioFrameToReceiveQueue := s.audioFrameToReceiveQueue ++
        [⟨some (List.take (packet.audioData.length / audioFramesPerPacket) packet.audioData)⟩,
          ⟨some (List.drop (packet.audioData.length / audioFramesPerPacket) packet.audioData)⟩] }) := by
  have hrange : List.range audioFramesPerPacket = [0, 1] := rfl
  have hfirst : packet.audioData.subdataWithRange
      (packet.audioData.length / audioFramesPerPacket * 0)
      (packet.audioData.length / audioFramesPerPacket) =
        .ok (List.take (packet.audioData.length / audioFramesPerPacket) packet.audioData) := by
    refine NSData.subdataWithRange_eq_ok.mpr ⟨?_, rfl⟩
    rw [Nat.mul_zero, Nat.zero_add]
    exact Nat.div_le_self _ _
  have hsecond : packet.audioData.subdataWithRange
      (packet.audioData.length / audioFramesPerPacket * 1)
      (packet.audioData.length / audioFramesPerPacket) =
        .ok (List.drop (packet.audioData.length / audioFramesPerPacket) packet.audioData) := by
    have htwice : packet.audioData.length / audioFramesPerPacket * 1 +
        packet.audioData.length / audioFramesPerPacket = packet.audioData.length := by
      rw [audioFramesPerPacket] at h ⊢
      omega
    refine NSData.subdataWithRange_eq_ok.mpr ⟨Nat.le_of_eq htwice, ?_⟩
    rw [Nat.mul_one, List.take_of_length_le]
    rw [List.length_drop]
    omega
  rw [unpackPotentiallyMissingAudioPacket, enqueueFramesForPacket, hrange]
  simp only [requireState, if_pos h, List.forIn_cons, List.forIn_nil, hfirst, hsecond,
    enqueueFrame]
  simp only [Method.run_bind, Method.run_lift, Method.run_modify, Method.run_pure]
  simp

theorem run_unpack_of_odd {packet : EncodedAudioPacket}
    (h : ¬ packet.audioData.length % audioFramesPerPacket = 0) :
    (unpackPotentiallyMissingAudioPacket (some packet)).run.run s = (.error .badState, s) := by
  rw [unpackPotentiallyMissingAudioPacket, enqueueFramesForPacket]
  simp only [requireState, if_neg h, Method.run_bind, Method.run_lift]

theorem run_unpack_missing :
    (unpackPotentiallyMissingAudioPacket none).run.run s =
      (.ok (), { s with audioFrameToReceiveQueue :=
        s.audioFrameToReceiveQueue ++ [⟨none⟩, ⟨none⟩] }) := by
  have hrange : List.range audioFramesPerPacket = [0, 1] := rfl
  rw [unpackPotentiallyMissingAudioPacket, enqueueFramesForMissingPacket, hrange]
  simp only [List.forIn_cons, List.forIn_nil, enqueueFrame]
  simp only [Method.run_bind, Method.run_modify, Method.run_pure]
  simp

theorem run_send_packFrame (data : NSData) :
    (PackerMessage.packFrame ⟨some data⟩).send.run.run s =
      (.ok none, { s with framesToSend := s.framesToSend ++ [data] }) := rfl

theorem run_send_tryGetFinishedAudioPacket :
    PackerMessage.tryGetFinishedAudioPacket.send.run.run s =
      if s.framesToSend.length < audioFramesPerPacket then (.ok none, s)
      else (.ok (some ⟨s.framesToSend.flatten, s.nextSequenceNumber⟩),
        { s with nextSequenceNumber := s.nextSequenceNumber + 1, framesToSend := [] }) := by
  rw [PackerMessage.send, tryGetFinishedAudioPacket, Method.run_bind, Method.run_get]
  dsimp only
  split
  · rfl
  · rfl

/-- A frame waits for the next one, and both are sent together. -/
theorem finishedPackets_pair (first second : NSData) (later : List NSData)
    (h : s.framesToSend = []) :
    finishedPackets (encodingMessages (first :: second :: later)) s =
      ⟨first ++ second, s.nextSequenceNumber⟩ :: finishedPackets (encodingMessages later)
        { s with nextSequenceNumber := s.nextSequenceNumber + 1 } := by
  have hmessages : encodingMessages (first :: second :: later) =
      [.packFrame ⟨some first⟩, .tryGetFinishedAudioPacket, .packFrame ⟨some second⟩,
        .tryGetFinishedAudioPacket] ++ encodingMessages later := rfl
  rw [hmessages, finishedPackets, finishedPackets]
  simp [Method.runAll_cons, run_send_packFrame, run_send_tryGetFinishedAudioPacket, h,
    audioFramesPerPacket]

theorem finishedPackets_single (data : NSData) (h : s.framesToSend = []) :
    finishedPackets (encodingMessages [data]) s = [] := by
  have hmessages : encodingMessages [data] =
      [.packFrame ⟨some data⟩, .tryGetFinishedAudioPacket] := rfl
  rw [hmessages, finishedPackets]
  simp [Method.runAll_cons, run_send_packFrame, run_send_tryGetFinishedAudioPacket, h,
    audioFramesPerPacket]

theorem finishedFrames_pair (first second : NSData) (later : List NSData) :
    finishedFrames (first :: second :: later) = first :: second :: finishedFrames later := by
  have hcount : (later.length + 1 + 1) / 2 * 2 = later.length / 2 * 2 + 1 + 1 := by omega
  rw [finishedFrames, List.length_cons, List.length_cons, audioFramesPerPacket, hcount,
    List.take_succ_cons, List.take_succ_cons]
  rfl

/-- A packet that can be halved gives its halves. -/
theorem run_unpackInOrder_of_even {packet : EncodedAudioPacket}
    {packets : List EncodedAudioPacket} (hs : s.audioFrameToReceiveQueue = [])
    (h : packet.audioData.length % audioFramesPerPacket = 0) :
    ((unpackInOrder (packet :: packets)).run.run s).1 =
      ((unpackInOrder packets).run.run s).1.map fun later =>
        ⟨some (List.take (packet.audioData.length / audioFramesPerPacket) packet.audioData)⟩ ::
          ⟨some (List.drop (packet.audioData.length / audioFramesPerPacket) packet.audioData)⟩ ::
            later := by
  have hempty : { s with audioFrameToReceiveQueue := [] } = s := by rw [← hs]
  rw [unpackInOrder, Method.run_bind, run_unpack_of_even h, hs]
  simp only [List.nil_append]
  rw [Method.run_bind, run_tryGetReceivedFrame_cons rfl]
  dsimp only
  rw [Method.run_bind, run_tryGetReceivedFrame_cons rfl]
  dsimp only
  rw [hempty, Method.run_bind]
  rcases (unpackInOrder packets).run.run s with ⟨e | later, t⟩
  · rfl
  · rfl

theorem run_unpackInOrder_of_odd {packet : EncodedAudioPacket}
    {packets : List EncodedAudioPacket}
    (h : ¬ packet.audioData.length % audioFramesPerPacket = 0) :
    (unpackInOrder (packet :: packets)).run.run s = (.error .badState, s) := by
  rw [unpackInOrder, Method.run_bind, run_unpack_of_odd h]

/-- The frames of finished packets come out as they were packed if each two of a packet are equally
long. -/
theorem unpackInOrder_finishedPackets (encodedFrames : List NSData) {t : AudioPacker}
    (hs : s.framesToSend = []) (ht : t.audioFrameToReceiveQueue = []) :
    ((unpackInOrder (finishedPackets (encodingMessages encodedFrames) s)).run.run t).1 =
        .ok ((finishedFrames encodedFrames).map (⟨some ·⟩)) ↔
      PairedEquallyLong encodedFrames := by
  induction encodedFrames using PairedEquallyLong.induct generalizing s with
  | case1 first second later ih =>
    rw [finishedPackets_pair first second later hs, finishedFrames_pair, PairedEquallyLong]
    have hlength : (first ++ second).length = first.length + second.length := List.length_append
    by_cases heven : (first ++ second).length % audioFramesPerPacket = 0
    · rw [run_unpackInOrder_of_even ht heven]
      rw [← ih (s := { s with nextSequenceNumber := s.nextSequenceNumber + 1 }) hs]
      rw [audioFramesPerPacket] at heven ⊢
      constructor
      · intro hresult
        cases hlater : ((unpackInOrder (finishedPackets (encodingMessages later)
            { s with nextSequenceNumber := s.nextSequenceNumber + 1 })).run.run t).1 with
        | error e =>
          rw [hlater] at hresult
          cases hresult
        | ok unpacked =>
          rw [hlater] at hresult
          obtain ⟨hfirst, hrest⟩ := List.cons.inj (Except.ok.inj hresult)
          obtain ⟨-, hrest⟩ := List.cons.inj hrest
          have htake : List.take ((first ++ second).length / 2) (first ++ second) = first :=
            Option.some.inj (EncodedAudioFrame.mk.inj hfirst)
          have hhalf := congrArg List.length htake
          rw [List.length_take] at hhalf
          exact ⟨by omega, by rw [hrest]⟩
      · rintro ⟨hequal, hlater⟩
        have hhalf : (first ++ second).length / 2 = first.length := by omega
        rw [hlater, hhalf, List.take_left, List.drop_left]
        rfl
    · rw [run_unpackInOrder_of_odd heven]
      refine iff_of_false nofun ?_
      rintro ⟨hequal, -⟩
      rw [audioFramesPerPacket] at heven
      omega
  | case2 encodedFrames hshort =>
    have hsingle : encodedFrames = [] ∨ ∃ data, encodedFrames = [data] := by
      match encodedFrames, hshort with
      | [], _ => exact .inl rfl
      | [data], _ => exact .inr ⟨data, rfl⟩
      | first :: second :: later, hshort => exact absurd rfl (hshort first second later)
    rcases hsingle with rfl | ⟨data, rfl⟩
    · exact iff_of_true rfl trivial
    · have hnone : finishedFrames [data] = [] := by simp [finishedFrames, audioFramesPerPacket]
      rw [finishedPackets_single data hs, hnone]
      exact iff_of_true rfl trivial

end AudioPacker

namespace AudioProcessor
variable {s : AudioProcessor}

theorem run_onJitterQueue {α : Type} (x : Method Exception JitterQueue α) (s : AudioProcessor) :
    (onJitterQueue x).run.run s = ((x.run.run s.jitterQueue).1,
      { s with jitterQueue := (x.run.run s.jitterQueue).2 }) := rfl

theorem run_onAudioPacker {α : Type} (x : Method Exception AudioPacker α) (s : AudioProcessor) :
    (onAudioPacker x).run.run s = ((x.run.run s.audioPacker).1,
      { s with audioPacker := (x.run.run s.audioPacker).2 }) := rfl

theorem run_pullFrame_cons {frame : EncodedAudioFrame} {frames : List EncodedAudioFrame}
    (h : s.audioPacker.audioFrameToReceiveQueue = frame :: frames) :
    pullFrame.run.run s = (.ok (some frame),
      { s with audioPacker := { s.audioPacker with audioFrameToReceiveQueue := frames } }) := by
  rw [pullFrame, Method.run_bind, run_onAudioPacker, AudioPacker.run_tryGetReceivedFrame_cons h]
  rfl

/-- Where there are no frames left, those of the next packet are unpacked. -/
theorem run_pullFrame_nil (h : s.audioPacker.audioFrameToReceiveQueue = [])
    {packet : Option EncodedAudioPacket} {jitterQueue : JitterQueue}
    (hdequeue : JitterQueue.tryDequeue.run.run s.jitterQueue = (.ok packet, jitterQueue)) :
    pullFrame.run.run s =
      match (AudioPacker.unpackPotentiallyMissingAudioPacket packet).run.run s.audioPacker with
      | (.ok _, audioPacker) =>
        ((AudioPacker.tryGetReceivedFrame.run.run audioPacker).1,
          ⟨jitterQueue, (AudioPacker.tryGetReceivedFrame.run.run audioPacker).2⟩)
      | (.error e, audioPacker) => (.error e, ⟨jitterQueue, audioPacker⟩) := by
  rw [pullFrame, Method.run_bind, run_onAudioPacker, AudioPacker.run_tryGetReceivedFrame_nil h]
  dsimp only
  rw [Method.run_bind, run_onJitterQueue, hdequeue]
  dsimp only
  rw [Method.run_bind, run_onAudioPacker]
  dsimp only
  rcases (AudioPacker.unpackPotentiallyMissingAudioPacket packet).run.run s.audioPacker with
    ⟨e | u, audioPacker⟩
  · rfl
  · rfl

end AudioProcessor

namespace Listening
variable {s s' : Listening}

/-- The jitter queue is one that packets have come to and have been taken from. -/
def Steady (s : Listening) : Prop := ∃ b, s.processor.jitterQueue.Represents b

/-- The frames of a packet that can be divided wait behind those that are there. -/
theorem run_unpack_yields (packer : AudioPacker) {packet : Option EncodedAudioPacket}
    (h : ∀ p ∈ packet, p.audioData.length % audioFramesPerPacket = 0) :
    ∃ frame frames, Yields packet (frame :: frames) ∧
      (AudioPacker.unpackPotentiallyMissingAudioPacket packet).run.run packer =
        (.ok (), { packer with audioFrameToReceiveQueue :=
          packer.audioFrameToReceiveQueue ++ frame :: frames }) := by
  cases packet with
  | none => exact ⟨_, _, ⟨rfl, by decide⟩, AudioPacker.run_unpack_missing⟩
  | some packet =>
    refine ⟨_, _, ⟨rfl, [_, _], rfl, ?_⟩, AudioPacker.run_unpack_of_even (h packet rfl)⟩
    rw [List.flatten_cons, List.flatten_cons, List.flatten_nil, List.append_nil,
      List.take_append_drop]

/-- One packet, or none, has been dequeued for frames that include the one returned, or it could not
be divided. -/
theorem step_pullFrame (h : s.Steady) (hstep : s.step .pullFrame = some s') :
    s'.Steady ∧ s'.dequeued = s.dequeued ++ s.processor.dequeuedByPull.toList ∧
    ((∃ frame, s.processor.dequeuedByPull = none ∧
        s.processor.audioPacker.audioFrameToReceiveQueue =
          frame :: s'.processor.audioPacker.audioFrameToReceiveQueue ∧
        s'.pulled = s.pulled ++ [.ok (some frame)]) ∨
      ∃ packet, s.processor.dequeuedByPull = some packet ∧
        s.processor.audioPacker.audioFrameToReceiveQueue = [] ∧
        ((∀ p ∈ packet, p.audioData.length % audioFramesPerPacket = 0) ∧
          (∃ frame, Yields packet (frame :: s'.processor.audioPacker.audioFrameToReceiveQueue) ∧
            s'.pulled = s.pulled ++ [.ok (some frame)]) ∨
        (∃ p ∈ packet, ¬ p.audioData.length % audioFramesPerPacket = 0) ∧
          s'.pulled = s.pulled ++ [.error .badState])) := by
  obtain ⟨b, hb⟩ := h
  have hs' : s' = ⟨(AudioProcessor.pullFrame.run.run s.processor).2,
      s.dequeued ++ s.processor.dequeuedByPull.toList,
      s.pulled ++ [(AudioProcessor.pullFrame.run.run s.processor).1]⟩ :=
    (Option.some.inj hstep).symm
  cases hqueue : s.processor.audioPacker.audioFrameToReceiveQueue with
  | cons frame frames =>
    have hnone : s.processor.dequeuedByPull = none :=
      if_neg (by rw [hqueue]; exact List.cons_ne_nil _ _)
    rw [AudioProcessor.run_pullFrame_cons hqueue, hnone] at hs'
    subst hs'
    rw [hnone]
    exact ⟨⟨b, hb⟩, rfl, .inl ⟨frame, rfl, rfl, rfl⟩⟩
  | nil =>
    obtain ⟨packet, jitterQueue, b', hdequeue, hrepresents⟩ : ∃ packet jitterQueue b',
        JitterQueue.tryDequeue.run.run s.processor.jitterQueue = (.ok packet, jitterQueue) ∧
          jitterQueue.Represents b' := by
      obtain ⟨jitterQueue, hdequeue, hrepresents⟩ := hb.run_tryDequeue
      exact ⟨_, jitterQueue, _, hdequeue, hrepresents⟩
    have hrun := AudioProcessor.run_pullFrame_nil hqueue hdequeue
    have hsome : s.processor.dequeuedByPull = some packet := by
      rw [AudioProcessor.dequeuedByPull, if_pos hqueue, hdequeue]
      rfl
    rw [hsome]
    rw [hsome] at hs'
    by_cases hdivisible : ∀ p ∈ packet, p.audioData.length % audioFramesPerPacket = 0
    · obtain ⟨frame, frames, hyields, hunpack⟩ :=
        run_unpack_yields s.processor.audioPacker hdivisible
      rw [hunpack, hqueue] at hrun
      dsimp only [List.nil_append] at hrun
      rw [AudioPacker.run_tryGetReceivedFrame_cons rfl] at hrun
      rw [hrun] at hs'
      subst hs'
      exact ⟨⟨b', hrepresents⟩, rfl,
        .inr ⟨packet, rfl, rfl, .inl ⟨hdivisible, frame, hyields, rfl⟩⟩⟩
    · simp only [not_forall] at hdivisible
      obtain ⟨p, hp, hodd⟩ := hdivisible
      obtain rfl : packet = some p := hp
      rw [AudioPacker.run_unpack_of_odd hodd] at hrun
      dsimp only at hrun
      rw [hrun] at hs'
      subst hs'
      exact ⟨⟨b', hrepresents⟩, rfl, .inr ⟨some p, rfl, rfl, .inr ⟨⟨p, rfl, hodd⟩, rfl⟩⟩⟩

theorem Unpacks.returned_append (h : s.Unpacks) {frame : EncodedAudioFrame}
    (hpulled : s'.pulled = s.pulled ++ [.ok (some frame)]) :
    ∀ result ∈ s'.pulled, ∃ frame, result = .ok (some frame) := by
  intro result hresult
  rw [hpulled] at hresult
  rcases List.mem_append.mp hresult with hresult | hresult
  · exact h.returned result hresult
  · exact ⟨frame, List.mem_singleton.mp hresult⟩

theorem frames_append {frame : EncodedAudioFrame}
    (hpulled : s'.pulled = s.pulled ++ [.ok (some frame)]) :
    s'.frames = s.pulled.filterMap
        (fun result => (result : Throws (Option EncodedAudioFrame)).toOption.join) ++
      frame :: s'.processor.audioPacker.audioFrameToReceiveQueue := by
  rw [Listening.frames, hpulled, List.filterMap_append, List.append_assoc]
  rfl

theorem steady_step {e : Event} (h : s.Steady) (hstep : s.step e = some s') : s'.Steady := by
  cases e with
  | receivedPacket packet =>
    obtain ⟨b, hb⟩ := h
    obtain ⟨jitterQueue, hrun, hrepresents⟩ := hb.run_tryEnqueue packet
    obtain rfl := Option.some.inj hstep
    have hleft : ((AudioProcessor.receivedPacket packet).run.run s.processor).2 =
        { s.processor with jitterQueue } := by
      rw [AudioProcessor.receivedPacket, Method.run_bind, AudioProcessor.run_onJitterQueue, hrun]
      rfl
    exact ⟨_, by rw [hleft]; exact hrepresents⟩
  | pullFrame => exact (step_pullFrame h hstep).1

/-- Only a packet that cannot be divided keeps a pull from returning a frame. -/
theorem unpacks_step_iff {e : Event} (h : s.Unpacks) (hs : s.Steady)
    (hstep : s.step e = some s') : s'.Unpacks ↔ s.DequeuesDivisible e := by
  cases e with
  | receivedPacket packet =>
    have hqueue : s'.processor.audioPacker = s.processor.audioPacker := by
      obtain rfl := Option.some.inj hstep
      dsimp only
      rw [AudioProcessor.receivedPacket, Method.run_bind, AudioProcessor.run_onJitterQueue]
      split
      · rename_i hrun
        exact congrArg (fun r => AudioProcessor.audioPacker r.2) hrun.symm
      · rename_i hrun
        exact congrArg (fun r => AudioProcessor.audioPacker r.2) hrun.symm
    have hframes : s'.frames = s.frames := by
      rw [Listening.frames, hqueue]
      obtain rfl := Option.some.inj hstep
      rfl
    obtain rfl := Option.some.inj hstep
    exact iff_of_true ⟨h.returned, by rw [hframes]; exact h.frames⟩ trivial
  | pullFrame =>
    obtain ⟨-, hdequeued, hcases⟩ := step_pullFrame hs hstep
    obtain ⟨groups, hgroups, hframes⟩ := h.frames
    rcases hcases with ⟨frame, hpull, hqueue, hpulled⟩ |
      ⟨packet, hpull, hqueue, ⟨heven, frame, hyields, hpulled⟩ | ⟨⟨p, hp, hodd⟩, hpulled⟩⟩
    · have hguard : s.DequeuesDivisible .pullFrame := by
        intro dequeued hdequeue
        rw [hpull] at hdequeue
        cases hdequeue
      refine iff_of_true ⟨h.returned_append hpulled, groups, ?_, ?_⟩ hguard
      · rw [hdequeued, hpull, Option.toList_none, List.append_nil]
        exact hgroups
      · rw [← hframes, frames_append hpulled, Listening.frames, hqueue]
    · have hguard : s.DequeuesDivisible .pullFrame := by
        intro dequeued hdequeue
        rw [hpull] at hdequeue
        cases hdequeue
        exact heven
      refine iff_of_true ⟨h.returned_append hpulled,
        groups ++ [frame :: s'.processor.audioPacker.audioFrameToReceiveQueue], ?_, ?_⟩ hguard
      · rw [hdequeued, hpull]
        exact List.rel_append hgroups (.cons hyields .nil)
      · rw [List.flatten_append, ← hframes, frames_append hpulled, Listening.frames, hqueue,
          List.append_nil, List.flatten_cons, List.flatten_nil, List.append_nil]
    · refine iff_of_false ?_ ?_
      · intro hafter
        obtain ⟨frame, hframe⟩ := hafter.returned (.error .badState)
          (hpulled ▸ List.mem_append_right _ (List.mem_singleton_self _))
        cases hframe
      · intro hguard
        exact hodd (hguard packet hpull p hp)

variable {jitterQueueNotificationReceiver : Option JitterWatcher} {secureRandomUInt16 : UInt16}

theorem steady_of_run {tr : History Listening Event}
    (h : (machine jitterQueueNotificationReceiver secureRandomUInt16).Run tr) :
    ((machine jitterQueueNotificationReceiver secureRandomUInt16).last tr).Steady :=
  h.state_invariant (I := Steady) ⟨_, JitterQueue.jitterQueue_represents _⟩
    fun _ _ _ hs hstep => steady_step hs hstep

/-- Two packets arrive, the second one empty, and then none. -/
def received : List Event :=
  [.receivedPacket ⟨[1, 2, 3, 4], 7⟩, .pullFrame, .receivedPacket ⟨[], 8⟩, .pullFrame, .pullFrame,
    .pullFrame, .pullFrame]

end Listening
end SignalIOS.Audio
