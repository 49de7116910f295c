import SignalIOS.Lib.Methods
import SignalIOS.Util.NSData

/-! Audio frames are packed into numbered packets, and unpacked from packets. -/
namespace SignalIOS.Audio
open SignalIOS.Lib

/-- A frame without data stands for one that went missing. -/
structure EncodedAudioFrame where
  audioData : Option NSData
  deriving DecidableEq, Repr

def EncodedAudioFrame.isMissingAudioData (frame : EncodedAudioFrame) : Bool :=
  frame.audioData.isNone

structure EncodedAudioPacket where
  audioData : NSData
  sequenceNumber : UInt16
  deriving DecidableEq, Repr

def audioFramesPerPacket : ℕ := 2

structure AudioPacker where
  framesToSend : List NSData
  nextSequenceNumber : UInt16
  audioFrameToReceiveQueue : List EncodedAudioFrame
  deriving DecidableEq, Repr

namespace AudioPacker

/-- The two high bits of the first sequence number are cut off, to avoid confusion over signed-ness
when the peer receives it. -/
def audioPacker (secureRandomUInt16 : UInt16) : AudioPacker where
  framesToSend := []
  nextSequenceNumber := secureRandomUInt16 &&& 0x3FFF
  audioFrameToReceiveQueue := []

def packFrame (frame : EncodedAudioFrame) : Method Exception AudioPacker Unit := do
  owsRequire (frame.isMissingAudioData = false)
  let audioData ← owsRequireNotNil frame.audioData
  modify fun s => { s with framesToSend := s.framesToSend ++ [audioData] }

def tryGetFinishedAudioPacket : Method Exception AudioPacker (Option EncodedAudioPacket) := do
  let s ← get
  if s.framesToSend.length < audioFramesPerPacket then
    return none
  else
    let sequenceNumber := s.nextSequenceNumber
    set { s with nextSequenceNumber := s.nextSequenceNumber + 1, framesToSend := [] }
    return some ⟨s.framesToSend.flatten, sequenceNumber⟩

def enqueueFrame (frame : EncodedAudioFrame) : Method Exception AudioPacker Unit :=
  modify fun s => { s with audioFrameToReceiveQueue := s.audioFrameToReceiveQueue ++ [frame] }

def enqueueFramesForPacket (packet : EncodedAudioPacket) : Method Exception AudioPacker Unit := do
  let audioData := packet.audioData
  requireState (audioData.length % audioFramesPerPacket = 0)
  let frameSize := audioData.length / audioFramesPerPacket
  for i in List.range audioFramesPerPacket do
    let frameData ← audioData.subdataWithRange (frameSize * i) frameSize
    enqueueFrame ⟨some frameData⟩

def enqueueFramesForMissingPacket : Method Exception AudioPacker Unit := do
  for _ in List.range audioFramesPerPacket do
    enqueueFrame ⟨none⟩

def unpackPotentiallyMissingAudioPacket :
    Option EncodedAudioPacket → Method Exception AudioPacker Unit
  | some packet => enqueueFramesForPacket packet
  | none => enqueueFramesForMissingPacket

def tryGetReceivedFrame : Method Exception AudioPacker (Option EncodedAudioFrame) := do
  let s ← get
  match s.audioFrameToReceiveQueue with
  | [] => return none
  | frame :: frames =>
    set { s with audioFrameToReceiveQueue := frames }
    return some frame

/-- What the sending side of a call asks of its packer. -/
inductive PackerMessage
  | packFrame (frame : EncodedAudioFrame)
  | tryGetFinishedAudioPacket

def PackerMessage.send : PackerMessage → Method Exception AudioPacker (Option EncodedAudioPacket)
  | .packFrame frame => do
    AudioPacker.packFrame frame
    return none
  | .tryGetFinishedAudioPacket => AudioPacker.tryGetFinishedAudioPacket

/-- The packets that the packer finishes when it gets these messages. -/
def finishedPackets (messages : List PackerMessage) (s : AudioPacker) : List EncodedAudioPacket :=
  (Method.runAll (messages.map PackerMessage.send) s).1.filterMap fun result =>
    match result with
    | .ok packet => packet
    | .error _ => none

/-- Only a finished packet takes a number. -/
theorem send_cases (message : PackerMessage) (s : AudioPacker) :
    (∃ audioData, (message.send.run.run s).1 = .ok (some ⟨audioData, s.nextSequenceNumber⟩) ∧
      (message.send.run.run s).2.nextSequenceNumber = s.nextSequenceNumber + 1) ∨
    ((∀ packet, (message.send.run.run s).1 ≠ .ok (some packet)) ∧
      (message.send.run.run s).2.nextSequenceNumber = s.nextSequenceNumber) := by
  cases message with
  | packFrame frame =>
    right
    have hnone : ∀ packet, (((PackerMessage.packFrame frame).send).run.run s).1 ≠
        .ok (some packet) := by
      intro packet
      rw [PackerMessage.send, Method.run_bind]
      split
      · intro h
        cases h
      · intro h
        cases h
    have hleaves : (AudioPacker.packFrame frame).Leaves s fun t =>
        t.nextSequenceNumber = s.nextSequenceNumber := by
      simp [AudioPacker.packFrame, Method.Leaves]
    refine ⟨hnone, ?_⟩
    rw [PackerMessage.send, Method.run_bind]
    have hrun := hleaves.run
    split <;> rename_i hpack <;> rw [hpack] at hrun <;> exact hrun
  | tryGetFinishedAudioPacket =>
    rw [PackerMessage.send, AudioPacker.tryGetFinishedAudioPacket, Method.run_bind, Method.run_get]
    by_cases hcount : s.framesToSend.length < audioFramesPerPacket
    · right
      simp only [if_pos hcount, Method.run_pure]
      exact ⟨by simp, trivial⟩
    · left
      simp only [if_neg hcount, Method.run_bind, Method.run_set, Method.run_pure]
      exact ⟨_, rfl, trivial⟩

/-- The numbers of finished packets are consecutive. -/
theorem sequenceNumber_finishedPackets (messages : List PackerMessage) (s : AudioPacker) :
    (finishedPackets messages s).map (·.sequenceNumber) =
      (List.range (finishedPackets messages s).length).map
        fun i => s.nextSequenceNumber + UInt16.ofNat i := by
  induction messages generalizing s with
  | nil => rfl
  | cons message messages ih =>
    have hih := ih (message.send.run.run s).2
    rcases send_cases message s with ⟨audioData, hresult, hnext⟩ | ⟨hresult, hnext⟩
    · have hcons : finishedPackets (message :: messages) s = ⟨audioData, s.nextSequenceNumber⟩ ::
          finishedPackets messages (message.send.run.run s).2 := by
        simp only [finishedPackets, List.map_cons, Method.runAll_cons, List.filterMap_cons, hresult]
      rw [hcons, List.map_cons, hih, List.length_cons, List.range_succ_eq_map, List.map_cons,
        List.map_map, hnext]
      congr 1
      · exact (UInt16.add_zero _).symm
      · apply List.map_congr_left
        intro i _
        rw [Function.comp_apply, Nat.succ_eq_add_one, Nat.add_comm i 1, UInt16.ofNat_add,
          UInt16.add_assoc]
        rfl
    · have hskip : finishedPackets (message :: messages) s =
          finishedPackets messages (message.send.run.run s).2 := by
        simp only [finishedPackets, List.map_cons, Method.runAll_cons, List.filterMap_cons]
        cases hcase : (message.send.run.run s).1 with
        | error e => rfl
        | ok packet =>
          cases packet with
          | none => rfl
          | some packet => exact absurd hcase (hresult packet)
      rw [hskip, hih, hnext]

end AudioPacker
end SignalIOS.Audio
