import SignalIOS.Audio.AudioProcessor
import SignalIOS.Audio.SpeexCodec

/-! Recording: the audio unit renders samples into buffers of a pool, on a thread of its own. The low
latency thread enqueues them, encodes whole frames of them and sends two frames in a packet. The same
thread takes received frames from the same packer and decodes them with the same codec. -/
namespace SignalIOS.Audio
open SignalIOS.Lib Speex

def initialNumberOfBuffers : ℕ := 100
def bufferSize : ℕ := 8000

structure RemoteIOBufferListWrapper where
  mData : NSData
  sampleCount : ℕ

def RemoteIOBufferListWrapper.remoteIOBufferListWithMonoBufferSize
    (malloced : Vector UInt8 bufferSize) : RemoteIOBufferListWrapper := ⟨malloced.toList, 0⟩

/-- The data that is enqueued for the buffer. -/
def RemoteIOBufferListWrapper.recordedAudio (buffer : RemoteIOBufferListWrapper) : NSData :=
  stretch buffer.mData 0 (buffer.sampleCount * sampleSizeInBytes.toNat)

/-- How the encoding ends that does not return. -/
inductive EncodingFailure
  | abort (abort : Abort)
  | fault (fault : Fault)

structure Recording (ε δ : Type) where
  state : RemoteIOState := .notStarted
  unusedBuffers : List ℕ := List.range initialNumberOfBuffers
  buffers : ℕ → RemoteIOBufferListWrapper
  /-- The buffer that a recording callback has taken. -/
  rendering : Option ℕ := none
  /-- The buffers with which the low latency thread has not begun, the oldest first. -/
  posted : List ℕ := []
  /-- The data of a buffer is enqueued, and the delegate is not told yet. -/
  enqueued : Bool := false
  recordingQueue : CyclicalBuffer := .init
  processor : AudioProcessor
  codec : SpeexCodec ε δ
  haveReceivedDataYet : Bool := false
  sent : List EncodedAudioPacket := []

namespace AudioPacker

/-- The second loop of `encodeAudioPacketsFromBuffer`. -/
def packFrames : List EncodedAudioFrame → Method Exception AudioPacker (List EncodedAudioPacket)
  | [] => return []
  | frame :: frames => do
    packFrame frame
    let packet ← tryGetFinishedAudioPacket
    let packets ← packFrames frames
    return packet.toList ++ packets

end AudioPacker

namespace Recording
variable {ε δ : Type}

def onRecordingQueue {α : Type} (x : Method Abort CyclicalBuffer α) :
    Method EncodingFailure (Recording ε δ) α :=
  Method.onPart recordingQueue (fun s recordingQueue => { s with recordingQueue })
    (x.adapt .abort)

def onProcessor {α : Type} (x : Method Exception AudioProcessor α) :
    Method EncodingFailure (Recording ε δ) α :=
  Method.onPart processor (fun s processor => { s with processor })
    (x.adapt (EncodingFailure.abort ∘ .raised))

def onCodec {α : Type} (f : SpeexCodec ε δ → Except Fault (Throws α × SpeexCodec ε δ)) :
    Method EncodingFailure (Recording ε δ) α :=
  ExceptT.mk fun s =>
    match f s.codec with
    | .ok (result, codec) =>
      (result.mapError (EncodingFailure.abort ∘ .raised), { s with codec })
    | .error e => (.error (.fault e), s)

/-- The first loop of `encodeAudioPacketsFromBuffer`. -/
def encodeFrames (p : SignalProcessing ε δ) (memory : Realloc) :
    ℕ → Method EncodingFailure (Recording ε δ) (List EncodedAudioFrame)
  | 0 => return []
  | rounds + 1 => do
    if (← get).recordingQueue.enqueuedLength ≥ decodedFrameSizeInBytes then
      let rawFrame ← onRecordingQueue (CyclicalBuffer.dequeueDataWithLength decodedFrameSizeInBytes)
      let encodedFrameData ← onCodec (SpeexCodec.encode p memory rawFrame)
      let frames ← encodeFrames p memory rounds
      return ⟨some encodedFrameData⟩ :: frames
    else
      return []

/-- Each round of the first loop takes a frame from the queue. -/
def encodeAudioPacketsFromBuffer (p : SignalProcessing ε δ) (memory : Realloc) :
    Method EncodingFailure (Recording ε δ) (List EncodedAudioPacket) := do
  let rounds := (← get).recordingQueue.enqueuedLength / decodedFrameSizeInBytes + 1
  let encodedFrames ← encodeFrames p memory rounds
  onProcessor (AudioProcessor.onAudioPacker (AudioPacker.packFrames encodedFrames))

/-- Every packet goes to the socket. -/
def handleNewDataRecorded (p : SignalProcessing ε δ) (memory : Realloc) :
    Method EncodingFailure (Recording ε δ) Unit := do
  let encodedPackets ← encodeAudioPacketsFromBuffer p memory
  modify fun s => { s with sent := s.sent ++ encodedPackets }

/-- `tryDecodeOrInferFrame` up to the stretching. Without a frame, `frame.isMissingAudioData` is
`NO`. -/
def tryDecodeOrInferFrame (p : SignalProcessing ε δ) (memory : Realloc) :
    Method EncodingFailure (Recording ε δ) (Option NSData) := do
  let frame ← onProcessor AudioProcessor.pullFrame
  let isMissingAudioData := frame.any EncodedAudioFrame.isMissingAudioData
  modify fun s => { s with haveReceivedDataYet := s.haveReceivedDataYet || !isMissingAudioData }
  if (← get).haveReceivedDataYet then
    onCodec fun c =>
      (c.decode p memory (frame.bind EncodedAudioFrame.audioData)).map fun (raw, c) => (.ok raw, c)
  else
    return none

/-- `onRecordedDataIntoBuffer:` while it holds the lock. A buffer whose data cannot be enqueued is
not returned. -/
def onRecordedDataIntoBuffer (buffer : ℕ) (s : Recording ε δ) : Recording ε δ :=
  if s.state = .terminated then s
  else
    match (CyclicalBuffer.enqueueData (s.buffers buffer).recordedAudio).run.run s.recordingQueue with
    | (.ok _, recordingQueue) =>
      { s with recordingQueue, unusedBuffers := s.unusedBuffers ++ [buffer], enqueued := true }
    | (.error _, recordingQueue) => { s with recordingQueue }

inductive Event
  | start
  /-- `anyObject` of the unused buffers. -/
  | recordingCallback (anyObject : Option ℕ)
  /-- The callback goes on behind `AudioUnitRender`. -/
  | audioUnitRender (samples : List Int16)
  | onRecordedDataIntoBuffer
  | handleNewDataRecorded (memory : Realloc)
  | receivedPacket (packet : EncodedAudioPacket)
  | tryDecodeOrInferFrame (memory : Realloc)
  | cancel

/-- One step of one of the threads. The low latency thread does one thing after the other. -/
def step (p : SignalProcessing ε δ) (s : Recording ε δ) : Event → Option (Recording ε δ)
  | .start => if s.state = .notStarted then some { s with state := .started } else none
  | .recordingCallback none => if s.unusedBuffers = [] ∧ s.rendering = none then some s else none
  | .recordingCallback (some buffer) =>
    if buffer ∈ s.unusedBuffers ∧ s.rendering = none then
      some { s with unusedBuffers := s.unusedBuffers.erase buffer, rendering := some buffer }
    else none
  | .audioUnitRender samples =>
    match s.rendering with
    | some buffer =>
      let mData := overwrite (s.buffers buffer).mData 0 (SpeexCodec.dataWithSamples samples)
      some { s with
        buffers := Function.update s.buffers buffer ⟨mData, samples.length⟩
        rendering := none
        posted := s.posted ++ [buffer] }
    | none => none
  | .onRecordedDataIntoBuffer =>
    match s.posted, s.enqueued with
    | buffer :: posted, false => some ({ s with posted }.onRecordedDataIntoBuffer buffer)
    | _, _ => none
  | .handleNewDataRecorded memory =>
    if s.enqueued then
      some ((handleNewDataRecorded p memory).run.run { s with enqueued := false }).2
    else none
  | .receivedPacket packet =>
    some ((onProcessor (AudioProcessor.receivedPacket packet)).run.run s).2
  | .tryDecodeOrInferFrame memory =>
    if s.enqueued then none else some ((tryDecodeOrInferFrame p memory).run.run s).2
  | .cancel => some { s with state := .terminated, unusedBuffers := [] }

def machine (p : SignalProcessing ε δ) (malloced : ℕ → Vector UInt8 bufferSize)
    (opened : SpeexCodec ε δ) (watcher : Option JitterWatcher) (secureRandomUInt16 : UInt16) :
    Machine (Recording ε δ) Event where
  init :=
    { buffers := fun buffer => .remoteIOBufferListWithMonoBufferSize (malloced buffer)
      processor := .audioProcessor watcher secureRandomUInt16
      codec := opened }
  step := step p

/-- What the audio unit has rendered. -/
def recorded : History (Recording ε δ) Event → NSData
  | [] => []
  | (.audioUnitRender samples, _) :: tr => recorded tr ++ SpeexCodec.dataWithSamples samples
  | _ :: tr => recorded tr

/-- The samples of one callback fit into a buffer. -/
def Event.Fits : Event → Prop
  | .audioUnitRender samples => samples.length * sampleSizeInBytes.toNat ≤ bufferSize
  | _ => True

instance : (e : Event) → Decidable e.Fits
  | .audioUnitRender samples =>
    inferInstanceAs (Decidable (samples.length * sampleSizeInBytes.toNat ≤ bufferSize))
  | .start => .isTrue trivial
  | .recordingCallback _ => .isTrue trivial
  | .onRecordedDataIntoBuffer => .isTrue trivial
  | .handleNewDataRecorded _ => .isTrue trivial
  | .receivedPacket _ => .isTrue trivial
  | .tryDecodeOrInferFrame _ => .isTrue trivial
  | .cancel => .isTrue trivial

/-- The data of the buffers with which the low latency thread has not begun. -/
def waiting (s : Recording ε δ) : NSData :=
  s.posted.flatMap fun buffer => (s.buffers buffer).recordedAudio

/-- Where the buffers are. -/
def held (s : Recording ε δ) : List ℕ := s.rendering.toList ++ s.posted ++ s.unusedBuffers

end Recording

/-- The frames, one after the other, are encoded in twenty bytes each, which are what the encoder
finds in them and nothing else. -/
inductive Spoken {ε δ : Type} (p : SignalProcessing ε δ) : List NSData → ε → List NSData → ε → Prop
  | nil (encodingState : ε) : Spoken p [] encodingState [] encodingState
  | cons {rawData data : NSData} {frames encoded : List NSData} {before after : ε}
    (rawLength : rawData.length = decodedFrameSizeInBytes) (length : data.length = 20)
    (bits : bitString data = SpeexBits.bitsOfFields
      (nbEncode (submodeOfQuality qualityParameter) (p.analyse rawData before).1))
    (later : Spoken p frames (p.analyse rawData before).2 encoded after) :
    Spoken p (rawData :: frames) before (data :: encoded) after

theorem length_flatten_frames {n : ℕ} {frames : List NSData}
    (h : ∀ frame ∈ frames, frame.length = n) : frames.flatten.length = frames.length * n := by
  rw [List.length_flatten, List.map_congr_left h]
  simp

/-- There is one way to cut data into frames of a length. -/
theorem eq_of_flatten_append {n : ℕ} {frames frames' : List NSData} {rest rest' : NSData}
    (h : ∀ frame ∈ frames, frame.length = n) (h' : ∀ frame ∈ frames', frame.length = n)
    (hrest : rest.length < n) (hrest' : rest'.length < n)
    (hsame : frames.flatten ++ rest = frames'.flatten ++ rest') :
    frames = frames' ∧ rest = rest' := by
  have hlong : ∀ {frame : NSData} (later : List NSData) (behind : NSData), frame.length = n →
      n ≤ ((frame :: later).flatten ++ behind).length := by
    intro frame later behind hframe
    rw [List.flatten_cons, List.length_append, List.length_append, hframe]
    omega
  induction frames generalizing frames' with
  | nil =>
    cases frames' with
    | nil => exact ⟨rfl, hsame⟩
    | cons frame' frames' =>
      have hle := hlong frames' rest' (h' frame' (by simp))
      rw [← hsame] at hle
      exact absurd hle (Nat.not_le_of_lt hrest)
  | cons frame frames ih =>
    cases frames' with
    | nil =>
      have hle := hlong frames rest (h frame (by simp))
      rw [hsame] at hle
      exact absurd hle (Nat.not_le_of_lt hrest')
    | cons frame' frames' =>
      rw [List.flatten_cons, List.flatten_cons, List.append_assoc, List.append_assoc] at hsame
      obtain ⟨rfl, hlater⟩ := List.append_inj hsame
        ((h frame (by simp)).trans (h' frame' (by simp)).symm)
      obtain ⟨rfl, rfl⟩ := ih (fun f hf => h f (List.mem_cons_of_mem _ hf))
        (fun f hf => h' f (List.mem_cons_of_mem _ hf)) hlater
      exact ⟨rfl, rfl⟩

namespace AudioPacker

/-- Frames in pairs, in packets with consecutive numbers. -/
def packetsOf : UInt16 → List NSData → List EncodedAudioPacket
  | number, first :: second :: frames => ⟨first ++ second, number⟩ :: packetsOf (number + 1) frames
  | _, _ => []

/-- The frame that waits for another one. -/
def unpaired : List NSData → List NSData
  | _ :: _ :: frames => unpaired frames
  | frames => frames

/-- The packer has been given frames, from `number` on, and has finished packets of them. -/
structure Packed (number : UInt16) (frames : List NSData) (packets : List EncodedAudioPacket)
    (s : AudioPacker) : Prop where
  finished : packets = packetsOf number frames
  framesToSend : s.framesToSend = unpaired frames
  nextSequenceNumber : s.nextSequenceNumber = number + UInt16.ofNat packets.length

/-- One more frame waits, or it is sent with the one that does. -/
theorem packetsOf_concat (number : UInt16) (frames : List NSData) (frame : NSData) :
    (unpaired frames = [] ∧ unpaired (frames ++ [frame]) = [frame] ∧
      packetsOf number (frames ++ [frame]) = packetsOf number frames) ∨
    ∃ first, unpaired frames = [first] ∧ unpaired (frames ++ [frame]) = [] ∧
      packetsOf number (frames ++ [frame]) = packetsOf number frames ++
        [⟨first ++ frame, number + UInt16.ofNat (packetsOf number frames).length⟩] := by
  induction number, frames using packetsOf.induct with
  | case1 number first second frames ih =>
    rcases ih with ⟨hnone, hone, hsame⟩ | ⟨waiting, hwaiting, hnone, hmore⟩
    · left
      simp only [List.cons_append, unpaired, packetsOf, hnone, hone, hsame]
      trivial
    · right
      have hnumber : number + 1 + UInt16.ofNat (packetsOf (number + 1) frames).length =
          number + UInt16.ofNat ((packetsOf (number + 1) frames).length + 1) := by
        rw [UInt16.ofNat_add, UInt16.add_assoc, UInt16.add_comm 1]
        rfl
      refine ⟨waiting, hwaiting, hnone, ?_⟩
      simp only [List.cons_append, packetsOf, hmore, hnumber, List.length_cons]
  | case2 frames number hshort =>
    cases frames with
    | nil => exact .inl ⟨rfl, rfl, rfl⟩
    | cons first later =>
      cases later with
      | nil =>
        right
        have hnumber : number + UInt16.ofNat 0 = number := UInt16.add_zero number
        refine ⟨first, rfl, rfl, ?_⟩
        change _ = [(⟨first ++ frame, number + UInt16.ofNat 0⟩ : EncodedAudioPacket)]
        rw [hnumber]
        rfl
      | cons second later => exact absurd rfl (hshort first second later)

theorem div_length_of_short {frames : List NSData}
    (hshort : ∀ first second later, frames = first :: second :: later → False) :
    frames.length / audioFramesPerPacket = 0 := by
  match frames, hshort with
  | [], _ => rfl
  | [_], _ => exact Nat.div_eq_of_lt (Nat.lt_succ_self 1)
  | first :: second :: later, hshort => exact absurd rfl (hshort first second later)

theorem length_packetsOf (number : UInt16) (frames : List NSData) :
    (packetsOf number frames).length = frames.length / audioFramesPerPacket := by
  induction number, frames using packetsOf.induct with
  | case1 number first second frames ih =>
    rw [packetsOf, List.length_cons, ih, List.length_cons, List.length_cons]
    exact (Nat.add_div_right frames.length (by decide)).symm
  | case2 frames number hshort =>
    have hnone : packetsOf number frames = [] := by
      rw [packetsOf]
      exact hshort
    rw [hnone, div_length_of_short hshort]
    rfl

variable {number : UInt16} {frames : List NSData} {packets : List EncodedAudioPacket}
  {s : AudioPacker}

/-- The frames of the packets come out one after the other. -/
theorem unpackInOrder_packetsOf (number : UInt16) {size : ℕ}
    (hlength : ∀ frame ∈ frames, frame.length = size) (hs : s.audioFrameToReceiveQueue = []) :
    ((unpackInOrder (packetsOf number frames)).run.run s).1 =
      .ok ((finishedFrames frames).map fun data => ⟨some data⟩) := by
  induction number, frames using packetsOf.induct with
  | case1 number first second frames ih =>
    have hfirst : first.length = size := hlength first (by simp)
    have hsecond : second.length = size := hlength second (by simp)
    have htwice : (first ++ second).length = 2 * size := by
      rw [List.length_append, hfirst, hsecond, Nat.two_mul]
    have heven : (first ++ second).length % audioFramesPerPacket = 0 := by
      rw [htwice]
      exact Nat.mul_mod_right 2 size
    have hhalf : (first ++ second).length / audioFramesPerPacket = first.length := by
      rw [htwice, hfirst]
      exact Nat.mul_div_cancel_left size (by decide)
    have hlater := ih fun frame hframe => hlength frame (by simp [hframe])
    rw [packetsOf, run_unpackInOrder_of_even hs heven]
    dsimp only
    rw [hlater, hhalf, List.take_left, List.drop_left, finishedFrames_pair]
    rfl
  | case2 frames number hshort =>
    have hnone : packetsOf number frames = [] := by
      rw [packetsOf]
      exact hshort
    rw [hnone, finishedFrames, div_length_of_short hshort, Nat.zero_mul, List.take_zero]
    rfl

/-- A frame is packed, and the packer is asked for a packet. -/
theorem Packed.concat (h : Packed number frames packets s) (frame : NSData) :
    ∃ packet s', tryGetFinishedAudioPacket.run.run
        { s with framesToSend := s.framesToSend ++ [frame] } = (.ok packet, s') ∧
      Packed number (frames ++ [frame]) (packets ++ packet.toList) s' := by
  obtain ⟨hfinished, hwaiting, hnumber⟩ := h
  change ∃ packet s', PackerMessage.tryGetFinishedAudioPacket.send.run.run _ = _ ∧ _
  rw [run_send_tryGetFinishedAudioPacket]
  rcases packetsOf_concat number frames frame with ⟨hnone, hone, hsame⟩ | ⟨first, hfirst, hnone, hmore⟩
  · have hshort : (s.framesToSend ++ [frame]).length < audioFramesPerPacket := by
      rw [hwaiting, hnone]
      exact Nat.lt_succ_self 1
    refine ⟨none, _, if_pos hshort, ?_, ?_, ?_⟩
    · rw [hsame, ← hfinished]
      exact List.append_nil packets
    · rw [hone, hwaiting, hnone]
      rfl
    · rw [Option.toList_none, List.append_nil]
      exact hnumber
  · have htwo : ¬ (s.framesToSend ++ [frame]).length < audioFramesPerPacket := by
      rw [hwaiting, hfirst]
      exact Nat.lt_irrefl 2
    have hdata : (s.framesToSend ++ [frame]).flatten = first ++ frame := by
      rw [hwaiting, hfirst]
      simp
    refine ⟨_, _, if_neg htwo, ?_, hnone.symm, ?_⟩
    · rw [hmore, ← hfinished, hdata, hnumber]
      rfl
    · rw [hnumber, Option.toList_some, List.length_append, List.length_singleton, UInt16.ofNat_add,
        ← UInt16.add_assoc]
      rfl

theorem Packed.packFrames (h : Packed number frames packets s) (encoded : List NSData) :
    ∃ more s', (packFrames (encoded.map fun data => ⟨some data⟩)).run.run s = (.ok more, s') ∧
      Packed number (frames ++ encoded) (packets ++ more) s' := by
  induction encoded generalizing frames packets s with
  | nil =>
    refine ⟨[], s, rfl, ?_⟩
    rw [List.append_nil, List.append_nil]
    exact h
  | cons frame encoded ih =>
    have hpack : (packFrame ⟨some frame⟩).run.run s =
        (.ok (), { s with framesToSend := s.framesToSend ++ [frame] }) := rfl
    obtain ⟨packet, t, hget, hpacked⟩ := h.concat frame
    obtain ⟨more, s', hrun, hpacked'⟩ := ih hpacked
    refine ⟨packet.toList ++ more, s', ?_, ?_⟩
    · rw [List.map_cons, AudioPacker.packFrames, Method.run_bind, hpack]
      dsimp only
      rw [Method.run_bind, hget]
      dsimp only
      rw [Method.run_bind, hrun]
      rfl
    · rw [List.append_assoc, List.append_assoc] at hpacked'
      exact hpacked'

/-- What the sending needs of the packer. -/
def sending (s : AudioPacker) : List NSData × UInt16 := (s.framesToSend, s.nextSequenceNumber)

theorem Packed.of_sending {t : AudioPacker} (h : Packed number frames packets s)
    (hsame : t.sending = s.sending) : Packed number frames packets t :=
  ⟨h.finished, (congrArg Prod.fst hsame).trans h.framesToSend,
    (congrArg Prod.snd hsame).trans h.nextSequenceNumber⟩

theorem fixes_tryGetReceivedFrame : Method.Fixes sending tryGetReceivedFrame := by
  intro s
  cases hqueue : s.audioFrameToReceiveQueue with
  | nil => exact .of_run_eq (run_tryGetReceivedFrame_nil hqueue) rfl
  | cons frame frames => exact .of_run_eq (run_tryGetReceivedFrame_cons hqueue) rfl

theorem fixes_unpack (packet : Option EncodedAudioPacket) :
    Method.Fixes sending (unpackPotentiallyMissingAudioPacket packet) := by
  intro s
  cases packet with
  | none => exact .of_run_eq run_unpack_missing rfl
  | some packet =>
    by_cases heven : packet.audioData.length % audioFramesPerPacket = 0
    · exact .of_run_eq (run_unpack_of_even heven) rfl
    · unfold Method.Leaves Method.Ensures
      rw [run_unpack_of_odd heven]

end AudioPacker

/-- Received frames take the way of their own through the packer. -/
theorem AudioProcessor.fixes_pullFrame :
    Method.Fixes (fun s : AudioProcessor => s.audioPacker.sending) pullFrame := by
  have hpacker : ∀ {α : Type} {x : Method Exception AudioPacker α},
      Method.Fixes AudioPacker.sending x →
        Method.Fixes (fun s : AudioProcessor => s.audioPacker.sending) (onAudioPacker x) := by
    intro α x hx s
    rw [Method.Leaves, onAudioPacker, Method.ensures_onPart]
    exact hx s.audioPacker
  unfold pullFrame
  refine .bind (hpacker AudioPacker.fixes_tryGetReceivedFrame) fun frame => ?_
  cases frame with
  | some frame => exact .pure _
  | none =>
    refine .bind (.onPart _ fun _ _ => rfl) fun packet => ?_
    exact .bind (hpacker (AudioPacker.fixes_unpack packet)) fun _ =>
      hpacker AudioPacker.fixes_tryGetReceivedFrame

section Encoding
variable {ε δ : Type} {p : SignalProcessing ε δ} {before between after : ε}
  {frames frames' encoded encoded' : List NSData}

theorem Spoken.append (h : Spoken p frames before encoded between)
    (h' : Spoken p frames' between encoded' after) :
    Spoken p (frames ++ frames') before (encoded ++ encoded') after := by
  induction h with
  | nil => exact h'
  | cons hraw hlength hbits _ ih => exact .cons hraw hlength hbits (ih h')

theorem Spoken.length_eq (h : Spoken p frames before encoded after) :
    ∀ data ∈ encoded, data.length = 20 := by
  induction h with
  | nil => simp
  | cons _ hlength _ _ ih => exact List.forall_mem_cons.mpr ⟨hlength, ih⟩

theorem Spoken.rawLength_eq (h : Spoken p frames before encoded after) :
    ∀ rawData ∈ frames, rawData.length = decodedFrameSizeInBytes := by
  induction h with
  | nil => simp
  | cons hraw _ _ _ ih => exact List.forall_mem_cons.mpr ⟨hraw, ih⟩

theorem Spoken.count_eq (h : Spoken p frames before encoded after) :
    encoded.length = frames.length := by
  induction h with
  | nil => rfl
  | cons _ _ _ _ ih => rw [List.length_cons, List.length_cons, ih]

/-- Of the encoded frames, one at most is not in a finished packet. -/
theorem Spoken.length_unfinished (h : Spoken p frames before encoded after) :
    (frames.drop (encoded.length / audioFramesPerPacket * audioFramesPerPacket)).flatten.length ≤
      decodedFrameSizeInBytes := by
  let n := encoded.length / audioFramesPerPacket * audioFramesPerPacket
  change (frames.drop n).flatten.length ≤ _
  have hone : (frames.drop n).length ≤ 1 := by
    have hcount := h.count_eq
    have hdivides := Nat.div_add_mod' encoded.length audioFramesPerPacket
    have hrest := Nat.mod_lt encoded.length (show 0 < audioFramesPerPacket by decide)
    have htwo : audioFramesPerPacket = 2 := rfl
    rw [List.length_drop]
    omega
  rw [length_flatten_frames fun frame hframe =>
    h.rawLength_eq frame (List.mem_of_mem_drop hframe)]
  exact (Nat.mul_le_mul_right _ hone).trans_eq (Nat.one_mul _)

theorem Spoken.take (h : Spoken p frames before encoded after) (n : ℕ) :
    ∃ between, Spoken p (frames.take n) before (encoded.take n) between := by
  induction h generalizing n with
  | nil encodingState => exact ⟨encodingState, by simpa using .nil encodingState⟩
  | @cons _ _ _ _ before _ hraw hlength hbits _ ih =>
    cases n with
    | zero => exact ⟨before, .nil before⟩
    | succ n =>
      obtain ⟨between, hspoken⟩ := ih n
      exact ⟨between, .cons hraw hlength hbits hspoken⟩

/-- Whoever decodes what was spoken hears it, whatever else he has decoded before. -/
theorem Spoken.decodeAll {ε' δ' : Type} (p' : SignalProcessing ε' δ') (memory : Realloc)
    {c : SpeexCodec ε' δ'} (h : Spoken p frames before encoded after) (hc : c.Ready) :
    ∃ d, SpeexCodec.decodeAll p' memory (encoded.map some) c =
      .ok ((SpeexCodec.heardSamples p' (SpeexCodec.spokenNumbers p frames before)
        c.decodingState).map some, d) := by
  induction h generalizing c with
  | nil => exact ⟨c, rfl⟩
  | cons _ hlength hbits _ ih =>
    obtain ⟨next, hdecode, hnext, hstate, _⟩ :=
      SpeexCodec.decode_of_stream p' memory hc hlength hbits
    obtain ⟨d, hdecodeAll⟩ := ih hnext
    refine ⟨d, ?_⟩
    rw [List.map_cons, SpeexCodec.decodeAll, hdecode, SpeexBits.ok_bind]
    simp only
    rw [hdecodeAll, SpeexBits.ok_bind, hstate]
    rfl

end Encoding

namespace Recording
variable {ε δ : Type} {p : SignalProcessing ε δ} {memory : Realloc} {s : Recording ε δ}

theorem run_onRecordingQueue {α : Type} (x : Method Abort CyclicalBuffer α) (s : Recording ε δ) :
    (onRecordingQueue x).run.run s = ((x.run.run s.recordingQueue).1.mapError .abort,
      { s with recordingQueue := (x.run.run s.recordingQueue).2 }) := rfl

theorem run_onProcessor {α : Type} (x : Method Exception AudioProcessor α) (s : Recording ε δ) :
    (onProcessor x).run.run s =
      ((x.run.run s.processor).1.mapError (EncodingFailure.abort ∘ .raised),
        { s with processor := (x.run.run s.processor).2 }) := rfl

theorem run_onCodec {α : Type} {f : SpeexCodec ε δ → Except Fault (Throws α × SpeexCodec ε δ)}
    {a : α} {codec : SpeexCodec ε δ} (h : f s.codec = .ok (.ok a, codec)) :
    (onCodec f).run.run s = (.ok a, { s with codec }) := by
  change (match f s.codec with
    | .ok (result, codec) =>
      (result.mapError (EncodingFailure.abort ∘ .raised), ({ s with codec } : Recording ε δ))
    | .error e => (.error (.fault e), s)) = _
  rw [h]
  rfl

/-- A frame is taken from the front of the queue. -/
theorem dequeueFrame {queue : CyclicalBuffer} (h : queue.WellFormed)
    (hcapacity : queue.capacity < 2 ^ 32) (hcount : decodedFrameSizeInBytes ≤ queue.count.toNat) :
    ∃ rawFrame queue', (CyclicalBuffer.dequeueDataWithLength decodedFrameSizeInBytes).run.run queue =
        (.ok rawFrame, queue') ∧
      rawFrame.length = decodedFrameSizeInBytes ∧ queue.contents = rawFrame ++ queue'.contents ∧
      queue'.WellFormed ∧ queue'.capacity = queue.capacity ∧
      queue'.count.toNat + decodedFrameSizeInBytes = queue.count.toNat := by
  have hkeeps := CyclicalBuffer.keepsOffset_of_capacity_lt h hcapacity decodedFrameSizeInBytes
  obtain ⟨queue', hdiscard, hring⟩ := CyclicalBuffer.discard_spec hkeeps hcount
  have hcontents : queue'.contents = List.drop decodedFrameSizeInBytes queue.contents := by
    rw [CyclicalBuffer.contents, hring]
    exact RingBuffer.contents_advance h.ring hcount
  have hcapacity' : queue'.capacity = queue.capacity :=
    congrArg (List.length ∘ RingBuffer.cells) hring
  have hcount' : queue'.count.toNat = queue.count.toNat - decodedFrameSizeInBytes :=
    congrArg RingBuffer.count hring
  refine ⟨List.take decodedFrameSizeInBytes queue.contents, queue', ?_, ?_, ?_, h.of_advance hring,
    hcapacity', by omega⟩
  · rw [CyclicalBuffer.run_dequeueDataWithLength h, hdiscard]
  · apply List.length_take_of_le
    rw [CyclicalBuffer.length_contents h]
    exact hcount
  · rw [hcontents, List.take_append_drop]

/-- The loop ends with less than a frame in the queue. -/
theorem encodeFrames_spec (p : SignalProcessing ε δ) (memory : Realloc) {rounds : ℕ}
    (h : s.recordingQueue.WellFormed) (hcapacity : s.recordingQueue.capacity < 2 ^ 32)
    (hready : s.codec.Ready)
    (hrounds : s.recordingQueue.count.toNat < rounds * decodedFrameSizeInBytes) :
    ∃ frames encoded recordingQueue codec,
      (encodeFrames p memory rounds).run.run s =
        (.ok (encoded.map fun data => ⟨some data⟩), { s with recordingQueue, codec }) ∧
      Spoken p frames s.codec.encodingState encoded codec.encodingState ∧
      s.recordingQueue.contents = frames.flatten ++ recordingQueue.contents ∧
      recordingQueue.WellFormed ∧ recordingQueue.capacity = s.recordingQueue.capacity ∧
      recordingQueue.count.toNat < decodedFrameSizeInBytes ∧ codec.Ready := by
  induction rounds generalizing s with
  | zero => omega
  | succ rounds ih =>
    rw [encodeFrames, Method.run_bind, Method.run_get]
    dsimp only
    by_cases hcount : s.recordingQueue.enqueuedLength ≥ decodedFrameSizeInBytes
    · obtain ⟨rawFrame, queue, hdequeue, hlength, hcontents, hqueue, hsame, hless⟩ :=
        dequeueFrame h hcapacity hcount
      obtain ⟨data, codec, hencode, hcodec, hstate, _, _, hdata, hbits⟩ :=
        SpeexCodec.encode_spec (p := p) memory hready hlength
      have hfewer : queue.count.toNat < rounds * decodedFrameSizeInBytes := by
        rw [Nat.succ_mul] at hrounds
        omega
      have hcodecRun : (onCodec (SpeexCodec.encode p memory rawFrame)).run.run
          { s with recordingQueue := queue } =
          (.ok data, { s with recordingQueue := queue, codec := codec }) := run_onCodec hencode
      obtain ⟨frames, encoded, recordingQueue, codec', hrun, hspoken, hcontents', hwell, hcapacity',
        hshort, hready'⟩ := ih (s := { s with recordingQueue := queue, codec := codec }) hqueue
          (hsame.trans_lt hcapacity) hcodec hfewer
      refine ⟨rawFrame :: frames, data :: encoded, recordingQueue, codec', ?_, ?_, ?_, hwell,
        hcapacity'.trans hsame, hshort, hready'⟩
      · rw [if_pos hcount, Method.run_bind, run_onRecordingQueue, hdequeue]
        dsimp only [Except.mapError]
        rw [Method.run_bind, hcodecRun]
        dsimp only
        rw [Method.run_bind, hrun]
        rfl
      · dsimp only at hspoken
        rw [hstate] at hspoken
        exact .cons hlength hdata hbits hspoken
      · rw [hcontents, hcontents', List.flatten_cons, List.append_assoc]
    · rw [if_neg hcount]
      exact ⟨[], [], s.recordingQueue, s.codec, rfl, .nil _, rfl, h, rfl, Nat.lt_of_not_le hcount,
        hready⟩

/-- All whole frames are sent, but for one that may wait for another. -/
theorem handleNewDataRecorded_spec (p : SignalProcessing ε δ) (memory : Realloc)
    {number : UInt16} {before : List NSData}
    (h : s.recordingQueue.WellFormed) (hcapacity : s.recordingQueue.capacity < 2 ^ 32)
    (hready : s.codec.Ready)
    (hpacked : AudioPacker.Packed number before s.sent s.processor.audioPacker) :
    ∃ frames encoded recordingQueue codec processor sent,
      (handleNewDataRecorded p memory).run.run s =
        (.ok (), { s with recordingQueue, codec, processor, sent }) ∧
      Spoken p frames s.codec.encodingState encoded codec.encodingState ∧
      AudioPacker.Packed number (before ++ encoded) sent processor.audioPacker ∧
      s.recordingQueue.contents = frames.flatten ++ recordingQueue.contents ∧
      recordingQueue.WellFormed ∧ recordingQueue.capacity = s.recordingQueue.capacity ∧
      recordingQueue.count.toNat < decodedFrameSizeInBytes ∧ codec.Ready := by
  have hrounds : s.recordingQueue.count.toNat <
      (s.recordingQueue.enqueuedLength / decodedFrameSizeInBytes + 1) * decodedFrameSizeInBytes := by
    have hdivides := Nat.div_add_mod' s.recordingQueue.enqueuedLength decodedFrameSizeInBytes
    have hrest := Nat.mod_lt s.recordingQueue.enqueuedLength
      (show 0 < decodedFrameSizeInBytes by decide)
    rw [Nat.succ_mul]
    change s.recordingQueue.enqueuedLength < _
    omega
  obtain ⟨frames, encoded, recordingQueue, codec, hencode, hspoken, hcontents, hwell, hsame, hshort,
    hcodec⟩ := encodeFrames_spec p memory h hcapacity hready hrounds
  obtain ⟨more, audioPacker, hpack, hpacked'⟩ := hpacked.packFrames encoded
  refine ⟨frames, encoded, recordingQueue, codec, { s.processor with audioPacker }, s.sent ++ more, ?_,
    hspoken, hpacked', hcontents, hwell, hsame, hshort, hcodec⟩
  rw [handleNewDataRecorded, Method.run_bind, encodeAudioPacketsFromBuffer, Method.run_bind,
    Method.run_get]
  dsimp only
  rw [Method.run_bind, hencode]
  dsimp only
  rw [run_onProcessor, AudioProcessor.onAudioPacker, Method.run_onPart, hpack]
  rfl

/-- Decoding a received frame leaves alone what the sending needs. -/
theorem tryDecodeOrInferFrame_spec (p : SignalProcessing ε δ) (memory : Realloc)
    (hready : s.codec.Ready) :
    ∃ processor codec haveReceivedDataYet, ((tryDecodeOrInferFrame p memory).run.run s).2 =
        { s with processor, codec, haveReceivedDataYet } ∧
      processor.audioPacker.sending = s.processor.audioPacker.sending ∧
      codec.encodingState = s.codec.encodingState ∧ codec.Ready := by
  have hsending := (AudioProcessor.fixes_pullFrame s.processor).run
  rw [tryDecodeOrInferFrame, Method.run_bind, run_onProcessor]
  generalize AudioProcessor.pullFrame.run.run s.processor = pulled at hsending ⊢
  obtain ⟨result, processor⟩ := pulled
  cases result with
  | error e =>
    exact ⟨processor, s.codec, s.haveReceivedDataYet, rfl, hsending, rfl, hready⟩
  | ok frame =>
    dsimp only [Except.mapError]
    rw [Method.run_bind, Method.run_modify]
    dsimp only
    rw [Method.run_bind, Method.run_get]
    dsimp only
    by_cases hyet :
        (s.haveReceivedDataYet || !frame.any EncodedAudioFrame.isMissingAudioData) = true
    · obtain ⟨raw, codec, hdecode, hcodec, _, _, _, hencoder⟩ := SpeexCodec.decode_spec p memory
        (frame.bind EncodedAudioFrame.audioData) hready
      have hrun : (onCodec fun c => (c.decode p memory
          (frame.bind EncodedAudioFrame.audioData)).map fun (raw, c) => (.ok raw, c)).run.run
          { s with
            processor
            haveReceivedDataYet :=
              s.haveReceivedDataYet || !frame.any EncodedAudioFrame.isMissingAudioData } =
          (.ok raw,
            { s with
              processor
              codec
              haveReceivedDataYet :=
                s.haveReceivedDataYet || !frame.any EncodedAudioFrame.isMissingAudioData }) := by
        apply run_onCodec
        dsimp only
        rw [hdecode]
        rfl
      rw [if_pos hyet, hrun]
      exact ⟨processor, codec, _, rfl, hsending, congrArg Prod.fst hencoder, hcodec⟩
    · rw [if_neg hyet]
      exact ⟨processor, s.codec, _, rfl, hsending, rfl, hready⟩

/-- What holds between two steps, where `recorded` has been rendered. The audio that is `behind` is
that of the buffers that wait, or it was dropped when the call was cancelled. -/
structure Kept (p : SignalProcessing ε δ) (encodingState : ε) (number : UInt16) (recorded : NSData)
    (s : Recording ε δ) : Prop where
  size : ∀ buffer, (s.buffers buffer).mData.length = bufferSize
  nodup : s.held.Nodup
  whole : s.state ≠ .terminated → s.held.Perm (List.range initialNumberOfBuffers)
  wellFormed : s.recordingQueue.WellFormed
  capacity_le : s.recordingQueue.capacity ≤ 3 * (decodedFrameSizeInBytes + bufferSize)
  short : s.enqueued = false → s.recordingQueue.count.toNat < decodedFrameSizeInBytes
  ready : s.codec.Ready
  audio : ∃ frames encoded behind, Spoken p frames encodingState encoded s.codec.encodingState ∧
    AudioPacker.Packed number encoded s.sent s.processor.audioPacker ∧
    recorded = frames.flatten ++ s.recordingQueue.contents ++ behind ∧
    (s.state ≠ .terminated → behind = s.waiting)

variable {encodingState : ε} {number : UInt16} {audio : NSData} {t : Recording ε δ}

theorem Kept.recordingCallback (h : Kept p encodingState number audio s) {buffer : ℕ}
    (hunused : buffer ∈ s.unusedBuffers) (hrendering : s.rendering = none) :
    Kept p encodingState number audio
      { s with unusedBuffers := s.unusedBuffers.erase buffer, rendering := some buffer } := by
  have hperm : ({ s with
      unusedBuffers := s.unusedBuffers.erase buffer
      rendering := some buffer } : Recording ε δ).held.Perm s.held := by
    unfold held
    rw [hrendering]
    change (buffer :: (s.posted ++ s.unusedBuffers.erase buffer)).Perm (s.posted ++ s.unusedBuffers)
    exact List.perm_middle.symm.trans ((List.perm_cons_erase hunused).symm.append_left s.posted)
  exact ⟨h.size, hperm.nodup_iff.mpr h.nodup, fun hstate => hperm.trans (h.whole hstate),
    h.wellFormed, h.capacity_le, h.short, h.ready, h.audio⟩

theorem recordedAudio_overwrite (mData : NSData) (samples : List Int16) :
    RemoteIOBufferListWrapper.recordedAudio
      ⟨overwrite mData 0 (SpeexCodec.dataWithSamples samples), samples.length⟩ =
        SpeexCodec.dataWithSamples samples := by
  have hlength : (SpeexCodec.dataWithSamples samples).length =
      samples.length * sampleSizeInBytes.toNat := by
    rw [SpeexCodec.length_dataWithSamples, Nat.mul_comm]
    rfl
  unfold RemoteIOBufferListWrapper.recordedAudio stretch overwrite
  rw [← hlength, List.take_zero, List.nil_append, List.drop_zero, List.take_left]

/-- The buffer that is rendered into is none of those that wait. -/
theorem Kept.audioUnitRender (h : Kept p encodingState number audio s) {buffer : ℕ}
    {samples : List Int16} (hrendering : s.rendering = some buffer)
    (hfits : samples.length * sampleSizeInBytes.toNat ≤ bufferSize) :
    Kept p encodingState number (audio ++ SpeexCodec.dataWithSamples samples)
      { s with
        buffers := Function.update s.buffers buffer
          ⟨overwrite (s.buffers buffer).mData 0 (SpeexCodec.dataWithSamples samples), samples.length⟩
        rendering := none
        posted := s.posted ++ [buffer] } := by
  have hheld : s.held = buffer :: (s.posted ++ s.unusedBuffers) := by
    unfold held
    rw [hrendering]
    rfl
  have hfresh : buffer ∉ s.posted := by
    have hnodup := h.nodup
    rw [hheld, List.nodup_cons, List.mem_append, not_or] at hnodup
    exact hnodup.1.1
  have hperm : (s.posted ++ [buffer] ++ s.unusedBuffers).Perm s.held := by
    rw [hheld, List.append_assoc, List.singleton_append]
    exact List.perm_middle
  have hlength : (overwrite (s.buffers buffer).mData 0
      (SpeexCodec.dataWithSamples samples)).length = bufferSize := by
    rw [length_overwrite, h.size buffer]
    rw [SpeexCodec.length_dataWithSamples, h.size buffer, Nat.zero_add, Nat.mul_comm]
    exact hfits
  have hwaiting : ({ s with
      buffers := Function.update s.buffers buffer
        ⟨overwrite (s.buffers buffer).mData 0 (SpeexCodec.dataWithSamples samples), samples.length⟩
      rendering := none
      posted := s.posted ++ [buffer] } : Recording ε δ).waiting =
        s.waiting ++ SpeexCodec.dataWithSamples samples := by
    unfold waiting
    dsimp only
    rw [List.flatMap_append, List.flatMap_singleton, Function.update_self,
      recordedAudio_overwrite]
    congr 1
    apply List.flatMap_congr
    intro other hother
    rw [Function.update_of_ne]
    rintro rfl
    exact hfresh hother
  obtain ⟨frames, encoded, behind, hspoken, hpacked, haudio, hbehind⟩ := h.audio
  refine ⟨?_, hperm.nodup_iff.mpr h.nodup, fun hstate => hperm.trans (h.whole hstate), h.wellFormed,
    h.capacity_le, h.short, h.ready, frames, encoded, behind ++ SpeexCodec.dataWithSamples samples,
    hspoken, hpacked, ?_, ?_⟩
  · intro other
    dsimp only
    by_cases hother : other = buffer
    · rw [hother, Function.update_self]
      exact hlength
    · rw [Function.update_of_ne hother]
      exact h.size other
  · rw [haudio, List.append_assoc _ behind]
  · intro hstate
    rw [hwaiting, hbehind hstate]

/-- There is room for the data of a buffer behind what is left of a frame. -/
theorem Kept.onRecordedDataIntoBuffer_eq (h : Kept p encodingState number audio s) (buffer : ℕ)
    (posted : List ℕ) (hidle : s.enqueued = false) (hstate : s.state ≠ .terminated) :
    ∃ queue, ({ s with posted } : Recording ε δ).onRecordedDataIntoBuffer buffer =
        { s with
          posted
          recordingQueue := queue
          unusedBuffers := s.unusedBuffers ++ [buffer]
          enqueued := true } ∧
      queue.WellFormed ∧
      queue.contents = s.recordingQueue.contents ++ (s.buffers buffer).recordedAudio ∧
      queue.capacity ≤ 3 * (decodedFrameSizeInBytes + bufferSize) := by
  have hlength : (s.buffers buffer).recordedAudio.length ≤ bufferSize := by
    rw [← h.size buffer]
    unfold RemoteIOBufferListWrapper.recordedAudio stretch
    rw [List.length_take, List.drop_zero]
    exact Nat.min_le_right _ _
  have hcount := h.short hidle
  have hcapacity := h.capacity_le
  have hoffset := h.wellFormed.offset_lt
  have hframe : decodedFrameSizeInBytes = 320 := rfl
  have hbuffer : bufferSize = 8000 := rfl
  have hroom : s.recordingQueue.HasRoom (s.buffers buffer).recordedAudio := by
    intro _
    refine ⟨by omega, .inr ?_⟩
    rw [Nat.mod_eq_of_lt (by omega : _ < 2 ^ 32)]
  obtain ⟨queue, henqueue, hwell, hcontents, _, hgrown⟩ :=
    CyclicalBuffer.enqueueData_spec h.wellFormed hroom
  refine ⟨queue, ?_, hwell, hcontents, by omega⟩
  unfold Recording.onRecordedDataIntoBuffer
  rw [if_neg hstate]
  dsimp only
  rw [henqueue]

theorem Kept.onRecordedDataIntoBuffer (h : Kept p encodingState number audio s) {buffer : ℕ}
    {posted : List ℕ} (hposted : s.posted = buffer :: posted) (hidle : s.enqueued = false) :
    Kept p encodingState number audio ({ s with posted }.onRecordedDataIntoBuffer buffer) := by
  obtain ⟨frames, encoded, behind, hspoken, hpacked, haudio, hbehind⟩ := h.audio
  by_cases hstate : s.state = .terminated
  · have hsub : ({ s with posted } : Recording ε δ).held.Sublist s.held := by
      unfold held
      rw [hposted]
      exact ((List.sublist_cons_self buffer posted).append_left _).append_right _
    have hstep : ({ s with posted } : Recording ε δ).onRecordedDataIntoBuffer buffer =
        { s with posted } := if_pos hstate
    rw [hstep]
    exact ⟨h.size, h.nodup.sublist hsub, fun hlive => absurd hstate hlive, h.wellFormed,
      h.capacity_le, h.short, h.ready, frames, encoded, behind, hspoken, hpacked, haudio,
      fun hlive => absurd hstate hlive⟩
  · obtain ⟨queue, hstep, hwell, hcontents, hcapacity⟩ :=
      h.onRecordedDataIntoBuffer_eq buffer posted hidle hstate
    have hperm : (s.rendering.toList ++ posted ++ (s.unusedBuffers ++ [buffer])).Perm s.held := by
      unfold held
      rw [hposted, List.append_assoc, List.append_assoc]
      refine List.Perm.append_left _ ?_
      rw [← List.append_assoc]
      exact List.perm_append_singleton buffer (posted ++ s.unusedBuffers)
    have hwaiting : s.waiting = (s.buffers buffer).recordedAudio ++
        posted.flatMap fun buffer => (s.buffers buffer).recordedAudio := by
      unfold waiting
      rw [hposted, List.flatMap_cons]
    rw [hstep]
    refine ⟨h.size, hperm.nodup_iff.mpr h.nodup, fun hlive => hperm.trans (h.whole hlive), hwell,
      hcapacity, by rintro ⟨⟩, h.ready, frames, encoded,
      posted.flatMap fun buffer => (s.buffers buffer).recordedAudio, hspoken, hpacked, ?_,
      fun _ => rfl⟩
    dsimp only
    rw [haudio, hbehind hstate, hwaiting, hcontents]
    simp only [List.append_assoc]

theorem Kept.handleNewDataRecorded (h : Kept p encodingState number audio s) (memory : Realloc) :
    Kept p encodingState number audio
      ((handleNewDataRecorded p memory).run.run { s with enqueued := false }).2 := by
  obtain ⟨frames, encoded, behind, hspoken, hpacked, haudio, hbehind⟩ := h.audio
  have hcapacity := h.capacity_le
  have hlimit : 3 * (decodedFrameSizeInBytes + bufferSize) < 2 ^ 32 := by decide
  obtain ⟨more, encodedMore, queue, codec, processor, sent, hrun, hspoken', hpacked', hcontents,
    hwell, hsame, hshort, hready⟩ := handleNewDataRecorded_spec p memory
      (s := { s with enqueued := false }) h.wellFormed (hcapacity.trans_lt hlimit) h.ready hpacked
  rw [hrun]
  refine ⟨h.size, h.nodup, h.whole, hwell, hsame.trans_le hcapacity, fun _ => hshort, hready,
    frames ++ more, encoded ++ encodedMore, behind, hspoken.append hspoken', hpacked', ?_, hbehind⟩
  rw [haudio, hcontents, List.flatten_append]
  simp only [List.append_assoc]

theorem Kept.receivedPacket (h : Kept p encodingState number audio s) (packet : EncodedAudioPacket) :
    Kept p encodingState number audio
      ((onProcessor (AudioProcessor.receivedPacket packet)).run.run s).2 := by
  have hpacker : (AudioProcessor.receivedPacket packet).Leaves s.processor fun t =>
      t.audioPacker = s.processor.audioPacker := by
    refine Method.Fixes.bind (φ := AudioProcessor.audioPacker) ?_ ?_ s.processor
    · exact .onPart _ fun _ _ => rfl
    · exact fun _ => .pure _
  have hleft := hpacker.run
  obtain ⟨frames, encoded, behind, hspoken, hpacked, haudio, hbehind⟩ := h.audio
  rw [run_onProcessor]
  refine ⟨h.size, h.nodup, h.whole, h.wellFormed, h.capacity_le, h.short, h.ready, frames, encoded,
    behind, hspoken, ?_, haudio, hbehind⟩
  dsimp only
  rw [hleft]
  exact hpacked

theorem Kept.tryDecodeOrInferFrame (h : Kept p encodingState number audio s) (memory : Realloc) :
    Kept p encodingState number audio ((tryDecodeOrInferFrame p memory).run.run s).2 := by
  obtain ⟨processor, codec, haveReceivedDataYet, hrun, hsending, hstate, hready⟩ :=
    tryDecodeOrInferFrame_spec p memory h.ready
  obtain ⟨frames, encoded, behind, hspoken, hpacked, haudio, hbehind⟩ := h.audio
  rw [hrun]
  refine ⟨h.size, h.nodup, h.whole, h.wellFormed, h.capacity_le, h.short, hready, frames, encoded,
    behind, ?_, hpacked.of_sending hsending, haudio, hbehind⟩
  dsimp only
  rw [hstate]
  exact hspoken

theorem Kept.cancel (h : Kept p encodingState number audio s) :
    Kept p encodingState number audio { s with state := .terminated, unusedBuffers := [] } := by
  obtain ⟨frames, encoded, behind, hspoken, hpacked, haudio, _⟩ := h.audio
  have hsub : ({ s with
      state := .terminated
      unusedBuffers := [] } : Recording ε δ).held.Sublist s.held :=
    (List.nil_sublist s.unusedBuffers).append_left _
  exact ⟨h.size, h.nodup.sublist hsub, fun hlive => absurd rfl hlive, h.wellFormed, h.capacity_le,
    h.short, h.ready, frames, encoded, behind, hspoken, hpacked, haudio, fun hlive => absurd rfl hlive⟩

theorem Kept.step (h : Kept p encodingState number audio s) {e : Event} (hstep : step p s e = some t)
    (hfits : e.Fits) (tr : History (Recording ε δ) Event) (haudio : audio = recorded tr) :
    Kept p encodingState number (recorded ((e, t) :: tr)) t := by
  subst haudio
  cases e with
  | start =>
    simp only [Recording.step] at hstep
    split_ifs at hstep with hstate
    obtain rfl := Option.some.inj hstep
    obtain ⟨frames, encoded, behind, hspoken, hpacked, haudio, hbehind⟩ := h.audio
    have hlive : s.state ≠ .terminated := by
      rw [hstate]
      decide
    exact ⟨h.size, h.nodup, fun _ => h.whole hlive, h.wellFormed, h.capacity_le, h.short, h.ready,
      frames, encoded, behind, hspoken, hpacked, haudio, fun _ => hbehind hlive⟩
  | recordingCallback anyObject =>
    cases anyObject with
    | none =>
      simp only [Recording.step] at hstep
      split_ifs at hstep
      obtain rfl := Option.some.inj hstep
      exact h
    | some buffer =>
      simp only [Recording.step] at hstep
      split_ifs at hstep with hcase
      obtain rfl := Option.some.inj hstep
      exact h.recordingCallback hcase.1 hcase.2
  | audioUnitRender samples =>
    simp only [Recording.step] at hstep
    split at hstep
    · obtain rfl := Option.some.inj hstep
      exact h.audioUnitRender ‹_› hfits
    · cases hstep
  | onRecordedDataIntoBuffer =>
    simp only [Recording.step] at hstep
    split at hstep
    · obtain rfl := Option.some.inj hstep
      exact h.onRecordedDataIntoBuffer ‹_› ‹_›
    · cases hstep
  | handleNewDataRecorded memory =>
    simp only [Recording.step] at hstep
    split_ifs at hstep
    obtain rfl := Option.some.inj hstep
    exact h.handleNewDataRecorded memory
  | receivedPacket packet =>
    obtain rfl := Option.some.inj hstep
    exact h.receivedPacket packet
  | tryDecodeOrInferFrame memory =>
    simp only [Recording.step] at hstep
    split_ifs at hstep
    obtain rfl := Option.some.inj hstep
    exact h.tryDecodeOrInferFrame memory
  | cancel =>
    obtain rfl := Option.some.inj hstep
    exact h.cancel

theorem Kept.step_onRecordedDataIntoBuffer (h : Kept p encodingState number audio s) {buffer : ℕ}
    {posted : List ℕ} (hposted : s.posted = buffer :: posted) (hidle : s.enqueued = false)
    (hstate : s.state ≠ .terminated) :
    ∃ t, Recording.step p s .onRecordedDataIntoBuffer = some t ∧ t.state = s.state ∧
      t.posted = posted ∧ t.enqueued = true := by
  obtain ⟨queue, henqueue, _⟩ := h.onRecordedDataIntoBuffer_eq buffer posted hidle hstate
  have hstep : Recording.step p s .onRecordedDataIntoBuffer =
      some (({ s with posted } : Recording ε δ).onRecordedDataIntoBuffer buffer) := by
    rw [Recording.step, hposted, hidle]
  rw [henqueue] at hstep
  exact ⟨_, hstep, rfl, rfl, rfl⟩

theorem Kept.step_handleNewDataRecorded (h : Kept p encodingState number audio s)
    (memory : Realloc) (henqueued : s.enqueued = true) :
    ∃ t, Recording.step p s (.handleNewDataRecorded memory) = some t ∧ t.state = s.state ∧
      t.posted = s.posted ∧ t.enqueued = false := by
  obtain ⟨_, _, _, _, hpacked, _⟩ := h.audio
  have hcapacity : s.recordingQueue.capacity < 2 ^ 32 := h.capacity_le.trans_lt (by decide)
  obtain ⟨_, _, _, _, _, _, hhandle, _⟩ := handleNewDataRecorded_spec p memory
    (s := { s with enqueued := false }) h.wellFormed hcapacity h.ready hpacked
  have hstep : Recording.step p s (.handleNewDataRecorded memory) =
      some ((Recording.handleNewDataRecorded p memory).run.run { s with enqueued := false }).2 :=
    if_pos henqueued
  rw [hhandle] at hstep
  exact ⟨_, hstep, rfl, rfl, rfl⟩

section Runs
variable {malloced : ℕ → Vector UInt8 bufferSize} {opened : SpeexCodec ε δ}
  {watcher : Option JitterWatcher} {secureRandomUInt16 : UInt16}
  {tr : History (Recording ε δ) Event} {encodingState : ε} {decodingState : δ}
  {decodingBuffer : Vector Int16 (frameSize * maxFrames)}

theorem kept_init (p : SignalProcessing ε δ) (malloced : ℕ → Vector UInt8 bufferSize)
    (watcher : Option JitterWatcher) (secureRandomUInt16 : UInt16) (hready : opened.Ready) :
    Kept p opened.encodingState (secureRandomUInt16 &&& 0x3FFF) []
      (machine p malloced opened watcher secureRandomUInt16).init where
  size _ := Vector.length_toList
  nodup := List.nodup_range
  whole _ := .refl _
  wellFormed := CyclicalBuffer.wellFormed_withCapacity (by decide)
  capacity_le := by
    change (List.replicate 100 (0 : UInt8)).length ≤ _
    rw [List.length_replicate]
    decide
  short _ := (by decide : 0 < decodedFrameSizeInBytes)
  ready := hready
  audio := by
    refine ⟨[], [], [], .nil _, ⟨rfl, rfl, ?_⟩, rfl, fun _ => rfl⟩
    exact (UInt16.add_zero _).symm

theorem kept_of_run (hready : opened.Ready)
    (h : (machine p malloced opened watcher secureRandomUInt16).Run tr)
    (hfits : Machine.Guarded (fun _ e => e.Fits) tr) :
    Kept p opened.encodingState (secureRandomUInt16 &&& 0x3FFF) (recorded tr)
      ((machine p malloced opened watcher secureRandomUInt16).last tr) :=
  h.of_guarded (P := fun tr => Kept p opened.encodingState (secureRandomUInt16 &&& 0x3FFF)
      (recorded tr) ((machine p malloced opened watcher secureRandomUInt16).last tr))
    (kept_init p malloced watcher secureRandomUInt16 hready)
    (fun tr _ _ _ hkept hstep hfits => hkept.step hstep hfits tr rfl) hfits

/-- However the callbacks, the encoding, the decoding of received audio and the end of the call
interleave: the packets that are sent are the recorded audio, cut into frames in the order in which
it was recorded, two frames in a packet, with consecutive numbers. Nothing is lost, sent twice or
changed on the way: the rest is in the queue, less than a frame unless the queue is about to be
emptied, and in the buffers that wait. -/
theorem sent_of_run
    (hopen : SpeexCodec.openSpeex p encodingState decodingState decodingBuffer = .ok (.ok opened))
    (h : (machine p malloced opened watcher secureRandomUInt16).Run tr)
    (hfits : Machine.Guarded (fun _ e => e.Fits) tr) :
    let s := (machine p malloced opened watcher secureRandomUInt16).last tr
    ∃ frames encoded behind,
      Spoken p frames opened.encodingState encoded s.codec.encodingState ∧
      s.sent = AudioPacker.packetsOf (secureRandomUInt16 &&& 0x3FFF) encoded ∧
      recorded tr = frames.flatten ++ s.recordingQueue.contents ++ behind ∧
      (s.enqueued = false → s.recordingQueue.contents.length < decodedFrameSizeInBytes) ∧
      (s.state ≠ .terminated → behind = s.waiting) := by
  intro s
  have hkept := kept_of_run (SpeexCodec.ready_of_openSpeex hopen).1 h hfits
  obtain ⟨frames, encoded, behind, hspoken, hpacked, haudio, hbehind⟩ := hkept.audio
  refine ⟨frames, encoded, behind, hspoken, hpacked.finished, haudio, ?_, hbehind⟩
  intro hidle
  rw [CyclicalBuffer.length_contents hkept.wellFormed]
  exact hkept.short hidle

/-- Samples are recorded while a packet is received. -/
def sample (samples : List Int16) : List Event :=
  [.start, .recordingCallback (some 3), .receivedPacket ⟨[], 7⟩, .audioUnitRender samples,
    .onRecordedDataIntoBuffer, .handleNewDataRecorded none]

/-- The recorder before the sample. -/
def sampleMachine (opened : SpeexCodec UInt32 UInt32) : Machine (Recording UInt32 UInt32) Event :=
  machine SpeexCodec.humming (fun _ => Vector.replicate bufferSize 0) opened none 0xFFFF

theorem exists_sample {opened : SpeexCodec UInt32 UInt32} (hready : opened.Ready)
    (samples : List Int16) (hlength : samples.length * sampleSizeInBytes.toNat ≤ bufferSize) :
    ∃ tr, (sampleMachine opened).Run tr ∧ tr.map Prod.fst = (sample samples).reverse ∧
      Machine.Guarded (fun _ e => e.Fits) tr ∧ recorded tr = SpeexCodec.dataWithSamples samples ∧
      let s := (sampleMachine opened).last tr
      s.state ≠ .terminated ∧ s.posted = [] ∧ s.enqueued = false := by
  have hbefore : ∃ tr, (sampleMachine opened).exec [.start, .recordingCallback (some 3),
        .receivedPacket ⟨[], 7⟩, .audioUnitRender samples] = some tr ∧
      Machine.Guarded (fun _ e => e.Fits) tr ∧ recorded tr = SpeexCodec.dataWithSamples samples ∧
      let s := (sampleMachine opened).last tr
      s.state = .started ∧ s.posted = [3] ∧ s.enqueued = false :=
    ⟨_, rfl, ⟨hlength, trivial, trivial, trivial, trivial⟩, rfl, rfl, rfl, rfl⟩
  obtain ⟨tr, htr, hfits, hrecorded, hstarted, hposted, hidle⟩ := hbefore
  have hrun := Machine.run_of_exec htr
  have hlive : ((sampleMachine opened).last tr).state ≠ .terminated := by
    rw [hstarted]
    decide
  obtain ⟨t, hstep, hstate, hposted', henqueued⟩ :=
    (kept_of_run hready hrun hfits).step_onRecordedDataIntoBuffer hposted hidle hlive
  have hrun' : (sampleMachine opened).Run ((.onRecordedDataIntoBuffer, t) :: tr) := ⟨hrun, hstep⟩
  have hfits' : Machine.Guarded (fun _ e => e.Fits) ((Event.onRecordedDataIntoBuffer, t) :: tr) :=
    ⟨trivial, hfits⟩
  obtain ⟨u, hstep', hstate', hposted'', hidle'⟩ :=
    (kept_of_run hready hrun' hfits').step_handleNewDataRecorded none henqueued
  refine ⟨(.handleNewDataRecorded none, u) :: (.onRecordedDataIntoBuffer, t) :: tr, ⟨hrun', hstep'⟩,
    ?_, ⟨trivial, hfits'⟩, hrecorded, fun h => hlive ((hstate'.trans hstate).symm.trans h),
    hposted''.trans hposted', hidle'⟩
  rw [List.map_cons, List.map_cons, Machine.map_fst_of_exec htr]
  rfl

/-- Two frames of a tone each, and ten samples. -/
def sampleTones : List Int16 :=
  List.replicate frameSize 5 ++ List.replicate frameSize 9 ++ List.replicate 10 1

theorem length_sampleTones : sampleTones.length * sampleSizeInBytes.toNat ≤ bufferSize := by
  decide +kernel

theorem cut_sampleTones {frames : List NSData} {rest : NSData}
    (hframes : ∀ frame ∈ frames, frame.length = decodedFrameSizeInBytes)
    (hrest : rest.length < decodedFrameSizeInBytes)
    (h : SpeexCodec.dataWithSamples sampleTones = frames.flatten ++ rest) :
    frames = [SpeexCodec.tone 5, SpeexCodec.tone 9] ∧
      rest = SpeexCodec.dataWithSamples (List.replicate 10 1) := by
  have htones : SpeexCodec.dataWithSamples sampleTones =
      [SpeexCodec.tone 5, SpeexCodec.tone 9].flatten ++
        SpeexCodec.dataWithSamples (List.replicate 10 1) := by decide +kernel
  refine eq_of_flatten_append hframes ?_ hrest (by decide) (h.symm.trans htones)
  simp [SpeexCodec.length_tone]

/-- Both frames are in a packet then. -/
theorem exists_sampleTones {opened : SpeexCodec UInt32 UInt32} (hready : opened.Ready) :
    ∃ tr, (sampleMachine opened).Run tr ∧ tr.map Prod.fst = (sample sampleTones).reverse ∧
      Machine.Guarded (fun _ e => e.Fits) tr ∧
      recorded tr = SpeexCodec.dataWithSamples sampleTones ∧
      let s := (sampleMachine opened).last tr
      s.state ≠ .terminated ∧ s.posted = [] ∧ s.enqueued = false ∧ s.sent.length = 1 := by
  obtain ⟨tr, hrun, hevents, hfits, hrecorded, hlive, hposted, hidle⟩ :=
    exists_sample hready sampleTones length_sampleTones
  refine ⟨tr, hrun, hevents, hfits, hrecorded, hlive, hposted, hidle, ?_⟩
  have hkept := kept_of_run hready hrun hfits
  obtain ⟨frames, encoded, behind, hspoken, hpacked, haudio, hbehind⟩ := hkept.audio
  have hnone : behind = [] := (hbehind hlive).trans (congrArg (List.flatMap _) hposted)
  have hfew := hkept.short hidle
  rw [← CyclicalBuffer.length_contents hkept.wellFormed] at hfew
  rw [hrecorded, hnone, List.append_nil] at haudio
  obtain ⟨rfl, -⟩ := cut_sampleTones hspoken.rawLength_eq hfew haudio
  have hsent := congrArg List.length hpacked.finished
  rw [AudioPacker.length_packetsOf, hspoken.count_eq] at hsent
  exact hsent

/-- The ten samples stay in the queue. -/
theorem sent_of_sample : ∃ opened tr,
    SpeexCodec.openSpeex SpeexCodec.humming 0 0 (Vector.replicate (frameSize * maxFrames) 0) =
      .ok (.ok opened) ∧
    (sampleMachine opened).Run tr ∧ tr.map Prod.fst = (sample sampleTones).reverse ∧
    let s := (sampleMachine opened).last tr
    ∃ first second,
      Spoken SpeexCodec.humming [SpeexCodec.tone 5, SpeexCodec.tone 9] opened.encodingState
        [first, second] s.codec.encodingState ∧
      s.sent = [⟨first ++ second, 0x3FFF⟩] ∧
      s.recordingQueue.contents = SpeexCodec.dataWithSamples (List.replicate 10 1) := by
  obtain ⟨opened, hopen, hready, _⟩ := SpeexCodec.openSpeex_spec SpeexCodec.humming 0 0
    (Vector.replicate (frameSize * maxFrames) 0)
  obtain ⟨tr, hrun, hevents, hfits, hrecorded, hlive, hposted, hidle⟩ :=
    exists_sample hready sampleTones length_sampleTones
  obtain ⟨frames, encoded, behind, hspoken, hsent, haudio, hshort, hbehind⟩ :=
    sent_of_run hopen hrun hfits
  have hnone : behind = [] := (hbehind hlive).trans (congrArg (List.flatMap _) hposted)
  rw [hrecorded, hnone, List.append_nil] at haudio
  obtain ⟨rfl, hrest⟩ := cut_sampleTones hspoken.rawLength_eq (hshort hidle) haudio
  obtain ⟨first, second, rfl⟩ := List.length_eq_two.mp hspoken.count_eq
  exact ⟨opened, tr, hopen, hrun, hevents, first, second, hspoken, hsent, hrest⟩

/-- Until the call ends, every buffer is in one place: it is unused, rendered into, or waits. Recorded
audio is dropped only while all of them wait, and no buffer is ever in two places. -/
theorem buffers_of_run
    (hopen : SpeexCodec.openSpeex p encodingState decodingState decodingBuffer = .ok (.ok opened))
    (h : (machine p malloced opened watcher secureRandomUInt16).Run tr)
    (hfits : Machine.Guarded (fun _ e => e.Fits) tr) :
    let s := (machine p malloced opened watcher secureRandomUInt16).last tr
    s.held.Nodup ∧
      (s.state ≠ .terminated → s.held.Perm (List.range initialNumberOfBuffers) ∧
        ((step p s (.recordingCallback none)).isSome → s.posted.length = initialNumberOfBuffers)) := by
  intro s
  have hkept := kept_of_run (SpeexCodec.ready_of_openSpeex hopen).1 h hfits
  refine ⟨hkept.nodup, fun hlive => ⟨hkept.whole hlive, fun hdropped => ?_⟩⟩
  simp only [step] at hdropped
  split_ifs at hdropped with hcase
  · have hlength := (hkept.whole hlive).length_eq
    have hheld : s.held = s.posted := by
      rw [held, hcase.1, hcase.2]
      exact List.append_nil _
    rwa [hheld, List.length_range] at hlength
  · cases hdropped

theorem buffers_of_sample : ∃ opened tr,
    SpeexCodec.openSpeex SpeexCodec.humming 0 0 (Vector.replicate (frameSize * maxFrames) 0) =
      .ok (.ok opened) ∧
    (sampleMachine opened).Run tr ∧ tr.map Prod.fst = (sample [5, -7]).reverse ∧
    let s := (sampleMachine opened).last tr
    s.held.Nodup ∧
      (s.state ≠ .terminated → s.held.Perm (List.range initialNumberOfBuffers) ∧
        ((step SpeexCodec.humming s (.recordingCallback none)).isSome →
          s.posted.length = initialNumberOfBuffers)) := by
  obtain ⟨opened, hopen, hready, _⟩ := SpeexCodec.openSpeex_spec SpeexCodec.humming 0 0
    (Vector.replicate (frameSize * maxFrames) 0)
  obtain ⟨tr, hrun, hevents, hfits, _⟩ := exists_sample hready [5, -7] (by decide)
  exact ⟨opened, tr, hopen, hrun, hevents, buffers_of_run hopen hrun hfits⟩

/-- A peer that gets the packets in their order hears the recorded audio, frame after frame, from the
beginning on. Once the low latency thread has caught up, less than two frames are missing. -/
theorem heard_of_sent {ε' δ' : Type} {p' : SignalProcessing ε' δ'} {encodingState' : ε'}
    {decodingState' : δ'} {decodingBuffer' : Vector Int16 (frameSize * maxFrames)}
    {opened' c : SpeexCodec ε' δ'} {tr' : History (Except Fault (SpeexCodec ε' δ')) SpeexCodec.Event}
    {packer : AudioPacker}
    (hopen : SpeexCodec.openSpeex p encodingState decodingState decodingBuffer = .ok (.ok opened))
    (h : (machine p malloced opened watcher secureRandomUInt16).Run tr)
    (hfits : Machine.Guarded (fun _ e => e.Fits) tr)
    (hopen' : SpeexCodec.openSpeex p' encodingState' decodingState' decodingBuffer' =
      .ok (.ok opened'))
    (h' : (SpeexCodec.machine p' opened').Run tr')
    (hlast' : (SpeexCodec.machine p' opened').last tr' = .ok c)
    (hpacker : packer.audioFrameToReceiveQueue = []) (memory : Realloc) :
    let s := (machine p malloced opened watcher secureRandomUInt16).last tr
    ∃ frames rest received d,
      recorded tr = frames.flatten ++ rest ∧
      (∀ frame ∈ frames, frame.length = decodedFrameSizeInBytes) ∧
      frames.length = s.sent.length * audioFramesPerPacket ∧
      ((AudioPacker.unpackInOrder s.sent).run.run packer).1 = .ok received ∧
      SpeexCodec.decodeAll p' memory (received.map EncodedAudioFrame.audioData) c =
        .ok ((SpeexCodec.heardSamples p' (SpeexCodec.spokenNumbers p frames opened.encodingState)
          c.decodingState).map some, d) ∧
      (s.state ≠ .terminated → s.posted = [] → s.enqueued = false →
        rest.length < 2 * decodedFrameSizeInBytes) := by
  intro s
  have hkept := kept_of_run (SpeexCodec.ready_of_openSpeex hopen).1 h hfits
  have hc : c.Ready := by
    obtain ⟨c', hlast, hc', _⟩ :=
      SpeexCodec.ready_of_run (SpeexCodec.ready_of_openSpeex hopen').1 h'
    rw [hlast'] at hlast
    obtain rfl : c = c' := Except.ok.inj hlast
    exact hc'
  obtain ⟨frames, encoded, behind, hspoken, hpacked, haudio, hbehind⟩ := hkept.audio
  have hlast : s.sent = AudioPacker.packetsOf (secureRandomUInt16 &&& 0x3FFF) encoded :=
    hpacked.finished
  let n := encoded.length / audioFramesPerPacket * audioFramesPerPacket
  obtain ⟨_, hsent⟩ := hspoken.take n
  obtain ⟨d, hdecode⟩ := hsent.decodeAll p' memory hc
  refine ⟨frames.take n, (frames.drop n).flatten ++ s.recordingQueue.contents ++ behind,
    (AudioPacker.finishedFrames encoded).map fun data => ⟨some data⟩, d, ?_, ?_, ?_, ?_, ?_, ?_⟩
  · have hframes : frames.flatten = (frames.take n).flatten ++ (frames.drop n).flatten := by
      rw [← List.flatten_append, List.take_append_drop]
    rw [haudio, hframes]
    simp only [List.append_assoc]
    rfl
  · exact fun frame hframe => hspoken.rawLength_eq frame (List.mem_of_mem_take hframe)
  · have hwhole : n ≤ frames.length := hspoken.count_eq ▸ Nat.div_mul_le_self _ _
    rw [List.length_take_of_le hwhole, hlast, AudioPacker.length_packetsOf]
  · rw [hlast]
    exact AudioPacker.unpackInOrder_packetsOf _ hspoken.length_eq hpacker
  · rw [List.map_map]
    exact hdecode
  · intro hlive hposted hidle
    have hnone : behind = [] := by
      rw [hbehind hlive, waiting]
      change s.posted.flatMap _ = []
      rw [hposted]
      rfl
    have hqueue : s.recordingQueue.contents.length < decodedFrameSizeInBytes := by
      rw [CyclicalBuffer.length_contents hkept.wellFormed]
      exact hkept.short hidle
    have hunfinished : (frames.drop n).flatten.length ≤ decodedFrameSizeInBytes :=
      hspoken.length_unfinished
    rw [hnone, List.append_nil, List.length_append]
    omega

/-- The listener has hummed before, and hears the two tones. -/
theorem heard_of_sample : ∃ opened tr tr' c,
    SpeexCodec.openSpeex SpeexCodec.humming 0 0 (Vector.replicate (frameSize * maxFrames) 0) =
      .ok (.ok opened) ∧
    (sampleMachine opened).Run tr ∧ tr.map Prod.fst = (sample sampleTones).reverse ∧
    tr'.map Prod.fst = [.encode none (SpeexCodec.tone 50)] ∧
    (SpeexCodec.machine SpeexCodec.humming opened).last tr' = .ok c ∧
    let s := (sampleMachine opened).last tr
    s.sent.length = 1 ∧
      ∃ received d, ((AudioPacker.unpackInOrder s.sent).run.run (.audioPacker 0)).1 = .ok received ∧
        SpeexCodec.decodeAll SpeexCodec.humming none (received.map EncodedAudioFrame.audioData) c =
          .ok ([some (SpeexCodec.tone 5), some (SpeexCodec.tone 9)], d) := by
  obtain ⟨opened, hopen, hready, hencoding, hdecoding, _⟩ :=
    SpeexCodec.openSpeex_spec SpeexCodec.humming 0 0 (Vector.replicate (frameSize * maxFrames) 0)
  obtain ⟨_, c, hencode, _, _, hlevel, _⟩ :=
    SpeexCodec.encode_spec (p := SpeexCodec.humming) none hready (SpeexCodec.length_tone 50)
  obtain ⟨tr, hrun, hevents, hfits, hrecorded, hlive, hposted, hidle, hsent⟩ :=
    exists_sampleTones hready
  have hrun' : (SpeexCodec.machine SpeexCodec.humming opened).Run
      [(.encode none (SpeexCodec.tone 50), .ok c)] :=
    ⟨trivial, congrArg (fun out => some (Prod.snd <$> out)) hencode⟩
  obtain ⟨frames, rest, received, d, haudio, hframes, hcount, hreceived, hdecode, _⟩ :=
    heard_of_sent hopen hrun hfits hopen hrun' rfl
      (show (AudioPacker.audioPacker 0).audioFrameToReceiveQueue = [] from rfl) none
  have htwo : frames.length = 2 := hcount.trans (congrArg (· * audioFramesPerPacket) hsent)
  have hfew : rest.length < decodedFrameSizeInBytes := by
    have hlength := congrArg List.length haudio
    rw [hrecorded, List.length_append, length_flatten_frames hframes, htwo] at hlength
    have htotal : (SpeexCodec.dataWithSamples sampleTones).length = 660 := by decide +kernel
    have hframe : decodedFrameSizeInBytes = 320 := rfl
    omega
  rw [hrecorded] at haudio
  obtain ⟨rfl, -⟩ := cut_sampleTones hframes hfew haudio
  have hlevels : opened.encodingState = 0 ∧ c.decodingState = 0 :=
    ⟨hencoding, hlevel.trans hdecoding⟩
  have hheard : SpeexCodec.heardSamples SpeexCodec.humming (SpeexCodec.spokenNumbers
      SpeexCodec.humming [SpeexCodec.tone 5, SpeexCodec.tone 9] 0) 0 =
        [SpeexCodec.tone 5, SpeexCodec.tone 9] := by decide +kernel
  rw [hlevels.1, hlevels.2, hheard] at hdecode
  exact ⟨opened, tr, [(.encode none (SpeexCodec.tone 50), .ok c)], c, hopen, hrun, hevents, rfl, rfl,
    hsent, received, d, hreceived, hdecode⟩

end Runs

end Recording
end SignalIOS.Audio
