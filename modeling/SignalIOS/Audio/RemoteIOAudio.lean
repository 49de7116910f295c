import SignalIOS.Lib.Runs
import SignalIOS.Util.CyclicalBuffer

/-! Playback: the render callback of the audio unit takes bytes from the playback queue, on a thread
of its own, and the low latency thread refills it. -/
namespace SignalIOS.Audio
open SignalIOS.Lib

def sampleSizeInBytes : UInt32 := 2

/-- `decodedFrameSizeInBytes` of the codec. -/
def decodedFrameSizeInBytes : ℕ := 160 * 2

inductive RemoteIOState
  | notStarted | started | terminated
  deriving DecidableEq, Repr

/-- What `playbackCallback` posts to the low latency thread. -/
structure PlaybackNotification where
  requestedByteCount : ℕ
  availableByteCount : ℕ
  deriving DecidableEq, Repr

def PlaybackNotification.consumedByteCount (n : PlaybackNotification) : ℕ :=
  if n.availableByteCount ≥ n.requestedByteCount then n.requestedByteCount else 0

/-- `handlePlaybackOccurredWithBytesRequested:andBytesRemaining:`, while it runs. -/
structure Refill where
  requested : ℕ
  /-- The length of the data that the queue was populated with last, until it is counted. -/
  uncounted : Option ℕ
  deriving DecidableEq, Repr

structure Playback where
  playbackQueue : CyclicalBuffer := .init
  state : RemoteIOState := .notStarted
  bytesInPlaybackBuffer : ℕ := 0
  /-- The notifications that the low latency thread has not begun with, the oldest first. -/
  posted : List PlaybackNotification := []
  refill : Option Refill := none
  /-- How many bytes the playback queue has been populated with. -/
  everEnqueued : ℕ := 0

namespace Playback

/-- The callback is invoked by the audio unit. The lock is held while it dequeues. -/
def playbackCallback (inNumberSamples : UInt32) (p : Playback) : Playback :=
  let requestedByteCount := (inNumberSamples * sampleSizeInBytes).toNat
  let availableByteCount := p.playbackQueue.enqueuedLength
  let posted := p.posted ++ [⟨requestedByteCount, availableByteCount⟩]
  if availableByteCount < requestedByteCount then { p with posted }
  else
    let dequeue := CyclicalBuffer.dequeuePotentialyVolatileDataWithLength requestedByteCount
    match dequeue.run.run p.playbackQueue with
    | (.ok _, playbackQueue) => { p with playbackQueue, posted }
    | (.error _, playbackQueue) => { p with playbackQueue }

/-- `onRequestedPlaybackDataAmount:andHadAvailableAmount:`, up to the loop of the delegate. -/
def beginNotification (n : PlaybackNotification) (p : Playback) : Playback :=
  if p.state = .terminated then p
  else
    let requested := n.requestedByteCount
    let bytesInPlaybackBuffer :=
      if p.bytesInPlaybackBuffer ≥ requested then p.bytesInPlaybackBuffer - requested
      else p.bytesInPlaybackBuffer
    { p with bytesInPlaybackBuffer, refill := some ⟨requested, none⟩ }

def minSafeBufferSize (requested : ℕ) : ℕ := max requested decodedFrameSizeInBytes * 3

def populatePlaybackQueueWithData (data : NSData) (p : Playback) : Except Abort Unit × Playback :=
  if data.length = 0 then (.ok (), p)
  else
    match (CyclicalBuffer.enqueueData data).run.run p.playbackQueue with
    | (.ok _, playbackQueue) =>
      (.ok (), { p with playbackQueue, everEnqueued := p.everEnqueued + data.length })
    | (.error e, playbackQueue) => (.error e, { p with playbackQueue })

/-- The loop goes on with what `tryDecodeOrInferFrame` returns. An exception ends it. -/
def decodeFrame (decodedAudioData : Option NSData) (r : Refill) (p : Playback) : Playback :=
  match decodedAudioData with
  | none => { p with refill := none }
  | some data =>
    match p.populatePlaybackQueueWithData data with
    | (.ok _, p) => { p with refill := some { r with uncounted := some data.length } }
    | (.error _, p) => { p with refill := none }

inductive Event
  | start
  | playbackCallback (inNumberSamples : UInt32)
  | beginNotification
  | decodeFrame (decodedAudioData : Option NSData)
  | countFrame
  | endLoop
  | cancel

/-- One step of one of the threads. The low latency thread handles one notification at a time, in
the order in which they were posted. -/
def step (p : Playback) : Event → Option Playback
  | .start => if p.state = .notStarted then some { p with state := .started } else none
  | .playbackCallback inNumberSamples => some (p.playbackCallback inNumberSamples)
  | .beginNotification =>
    match p.posted, p.refill with
    | n :: posted, none => some ({ p with posted }.beginNotification n)
    | _, _ => none
  | .decodeFrame decodedAudioData =>
    match p.refill with
    | some ⟨requested, none⟩ =>
      if p.bytesInPlaybackBuffer < minSafeBufferSize requested then
        some (p.decodeFrame decodedAudioData ⟨requested, none⟩)
      else none
    | _ => none
  | .countFrame =>
    match p.refill with
    | some ⟨requested, some length⟩ =>
      some { p with
        bytesInPlaybackBuffer := p.bytesInPlaybackBuffer + length
        refill := some ⟨requested, none⟩ }
    | _ => none
  | .endLoop =>
    match p.refill with
    | some ⟨requested, none⟩ =>
      if p.bytesInPlaybackBuffer < minSafeBufferSize requested then none
      else some { p with refill := none }
    | _ => none
  | .cancel => some { p with state := .terminated }

variable {p q : Playback}

theorem step_start (h : p.step .start = some q) : q = { p with state := .started } := by
  simp only [step] at h
  split_ifs at h
  exact (Option.some.inj h).symm

theorem step_beginNotification (h : p.step .beginNotification = some q) :
    ∃ n posted, p.posted = n :: posted ∧ p.refill = none ∧
      q = { p with posted }.beginNotification n := by
  simp only [step] at h
  split at h
  · exact ⟨_, _, ‹_›, ‹_›, (Option.some.inj h).symm⟩
  · cases h

theorem step_decodeFrame {decodedAudioData : Option NSData}
    (h : p.step (.decodeFrame decodedAudioData) = some q) :
    ∃ requested, p.refill = some ⟨requested, none⟩ ∧
      q = p.decodeFrame decodedAudioData ⟨requested, none⟩ := by
  simp only [step] at h
  split at h
  · split_ifs at h
    exact ⟨_, ‹_›, (Option.some.inj h).symm⟩
  · cases h

theorem step_countFrame (h : p.step .countFrame = some q) :
    ∃ requested length, p.refill = some ⟨requested, some length⟩ ∧
      q = { p with
        bytesInPlaybackBuffer := p.bytesInPlaybackBuffer + length
        refill := some ⟨requested, none⟩ } := by
  simp only [step] at h
  split at h
  · exact ⟨_, _, ‹_›, (Option.some.inj h).symm⟩
  · cases h

theorem step_endLoop (h : p.step .endLoop = some q) :
    ∃ requested, p.refill = some ⟨requested, none⟩ ∧ q = { p with refill := none } := by
  simp only [step] at h
  split at h
  · split_ifs at h
    exact ⟨_, ‹_›, (Option.some.inj h).symm⟩
  · cases h

end Playback

def playback : Machine Playback Playback.Event := ⟨{}, Playback.step⟩

end SignalIOS.Audio
