import Mathlib.Data.Finset.Card
import SignalIOS.Audio.AudioPacker
import SignalIOS.Util.NumberUtil
import SignalIOS.Util.PriorityQueue

/-! Jitter queues, which put the audio packets that arrive back into their order. -/
namespace SignalIOS.Audio
open SignalIOS.Lib SignalIOS.NumberUtil

inductive JitterBadArrivalType
  | duplicate
  | stale
  | tooSoon
  deriving DecidableEq, Repr

inductive JitterBadDequeueType
  | desynced
  | empty
  | noDataUnderReadHead
  deriving DecidableEq, Repr

inductive JitterNotification
  | arrival (sequenceNumber : UInt16)
  | dequeue (sequenceNumber : UInt16) (remainingEnqueuedItemCount : ℕ)
  | badArrival (sequenceNumber : UInt16) (arrivalType : JitterBadArrivalType)
  | badDequeue (dequeueType : JitterBadDequeueType)
  | resync (oldReadHead newReadHead : UInt16)
  | discardOverflow (discardedSequenceNumber oldReadHead newReadHead : UInt16)
  deriving DecidableEq, Repr

/-- A watcher, by what it has been notified of. -/
abbrev JitterWatcher := List JitterNotification

def transitiveSafetyRange : ℕ := 0x4000
def readHeadMaxQueueAhead : ℤ := 0x1000
def readHeadBadSpanThreshold : UInt16 := 0x100
def maximumJitterQueueSizeBeforeDiscarding : ℕ := 25

/-- Before the first packet arrives there is neither a queue nor a set of ids. -/
structure JitterQueue where
  resultPriorityQueue : Option (PriorityQueue EncodedAudioPacket)
  readHeadMin : UInt16
  readHeadSpan : UInt16
  idsInJitterQueue : Option (Finset UInt16)
  watchers : List JitterWatcher
  largestLatestEnqueued : UInt16

/-- `nil` has the sequence number zero. -/
def sequenceNumberOf : Option EncodedAudioPacket → UInt16
  | none => 0
  | some packet => packet.sequenceNumber

namespace JitterQueue

def registerWatcher (watcher : Option JitterWatcher) : Method Exception JitterQueue Unit :=
  modify fun s => { s with watchers := s.watchers ++ watcher.toList }

/-- A new queue, and the receiver of the environment's logging. -/
def jitterQueue (jitterQueueNotificationReceiver : Option JitterWatcher) : JitterQueue where
  resultPriorityQueue := none
  readHeadMin := 0
  readHeadSpan := readHeadBadSpanThreshold + 1
  idsInJitterQueue := none
  watchers := jitterQueueNotificationReceiver.toList
  largestLatestEnqueued := 0

def notify (notification : JitterNotification) : Method Exception JitterQueue Unit :=
  modify fun s => { s with watchers := s.watchers.map (· ++ [notification]) }

/-- A message to the priority queue. Where there is none, it returns `nil`. -/
def onPriorityQueue {β : Type} (message : Method Exception (PriorityQueue EncodedAudioPacket) β) :
    Method Exception JitterQueue (Option β) := do
  match (← get).resultPriorityQueue with
  | none => return none
  | some q =>
    let (result, q) := message.run.run q
    modify fun s => { s with resultPriorityQueue := some q }
    let value ← (result : Throws β)
    return some value

def queuedPackets (s : JitterQueue) : List EncodedAudioPacket :=
  match s.resultPriorityQueue with
  | none => []
  | some q => q.items.toList

def count (s : JitterQueue) : ℕ :=
  match s.resultPriorityQueue with
  | none => 0
  | some q => q.count

/-- Sequence numbers are compared by their difference, and have to be near each other. -/
def cyclingPacketComparator (obj1 obj2 : EncodedAudioPacket) : Throws ℤ := do
  let d := congruentDifferenceMod2ToThe16 obj2.sequenceNumber obj1.sequenceNumber
  requireState (d.toInt.natAbs ≤ transitiveSafetyRange)
  return (signOfInt32 d.toInt32).toInt

def makeCyclingPacketPriorityQueue : PriorityQueue EncodedAudioPacket :=
  PriorityQueue.priorityQueueAscendingWithComparator cyclingPacketComparator

def tryForceSyncIfNecessary (sequenceNumber : UInt16) : Method Exception JitterQueue Bool := do
  let s ← get
  if s.readHeadSpan ≤ readHeadBadSpanThreshold then
    return false
  else
    -- only log resyncs, not the initial sync
    if s.resultPriorityQueue.isSome then
      notify (.resync s.readHeadMin sequenceNumber)
    modify fun s => { s with
      readHeadMin := sequenceNumber
      largestLatestEnqueued := sequenceNumber
      readHeadSpan := 1
      idsInJitterQueue := some ∅
      resultPriorityQueue := some makeCyclingPacketPriorityQueue }
    return true

/-- Why a packet cannot arrive now. -/
def badArrivalType (s : JitterQueue) (sequenceNumberRelativeToReadHead : ℤ)
    (sequenceNumber : UInt16) : Option JitterBadArrivalType :=
  if sequenceNumberRelativeToReadHead < 0 then some .stale
  else if sequenceNumberRelativeToReadHead > readHeadMaxQueueAhead then some .tooSoon
  else if ∃ ids ∈ s.idsInJitterQueue, sequenceNumber ∈ ids then some .duplicate
  else none

def tryFitIntoSequence (sequenceNumber : UInt16) : Method Exception JitterQueue Bool := do
  let sequenceNumberRelativeToReadHead :=
    (congruentDifferenceMod2ToThe16 (← get).readHeadMin sequenceNumber).toInt
  if ← tryForceSyncIfNecessary sequenceNumber then
    return true
  else
    match (← get).badArrivalType sequenceNumberRelativeToReadHead sequenceNumber with
    | none => return true
    | some badArrivalType =>
      notify (.badArrival sequenceNumber badArrivalType)
      return false

def discardExcess : Method Exception JitterQueue Unit := do
  if (← get).count ≤ maximumJitterQueueSizeBeforeDiscarding then
    return ()
  else
    let discarded ← onPriorityQueue PriorityQueue.dequeue
    let discardedSequenceNumber := sequenceNumberOf discarded
    modify fun s => { s with
      idsInJitterQueue := s.idsInJitterQueue.map (·.erase discardedSequenceNumber) }
    let s ← get
    let oldReadHeadMax := s.readHeadMin + s.readHeadSpan - 1
    let next ← onPriorityQueue PriorityQueue.peek
    let readHeadMin := sequenceNumberOf next
    modify fun s => { s with readHeadMin, readHeadSpan := 1 }
    notify (.discardOverflow discardedSequenceNumber oldReadHeadMax readHeadMin)

def tryEnqueue (audioPacket : EncodedAudioPacket) : Method Exception JitterQueue Bool := do
  let sequenceNumber := audioPacket.sequenceNumber
  if ← tryFitIntoSequence sequenceNumber then
    modify fun s => { s with
      idsInJitterQueue := s.idsInJitterQueue.map (insert sequenceNumber) }
    let _ ← onPriorityQueue (PriorityQueue.enqueue audioPacket)
    modify fun s =>
      if (congruentDifferenceMod2ToThe16 s.largestLatestEnqueued sequenceNumber).toInt > 0 then
        { s with largestLatestEnqueued := sequenceNumber }
      else s
    notify (.arrival sequenceNumber)
    discardExcess
    return true
  else
    return false

def checkReactIfOutOfSyncForDequeue : Method Exception JitterQueue Bool := do
  let isOutOfSync := (← get).readHeadSpan > readHeadBadSpanThreshold
  if isOutOfSync then
    notify (.badDequeue .desynced)
  return isOutOfSync

def checkReactIfEmptyForDequeue : Method Exception JitterQueue Bool := do
  let isEmpty := (← get).count = 0
  if isEmpty then
    modify fun s => { s with readHeadSpan := s.readHeadSpan + 1 }
    notify (.badDequeue .empty)
  return isEmpty

def checkReactIfNoDataUnderReadHeadForDequeue : Method Exception JitterQueue Bool := do
  let result ← onPriorityQueue PriorityQueue.peek
  let s ← get
  let d := (congruentDifferenceMod2ToThe16 s.readHeadMin (sequenceNumberOf result)).toInt
  let notUnderHead := d < 0 ∨ d ≥ s.readHeadSpan.toNat
  if notUnderHead then
    modify fun s => { s with readHeadSpan := s.readHeadSpan + 1 }
    notify (.badDequeue .noDataUnderReadHead)
  return notUnderHead

def tryDequeue : Method Exception JitterQueue (Option EncodedAudioPacket) := do
  if ← checkReactIfOutOfSyncForDequeue then
    return none
  else if ← checkReactIfEmptyForDequeue then
    return none
  else if ← checkReactIfNoDataUnderReadHeadForDequeue then
    return none
  else
    let result ← onPriorityQueue PriorityQueue.dequeue
    modify fun s => { s with
      readHeadMin := sequenceNumberOf result + 1
      readHeadSpan := 1
      idsInJitterQueue := s.idsInJitterQueue.map (·.erase (sequenceNumberOf result)) }
    notify (.dequeue (sequenceNumberOf result)
      (((← get).idsInJitterQueue.map Finset.card).getD 0))
    return result

def currentBufferDepth (s : JitterQueue) : Int16 :=
  if s.readHeadSpan > readHeadBadSpanThreshold then 0
  else congruentDifferenceMod2ToThe16 (s.readHeadMin + s.readHeadSpan - 1) s.largestLatestEnqueued

end JitterQueue

/-- The messages that change a jitter queue, and what they return. -/
inductive JitterMessage
  | registerWatcher (watcher : Option JitterWatcher)
  | tryEnqueue (audioPacket : EncodedAudioPacket)
  | tryDequeue

inductive JitterResult
  | registered
  | enqueued (accepted : Bool)
  | dequeued (audioPacket : Option EncodedAudioPacket)
  deriving DecidableEq, Repr

def JitterMessage.send : JitterMessage → Method Exception JitterQueue JitterResult
  | .registerWatcher watcher => do
    JitterQueue.registerWatcher watcher
    return .registered
  | .tryEnqueue audioPacket => return .enqueued (← JitterQueue.tryEnqueue audioPacket)
  | .tryDequeue => return .dequeued (← JitterQueue.tryDequeue)

end SignalIOS.Audio
