import SignalIOS.Util.CyclicalBuffer

/-! Streams to an end point, as far as they are written to. -/
namespace SignalIOS.Network
open SignalIOS.Lib

inductive NSStreamStatus
  | notOpen | opening | opened | reading | writing | atEnd | closed | error
  deriving DecidableEq, Repr

def NSStreamStatus.rawValue : NSStreamStatus → ℕ
  | notOpen => 0
  | opening => 1
  | opened => 2
  | reading => 3
  | writing => 4
  | atEnd => 5
  | closed => 6
  | error => 7

/-- What `write:maxLength:` does: it takes that many of the bytes, as far as it is given them, or
fails with the `streamError`. -/
inductive WriteResult
  | wrote (length : ℕ)
  | failed (streamError : Option String)

/-- The output stream while a method runs. It has space as often as there are results. -/
structure OutputStream where
  streamStatus : NSStreamStatus
  writeResults : List WriteResult

/-- The future that `asyncHandleStreamsConnected:` returns. -/
inductive Checked
  | pending
  | result (isYes : Bool)
  | failure (error : String)
  deriving DecidableEq

/-- `futureConnectedAndWritableSource`. It is flattening while it waits for another future. -/
inductive FutureConnected
  | ableToBeSet
  | flattening
  | result (isYes : Bool)
  | failed
  deriving DecidableEq, Repr

/-- `handleError:relatedInfo:causedTermination:`. The related info is always `nil`. -/
structure HandledError where
  error : String
  causedTermination : Bool
  deriving DecidableEq, Repr

structure NetworkStream where
  /-- The errors that the handler has been given, the first first. -/
  rawDataHandler : Option (List HandledError) := none
  started : Bool := false
  closedLocally : Bool := false
  futureOpenedIsSet : Bool := false
  futureConnectedAndWritable : FutureConnected := .ableToBeSet
  writeBuffer : CyclicalBuffer := .init
  /-- The bytes that the output stream has accepted. -/
  accepted : NSData := []

namespace NetworkStream

abbrev Action := Method Abort NetworkStream Unit

def onWriteBuffer {α : Type} (x : Method Abort CyclicalBuffer α) : Method Abort NetworkStream α :=
  Method.onPart NetworkStream.writeBuffer (fun s writeBuffer => { s with writeBuffer }) x

/-- Sent to `nil`, the message does nothing. -/
def handleError (error : String) (causedTermination : Bool) : Action :=
  modify fun s => { s with rawDataHandler := s.rawDataHandler.map (· ++ [⟨error, causedTermination⟩]) }

def terminate : Action := do
  if (← get).closedLocally then
    return
  modify fun s => { s with closedLocally := true }
  if (← get).futureConnectedAndWritable = .ableToBeSet then
    modify fun s => { s with futureConnectedAndWritable := .result false }
  modify fun s => { s with futureOpenedIsSet := true }

/-- The loop of `tryWriteBufferedData`. -/
def writeWhileSpace : List WriteResult → Action
  | [] => return
  | result :: results => do
    if (← get).writeBuffer.enqueuedLength > 0 then
      let data ← onWriteBuffer CyclicalBuffer.peekVolatileHeadOfData
      match result with
      | .failed streamError =>
        handleError (streamError.getD "Unknown error when writing to stream.") false
      | .wrote length =>
        let d := min length data.length
        modify fun s => { s with accepted := s.accepted ++ List.take d data }
        if d = 0 then
          return
        onWriteBuffer (CyclicalBuffer.discard d)
        writeWhileSpace results

def tryWriteBufferedData (outputStream : OutputStream) : Action := do
  if (← get).futureConnectedAndWritable ≠ .result true then
    return
  if outputStream.streamStatus.rawValue < NSStreamStatus.opened.rawValue then
    return
  if outputStream.streamStatus.rawValue ≥ NSStreamStatus.atEnd.rawValue then
    handleError "Wrote to ended/closed/errored stream." false
    return
  writeWhileSpace outputStream.writeResults

def send (data : NSData) (outputStream : OutputStream) : Action := do
  Abort.of (requireState ((← get).rawDataHandler.isSome))
  onWriteBuffer (CyclicalBuffer.enqueueData data)
  tryWriteBufferedData outputStream

def startProcessingStreamEventsEvenWithoutHandler : Action := do
  if (← get).started then
    return
  modify fun s => { s with started := true }

def startWithHandler : Action := do
  Abort.of (requireState ((← get).rawDataHandler.isNone))
  modify fun s => { s with rawDataHandler := some [] }
  startProcessingStreamEventsEvenWithoutHandler

/-- `onNetworkFailure:`, once both futures are set. -/
def handleFailure (error : String) : Action := do
  handleError error true
  terminate

/-- Where the future fails here, the stream's own `catchDo:` comes first. -/
def onNetworkFailure (error : String) : Action := do
  modify fun s => { s with futureOpenedIsSet := true }
  if (← get).futureConnectedAndWritable = .ableToBeSet then
    modify fun s => { s with futureConnectedAndWritable := .failed }
    handleFailure error
  handleFailure error

/-- `failure` is the `OperationFailed` that `handleStreamsOpened:` raises. -/
def onOpenCompleted (failure : Option String) : Action := do
  if (← get).futureOpenedIsSet then
    return
  modify fun s => { s with futureOpenedIsSet := true }
  match failure with
  | none => return
  | some error => onNetworkFailure error

/-- The future completes as `checked` has done. The `thenDo:` comes to `onSpaceAvailableToWrite`
again, which then only writes. There are two `catchDo:`, with the stream's own. -/
def complete (checked : Checked) (outputStream : OutputStream) : Action := do
  match checked with
  | .pending => modify fun s => { s with futureConnectedAndWritable := .flattening }
  | .result isYes =>
    modify fun s => { s with futureConnectedAndWritable := .result isYes }
    tryWriteBufferedData outputStream
  | .failure error =>
    modify fun s => { s with futureConnectedAndWritable := .failed, futureOpenedIsSet := true }
    handleFailure error
    handleFailure error

def onSpaceAvailableToWrite (checked : Checked) (outputStream : OutputStream) : Action := do
  tryWriteBufferedData outputStream
  if (← get).futureConnectedAndWritable ≠ .ableToBeSet then
    return
  complete checked outputStream

/-- The future that was pending completes. -/
def checkedCompletes (checked : Checked) (outputStream : OutputStream) : Action := do
  if (← get).futureConnectedAndWritable = .flattening then
    complete checked outputStream

/-- `error` is the error of one of the streams, or the fallback. -/
def onErrorOccurred (error : String) : Action := onNetworkFailure error

def onEndOfStream (error : String) : Action := do
  unless (← get).closedLocally do
    onErrorOccurred error
  terminate

end NetworkStream
end SignalIOS.Network
