import SignalIOS.Lib.Runs
import SignalIOS.Network.NetworkStream

/-! Streams to secure end points, in both directions. Nothing passes before the certificate of the
peer has been checked. -/
namespace SignalIOS.Network
open SignalIOS.Lib

inductive SecTrustResultType
  | invalid | proceed | confirm | deny | unspecified | recoverableTrustFailure | fatalTrustFailure
  | otherError
  deriving DecidableEq, Repr

def SecTrustResultType.rawValue : SecTrustResultType → ℕ
  | invalid => 0
  | proceed => 1
  | confirm => 2
  | deny => 3
  | unspecified => 4
  | recoverableTrustFailure => 5
  | fatalTrustFailure => 6
  | otherError => 7

/-- The trust of a stream that has connected, with what the system says of it for the anchors that
are set. -/
structure SecTrust (κ : Type) where
  certificateCount : ℕ
  setAnchorCertificates : List κ → Int32
  evaluate : List κ → Int32 × SecTrustResultType

structure SecureEndPoint (κ : Type) where
  hostname : String
  certificate : κ

/-- A stream may go to an end point without a certificate in tests. -/
inductive NetworkEndPoint (κ : Type)
  | secure (endPoint : SecureEndPoint κ)
  | insecure

variable {κ : Type}

namespace SecureEndPoint

/-- `checkOperation` and its like, as far as the description of the failure. -/
def check (condition : Prop) [Decidable condition] (description : String) : Except String Unit :=
  if condition then .ok () else .error description

def setAsAnchorForTrust (certificate : κ) (trust : SecTrust κ) : Except String Unit := do
  let setAnchorResult := trust.setAnchorCertificates [certificate]
  check (setAnchorResult = 0)
    s!"SecTrustSetAnchorCertificates failed with error code: {setAnchorResult.toInt}"

def authenticateSslStream (endPoint : SecureEndPoint κ) (trust : SecTrust κ) :
    Except String Unit := do
  check (trust.certificateCount > 0) ""
  setAsAnchorForTrust endPoint.certificate trust
  let (evalResult, trustResult) := trust.evaluate [endPoint.certificate]
  check (evalResult = 0)
    s!"NetworkStream: SecTrustEvaluate failed with error code: {evalResult.toInt}"
  check (trustResult ≠ .proceed) "Unexpected: User approved certificate somehow? Failing safe."
  check (trustResult = .unspecified)
    s!"NetworkStream: SecTrustEvaluate returned bad result: {trustResult.rawValue}."

def asyncHandleStreamsConnected (endPoint : SecureEndPoint κ) (trust : SecTrust κ) : Checked :=
  match endPoint.authenticateSslStream trust with
  | .ok _ => .result true
  | .error error => .failure error

/-- The peer has a certificate, and the system trusts it with ours as the only anchor. -/
structure Trusts (endPoint : SecureEndPoint κ) (trust : SecTrust κ) : Prop where
  certificate : 0 < trust.certificateCount
  anchor : trust.setAnchorCertificates [endPoint.certificate] = 0
  evaluate : trust.evaluate [endPoint.certificate] = (0, .unspecified)

theorem check_eq_ok {condition : Prop} [Decidable condition] {description : String} :
    check condition description = .ok () ↔ condition := by
  unfold check
  split_ifs with h <;> simp [h]

theorem authenticateSslStream_eq_ok {endPoint : SecureEndPoint κ} {trust : SecTrust κ} :
    endPoint.authenticateSslStream trust = .ok () ↔ endPoint.Trusts trust := by
  have hbind {x : Except String Unit} {y : Except String Unit} :
      (x >>= fun _ => y) = .ok () ↔ x = .ok () ∧ y = .ok () := by
    cases x with
    | error e =>
      constructor
      · intro h
        cases h
      · intro h
        cases h.1
    | ok u => exact ⟨fun h => ⟨rfl, h⟩, And.right⟩
  unfold authenticateSslStream setAsAnchorForTrust
  simp only [hbind, check_eq_ok]
  constructor
  · rintro ⟨hcertificate, hanchor, heval, _, hresult⟩
    exact ⟨hcertificate, hanchor, Prod.ext heval hresult⟩
  · intro ⟨hcertificate, hanchor, hevaluate⟩
    have heval := congrArg Prod.fst hevaluate
    have hresult := congrArg Prod.snd hevaluate
    exact ⟨hcertificate, hanchor, heval, hresult.trans_ne (by decide), hresult⟩

theorem asyncHandleStreamsConnected_of_trusts {endPoint : SecureEndPoint κ} {trust : SecTrust κ}
    (h : endPoint.Trusts trust) : endPoint.asyncHandleStreamsConnected trust = .result true := by
  rw [asyncHandleStreamsConnected, authenticateSslStream_eq_ok.mpr h]

theorem asyncHandleStreamsConnected_of_not_trusts {endPoint : SecureEndPoint κ}
    {trust : SecTrust κ} (h : ¬ endPoint.Trusts trust) :
    ∃ error, endPoint.asyncHandleStreamsConnected trust = .failure error := by
  unfold asyncHandleStreamsConnected
  cases hcheck : endPoint.authenticateSslStream trust with
  | ok => exact absurd (authenticateSslStream_eq_ok.mp hcheck) h
  | error error => exact ⟨error, rfl⟩

end SecureEndPoint

/-- What the handler does while it has a packet, besides reading it. -/
inductive Reaction
  | send (data : NSData) (outputStream : OutputStream)
  | terminate

/-- What `read:maxLength:` does, and then the handler. -/
inductive ReadResult
  | read (data : NSData) (reactions : List Reaction)
  | failed (streamError : Option String)

def readBufferLength : ℕ := 1024

/-- A `NetworkStream` with what it reads. -/
structure DuplexStream (κ : Type) where
  remoteEndPoint : NetworkEndPoint κ
  stream : NetworkStream := {}
  /-- The host names for which TLS has been set up. -/
  sslPeerNames : List String := []
  /-- The trusts that have been checked, the first first. -/
  authenticated : List (SecTrust κ) := []
  /-- What the handler has been given, the first first. -/
  handled : List NSData := []

namespace DuplexStream

def networkStreamToEndPoint (allowTestNonSecure : Bool) (remoteEndPoint : NetworkEndPoint κ) :
    Throws (DuplexStream κ) := do
  let isSecureEndPoint := remoteEndPoint matches .secure _
  owsRequire (allowTestNonSecure || isSecureEndPoint)
  return { remoteEndPoint }

abbrev DuplexMethod (κ α : Type) := Method Abort (DuplexStream κ) α

def onStream (x : NetworkStream.Action) : DuplexMethod κ Unit :=
  Method.onPart stream (fun s stream => { s with stream }) x

def onOpenCompleted : DuplexMethod κ Unit := do
  let s ← get
  onStream (NetworkStream.onOpenCompleted none)
  unless s.stream.futureOpenedIsSet do
    match s.remoteEndPoint with
    | .secure endPoint =>
      modify fun s => { s with sslPeerNames := s.sslPeerNames ++ [endPoint.hostname] }
    | .insecure => return

def asyncHandleStreamsConnected (trust : SecTrust κ) : DuplexMethod κ Checked := do
  match (← get).remoteEndPoint with
  | .secure endPoint =>
    modify fun s => { s with authenticated := s.authenticated ++ [trust] }
    return endPoint.asyncHandleStreamsConnected trust
  | .insecure => return .result true

def onSpaceAvailableToWrite (trust : SecTrust κ) (outputStream : OutputStream) : DuplexMethod κ Unit := do
  onStream (NetworkStream.tryWriteBufferedData outputStream)
  if (← get).stream.futureConnectedAndWritable ≠ .ableToBeSet then
    return
  let checked ← asyncHandleStreamsConnected trust
  onStream (NetworkStream.complete checked outputStream)

def react : List Reaction → DuplexMethod κ Unit
  | [] => return
  | .send data outputStream :: reactions => do
    onStream (NetworkStream.send data outputStream)
    react reactions
  | .terminate :: reactions => do
    onStream NetworkStream.terminate
    react reactions

/-- The loop of `onBytesAvailableToRead`. -/
def readWhileAvailable : List ReadResult → DuplexMethod κ Unit
  | [] => return
  | .failed streamError :: _ =>
    onStream (NetworkStream.onErrorOccurred (streamError.getD "Read Error"))
  | .read data reactions :: results => do
    let readData := List.take readBufferLength data
    if readData = [] then
      return
    modify fun s => { s with handled := s.handled ++ [readData] }
    react reactions
    readWhileAvailable results

def onBytesAvailableToRead (results : List ReadResult) : DuplexMethod κ Unit := do
  if (← get).stream.rawDataHandler.isNone then
    return
  if (← get).stream.futureConnectedAndWritable ≠ .result true then
    return
  readWhileAvailable results

def onEndOfStream (results : List ReadResult) (error : String) : DuplexMethod κ Unit := do
  onBytesAvailableToRead results
  onStream (NetworkStream.onEndOfStream error)

inductive Event (κ : Type)
  | startWithHandler
  | startProcessingStreamEventsEvenWithoutHandler
  | send (data : NSData) (outputStream : OutputStream)
  | terminate
  | openCompleted
  | hasBytesAvailable (results : List ReadResult)
  | hasSpaceAvailable (trust : SecTrust κ) (outputStream : OutputStream)
  /-- Also for an event that is unexpected. -/
  | errorOccurred (error : String)
  | endEncountered (results : List ReadResult) (error : String)

def Event.perform : Event κ → DuplexMethod κ Unit
  | startWithHandler => onStream NetworkStream.startWithHandler
  | startProcessingStreamEventsEvenWithoutHandler =>
    onStream NetworkStream.startProcessingStreamEventsEvenWithoutHandler
  | send data outputStream => onStream (NetworkStream.send data outputStream)
  | terminate => onStream NetworkStream.terminate
  | openCompleted => onOpenCompleted
  | hasBytesAvailable results => onBytesAvailableToRead results
  | hasSpaceAvailable trust outputStream => onSpaceAvailableToWrite trust outputStream
  | errorOccurred error => onStream (NetworkStream.onErrorOccurred error)
  | endEncountered results error => onEndOfStream results error

/-- The stream after one event after the other, whether or not the methods raise. -/
def machine (created : DuplexStream κ) : Machine (DuplexStream κ) (Event κ) where
  init := created
  step s e := some (e.perform.run.run s).2

end DuplexStream

namespace NetworkStream
open FutureConnected

/-- Whether the stream is connected, and that it is closed, stays as it has been settled. -/
structure Settles (s t : NetworkStream) : Prop where
  connected : t.futureConnectedAndWritable = s.futureConnectedAndWritable ∨
    s.futureConnectedAndWritable = ableToBeSet ∧
      (t.futureConnectedAndWritable = result false ∨ t.futureConnectedAndWritable = failed)
  closed : s.closedLocally = true → t.closedLocally = true
  settled : (s.closedLocally = true → s.futureConnectedAndWritable ≠ ableToBeSet) →
    t.closedLocally = true → t.futureConnectedAndWritable ≠ ableToBeSet

/-- Nothing is written, either, before the stream is connected. -/
structure Waits (s t : NetworkStream) : Prop extends Settles s t where
  accepted : s.futureConnectedAndWritable ≠ result true → t.accepted = s.accepted

variable {s t u : NetworkStream}

theorem Settles.of_eq (hconnected : t.futureConnectedAndWritable = s.futureConnectedAndWritable)
    (hclosed : t.closedLocally = s.closedLocally) : Settles s t where
  connected := .inl hconnected
  closed := by rw [hclosed]; exact id
  settled := by rw [hclosed, hconnected]; exact id

theorem Settles.not_connected (h : Settles s t) (hs : s.futureConnectedAndWritable ≠ result true) :
    t.futureConnectedAndWritable ≠ result true := by
  rcases h.connected with hsame | ⟨_, hno | hfailed⟩
  · rwa [hsame]
  · rw [hno]
    decide
  · rw [hfailed]
    decide

theorem Settles.trans (h : Settles s t) (h' : Settles t u) : Settles s u where
  connected := by
    rcases h.connected with hsame | ⟨hable, hset⟩
    · rw [← hsame]
      exact h'.connected
    · rcases h'.connected with hsame' | ⟨hable', _⟩
      · exact .inr ⟨hable, hsame' ▸ hset⟩
      · rw [hable'] at hset
        rcases hset with hset | hset <;> cases hset
  closed hs := h'.closed (h.closed hs)
  settled hs := h'.settled (h.settled hs)

instance : Std.Refl Settles := ⟨fun _ => .of_eq rfl rfl⟩

instance : IsTrans NetworkStream Settles := ⟨fun _ _ _ h h' => h.trans h'⟩

instance : Std.Refl Waits := ⟨fun _ => ⟨.of_eq rfl rfl, fun _ => rfl⟩⟩

instance : IsTrans NetworkStream Waits := ⟨fun _ _ _ h h' =>
  ⟨h.toSettles.trans h'.toSettles,
    fun hs => (h'.accepted (h.not_connected hs)).trans (h.accepted hs)⟩⟩

theorem waits_modify {g : NetworkStream → NetworkStream}
    (h : ∀ s, (g s).futureConnectedAndWritable = s.futureConnectedAndWritable ∧
      (g s).closedLocally = s.closedLocally ∧ (g s).accepted = s.accepted) :
    Method.Goes Waits (modify g : Action) :=
  .modify fun s => ⟨.of_eq (h s).1 (h s).2.1, fun _ => (h s).2.2⟩

theorem waits_handleError (error : String) (causedTermination : Bool) :
    (handleError error causedTermination).Goes Waits :=
  waits_modify fun _ => ⟨rfl, rfl, rfl⟩

/-- Between its assignments the stream is closed and not yet settled. -/
theorem run_terminate (s : NetworkStream) : terminate.run.run s = (.ok (),
    if s.closedLocally then s else
      { s with
        closedLocally := true
        futureConnectedAndWritable :=
          if s.futureConnectedAndWritable = ableToBeSet then result false
          else s.futureConnectedAndWritable
        futureOpenedIsSet := true }) := by
  unfold terminate
  rw [Method.run_bind, Method.run_get]
  dsimp only
  split_ifs with hclosed hable
  · rfl
  · rw [Method.run_bind, Method.run_modify]
    dsimp only
    rw [Method.run_bind, Method.run_get]
    dsimp only
    rw [if_pos hable]
    rfl
  · rw [Method.run_bind, Method.run_modify]
    dsimp only
    rw [Method.run_bind, Method.run_get]
    dsimp only
    rw [if_neg hable]
    rfl

theorem waits_terminate : terminate.Goes Waits := by
  intro s
  apply Method.Ensures.of_run_eq (run_terminate s)
  split_ifs with hclosed hable
  · exact Std.Refl.refl s
  · exact ⟨⟨.inr ⟨hable, .inl rfl⟩, fun _ => rfl, fun _ _ => by simp⟩, fun _ => rfl⟩
  · exact ⟨⟨.inl rfl, fun _ => rfl, fun _ _ => hable⟩, fun _ => rfl⟩

theorem waits_handleFailure (error : String) : (handleFailure error).Goes Waits :=
  .bind (waits_handleError error true) fun _ => waits_terminate

theorem closes_handleFailure (error : String) (s : NetworkStream) :
    (handleFailure error).Leaves s fun t => t.closedLocally = true := by
  apply Method.Ensures.modify_bind
  apply Method.Ensures.of_run_eq (run_terminate _)
  split_ifs with hclosed hable
  · exact hclosed
  · rfl
  · rfl

theorem waits_onErrorOccurred (error : String) : (onErrorOccurred error).Goes Waits := by
  unfold onErrorOccurred onNetworkFailure
  refine .bind (waits_modify fun _ => ⟨rfl, rfl, rfl⟩) fun _ => .get_bind fun s => ?_
  split_ifs with hable
  · have hfails : Method.Leaves (modify fun s => { s with futureConnectedAndWritable := failed } :
        Action) s (Waits s) :=
      ⟨⟨.inr ⟨hable, .inr rfl⟩, id, fun _ _ => by simp⟩, fun _ => rfl⟩
    apply Method.Leaves.bind_goes hfails
    intro _
    exact .bind (waits_handleFailure error) fun _ => waits_handleFailure error
  · exact waits_handleFailure error s

theorem waits_onEndOfStream (error : String) : (onEndOfStream error).Goes Waits := by
  unfold onEndOfStream
  refine .bind .get fun _ => .ite waits_terminate ?_
  exact .bind (waits_onErrorOccurred error) fun _ => waits_terminate

theorem waits_onOpenCompleted : (onOpenCompleted none).Goes Waits :=
  .bind .get fun _ => .ite (.pure _) (.bind (waits_modify fun _ => ⟨rfl, rfl, rfl⟩) fun _ => .pure _)

theorem waits_startProcessingStreamEventsEvenWithoutHandler :
    startProcessingStreamEventsEvenWithoutHandler.Goes Waits :=
  .bind .get fun _ => .ite (.pure _) (waits_modify fun _ => ⟨rfl, rfl, rfl⟩)

theorem waits_startWithHandler : startWithHandler.Goes Waits := by
  unfold startWithHandler
  refine .bind .get fun _ => .bind (.lift _) fun _ => ?_
  refine .bind (waits_modify fun _ => ⟨rfl, rfl, rfl⟩) fun _ => ?_
  exact waits_startProcessingStreamEventsEvenWithoutHandler

theorem waits_onWriteBuffer {α : Type} (x : Method Abort CyclicalBuffer α) :
    (onWriteBuffer x).Goes Waits := by
  intro s
  rw [Method.Leaves, onWriteBuffer, Method.ensures_onPart]
  exact .intro (fun _ _ => ⟨.of_eq rfl rfl, fun _ => rfl⟩) fun _ _ => ⟨.of_eq rfl rfl, fun _ => rfl⟩

theorem Waits.goes {α : Type} {x : Method Abort NetworkStream α} (h : x.Goes Waits) :
    x.Goes Settles := by
  intro s
  apply (h s).mono
  · exact fun _ _ ht => ht.toSettles
  · exact fun _ _ ht => ht.toSettles

theorem settles_writeWhileSpace (results : List WriteResult) :
    (writeWhileSpace results).Goes Settles := by
  induction results with
  | nil => exact .pure _
  | cons result results ih =>
    unfold writeWhileSpace
    refine .bind .get fun _ => .ite (.bind (Waits.goes (waits_onWriteBuffer _)) fun _ => ?_) (.pure _)
    cases result with
    | failed streamError => exact Waits.goes (waits_handleError _ _)
    | wrote length =>
      refine .bind (.modify fun _ => .of_eq rfl rfl) fun _ => .ite (.pure _) ?_
      exact .bind (Waits.goes (waits_onWriteBuffer _)) fun _ => ih

theorem waits_tryWriteBufferedData (outputStream : OutputStream) :
    (tryWriteBufferedData outputStream).Goes Waits := by
  refine .get_bind fun s => ?_
  split_ifs with hconnected hopened hended
  · exact Std.Refl.refl s
  · exact Std.Refl.refl s
  · exact Method.Goes.bind (waits_handleError _ _) (fun _ => .pure _) s
  · have hs : s.futureConnectedAndWritable = result true := Decidable.not_not.mp hconnected
    apply (settles_writeWhileSpace outputStream.writeResults s).mono
    · exact fun _ t ht => ⟨ht, fun hnot => absurd hs hnot⟩
    · exact fun _ t ht => ⟨ht, fun hnot => absurd hs hnot⟩

theorem waits_send (data : NSData) (outputStream : OutputStream) :
    (send data outputStream).Goes Waits := by
  unfold send
  refine .bind .get fun _ => .bind (.lift _) fun _ => ?_
  exact .bind (waits_onWriteBuffer _) fun _ => waits_tryWriteBufferedData outputStream

end NetworkStream
namespace DuplexStream
open FutureConnected

/-- The end point is not checked again, and what is settled stays. -/
structure Passes (s t : DuplexStream κ) : Prop where
  stream : s.stream.Settles t.stream
  remoteEndPoint : t.remoteEndPoint = s.remoteEndPoint
  authenticated : t.authenticated = s.authenticated

/-- Nothing is written or handed over, either, before the stream is connected. -/
structure Holds (s t : DuplexStream κ) : Prop extends Passes s t where
  accepted : s.stream.futureConnectedAndWritable ≠ result true →
    t.stream.accepted = s.stream.accepted
  handled : s.stream.futureConnectedAndWritable ≠ result true → t.handled = s.handled

instance : Std.Refl (Passes (κ := κ)) := ⟨fun _ => ⟨.of_eq rfl rfl, rfl, rfl⟩⟩

instance : IsTrans (DuplexStream κ) Passes := ⟨fun _ _ _ h h' =>
  ⟨h.stream.trans h'.stream, h'.remoteEndPoint.trans h.remoteEndPoint,
    h'.authenticated.trans h.authenticated⟩⟩

instance : Std.Refl (Holds (κ := κ)) := ⟨fun s => ⟨Std.Refl.refl s, fun _ => rfl, fun _ => rfl⟩⟩

instance : IsTrans (DuplexStream κ) Holds := ⟨fun s t u h h' =>
  ⟨IsTrans.trans s t u h.toPasses h'.toPasses,
    fun hs => (h'.accepted (h.stream.not_connected hs)).trans (h.accepted hs),
    fun hs => (h'.handled (h.stream.not_connected hs)).trans (h.handled hs)⟩⟩

variable {s t : DuplexStream κ}

theorem holds_onStream {x : NetworkStream.Action} (h : x.Goes NetworkStream.Waits) :
    (onStream x : DuplexMethod κ Unit).Goes Holds := by
  intro s
  rw [Method.Leaves, onStream, Method.ensures_onPart]
  apply (h s.stream).mono
  · exact fun _ _ ht => ⟨⟨ht.toSettles, rfl, rfl⟩, ht.accepted, fun _ => rfl⟩
  · exact fun _ _ ht => ⟨⟨ht.toSettles, rfl, rfl⟩, ht.accepted, fun _ => rfl⟩

theorem Holds.goes {α : Type} {x : DuplexMethod κ α} (h : x.Goes Holds) : x.Goes Passes := by
  intro s
  apply (h s).mono
  · exact fun _ _ ht => ht.toPasses
  · exact fun _ _ ht => ht.toPasses

theorem holds_onOpenCompleted : (onOpenCompleted : DuplexMethod κ Unit).Goes Holds := by
  unfold onOpenCompleted
  refine .bind .get fun s => .bind (holds_onStream NetworkStream.waits_onOpenCompleted) fun _ => ?_
  refine .ite (.pure _) ?_
  cases s.remoteEndPoint with
  | secure endPoint =>
    exact .modify fun _ => ⟨⟨.of_eq rfl rfl, rfl, rfl⟩, fun _ => rfl, fun _ => rfl⟩
  | insecure => exact .pure _

theorem holds_react (reactions : List Reaction) :
    (react reactions : DuplexMethod κ Unit).Goes Holds := by
  induction reactions with
  | nil => exact .pure _
  | cons reaction reactions ih =>
    cases reaction with
    | send data outputStream =>
      exact .bind (holds_onStream (NetworkStream.waits_send data outputStream)) fun _ => ih
    | terminate => exact .bind (holds_onStream NetworkStream.waits_terminate) fun _ => ih

theorem passes_readWhileAvailable (results : List ReadResult) :
    (readWhileAvailable results : DuplexMethod κ Unit).Goes Passes := by
  induction results with
  | nil => exact .pure _
  | cons result results ih =>
    cases result with
    | failed streamError =>
      exact Holds.goes (holds_onStream (NetworkStream.waits_onErrorOccurred _))
    | read data reactions =>
      refine .ite (.pure _) (.bind (.modify fun _ => ⟨.of_eq rfl rfl, rfl, rfl⟩) fun _ => ?_)
      exact .bind (Holds.goes (holds_react reactions)) fun _ => ih

/-- The loop is entered only when the stream is connected. -/
theorem holds_onBytesAvailableToRead (results : List ReadResult) :
    (onBytesAvailableToRead results : DuplexMethod κ Unit).Goes Holds := by
  refine .bind .get fun _ => .ite (.pure _) (.get_bind fun s => ?_)
  split_ifs with hconnected
  · exact Std.Refl.refl s
  · have hs : s.stream.futureConnectedAndWritable = result true := Decidable.not_not.mp hconnected
    apply (passes_readWhileAvailable results s).mono
    · exact fun _ t ht => ⟨ht, fun hnot => absurd hs hnot, fun hnot => absurd hs hnot⟩
    · exact fun _ t ht => ⟨ht, fun hnot => absurd hs hnot, fun hnot => absurd hs hnot⟩

/-- The end point is only asked while nothing is settled. -/
theorem holds_onSpaceAvailableToWrite (trust : SecTrust κ) (outputStream : OutputStream)
    (hs : s.stream.futureConnectedAndWritable ≠ ableToBeSet) :
    (onSpaceAvailableToWrite trust outputStream).Leaves s (Holds s) := by
  have hwrite := holds_onStream (NetworkStream.waits_tryWriteBufferedData outputStream) s
  unfold onSpaceAvailableToWrite
  rw [Method.Leaves, Method.ensures_bind]
  apply hwrite.mono
  · intro _ t ht
    have hset : t.stream.futureConnectedAndWritable ≠ ableToBeSet := by
      rcases ht.stream.connected with hsame | ⟨hable, _⟩
      · rwa [hsame]
      · exact absurd hable hs
    apply Method.Ensures.get_bind
    rw [if_pos hset]
    exact ht
  · exact fun _ t ht => ht

theorem Event.holds_perform (e : Event κ) (h : s.stream.futureConnectedAndWritable ≠ ableToBeSet ∨
    ∀ trust outputStream, e ≠ .hasSpaceAvailable trust outputStream) :
    e.perform.Leaves s (Holds s) := by
  cases e with
  | startWithHandler => exact holds_onStream NetworkStream.waits_startWithHandler s
  | startProcessingStreamEventsEvenWithoutHandler =>
    exact holds_onStream NetworkStream.waits_startProcessingStreamEventsEvenWithoutHandler s
  | send data outputStream => exact holds_onStream (NetworkStream.waits_send data outputStream) s
  | terminate => exact holds_onStream NetworkStream.waits_terminate s
  | openCompleted => exact holds_onOpenCompleted s
  | hasBytesAvailable results => exact holds_onBytesAvailableToRead results s
  | hasSpaceAvailable trust outputStream =>
    rcases h with hset | hother
    · exact holds_onSpaceAvailableToWrite trust outputStream hset
    · exact absurd rfl (hother trust outputStream)
  | errorOccurred error => exact holds_onStream (NetworkStream.waits_onErrorOccurred error) s
  | endEncountered results error =>
    exact Method.Goes.bind (holds_onBytesAvailableToRead results)
      (fun _ => holds_onStream (NetworkStream.waits_onEndOfStream error)) s

/-- The certificate is checked once, before anything passes, and a stream whose peer is not trusted
is closed. -/
structure Guarded (endPoint : SecureEndPoint κ) (s : DuplexStream κ) : Prop where
  remoteEndPoint : s.remoteEndPoint = .secure endPoint
  unchecked : s.stream.futureConnectedAndWritable = ableToBeSet → s.authenticated = []
  once : s.authenticated.length ≤ 1
  connected : s.stream.futureConnectedAndWritable = result true →
    ∃ trust, s.authenticated = [trust] ∧ endPoint.Trusts trust
  silent : s.stream.futureConnectedAndWritable ≠ result true →
    s.stream.accepted = [] ∧ s.handled = []
  rejected : ∀ trust ∈ s.authenticated, ¬ endPoint.Trusts trust →
    s.stream.futureConnectedAndWritable = failed ∧ s.stream.closedLocally = true
  settled : s.stream.closedLocally = true → s.stream.futureConnectedAndWritable ≠ ableToBeSet

variable {endPoint : SecureEndPoint κ}

theorem Guarded.of_holds (h : Guarded endPoint s) (ht : Holds s t) : Guarded endPoint t where
  remoteEndPoint := ht.remoteEndPoint.trans h.remoteEndPoint
  unchecked := by
    intro hable
    rw [ht.authenticated]
    apply h.unchecked
    rcases ht.stream.connected with hsame | ⟨hs, _⟩
    · rw [← hsame, hable]
    · exact hs
  once := by
    rw [ht.authenticated]
    exact h.once
  connected := by
    intro hyes
    rw [ht.authenticated]
    apply h.connected
    by_contra hnot
    exact ht.stream.not_connected hnot hyes
  silent := by
    intro hnot
    have hs : s.stream.futureConnectedAndWritable ≠ result true := by
      intro hyes
      rcases ht.stream.connected with hsame | ⟨hable, _⟩
      · exact hnot (hsame.trans hyes)
      · rw [hyes] at hable
        cases hable
    rw [ht.accepted hs, ht.handled hs]
    exact h.silent hs
  rejected := by
    intro trust htrust hnot
    rw [ht.authenticated] at htrust
    obtain ⟨hfailed, hclosed⟩ := h.rejected trust htrust hnot
    refine ⟨?_, ht.stream.closed hclosed⟩
    rcases ht.stream.connected with hsame | ⟨hable, _⟩
    · exact hsame.trans hfailed
    · rw [hfailed] at hable
      cases hable
  settled := ht.stream.settled h.settled

theorem run_asyncHandleStreamsConnected (h : s.remoteEndPoint = .secure endPoint)
    (trust : SecTrust κ) : (asyncHandleStreamsConnected trust).run.run s =
      (.ok (endPoint.asyncHandleStreamsConnected trust),
        { s with authenticated := s.authenticated ++ [trust] }) := by
  obtain ⟨remoteEndPoint, stream, sslPeerNames, authenticated, handled⟩ := s
  obtain rfl : remoteEndPoint = .secure endPoint := h
  rfl

/-- The peer is trusted: the stream is connected, and writes. -/
theorem Guarded.complete_result (h : Guarded endPoint s) {trust : SecTrust κ}
    (hable : s.stream.futureConnectedAndWritable = ableToBeSet) (htrust : endPoint.Trusts trust)
    (outputStream : OutputStream) :
    (onStream (NetworkStream.complete (.result true) outputStream) : DuplexMethod κ Unit).Leaves
      { s with authenticated := s.authenticated ++ [trust] } (Guarded endPoint) := by
  have hconnected : Guarded endPoint { s with
      stream := { s.stream with futureConnectedAndWritable := result true }
      authenticated := [trust] } := by
    refine ⟨h.remoteEndPoint, ?_, le_rfl, fun _ => ⟨trust, rfl, htrust⟩,
      fun hnot => absurd rfl hnot, ?_, fun _ => by simp⟩
    · intro hset
      cases hset
    · intro other hother hnot
      rw [List.mem_singleton.mp hother] at hnot
      exact absurd htrust hnot
  rw [h.unchecked hable, List.nil_append, Method.Leaves, onStream, Method.ensures_onPart,
    NetworkStream.complete]
  apply Method.Ensures.modify_bind
  apply (NetworkStream.waits_tryWriteBufferedData outputStream _).mono
  · exact fun _ t ht => hconnected.of_holds ⟨⟨ht.toSettles, rfl, rfl⟩, ht.accepted, fun _ => rfl⟩
  · exact fun _ t ht => hconnected.of_holds ⟨⟨ht.toSettles, rfl, rfl⟩, ht.accepted, fun _ => rfl⟩

/-- The peer is not trusted: the stream fails, and is closed. -/
theorem Guarded.complete_failure (h : Guarded endPoint s) (trust : SecTrust κ)
    (hable : s.stream.futureConnectedAndWritable = ableToBeSet) (error : String)
    (outputStream : OutputStream) :
    (onStream (NetworkStream.complete (.failure error) outputStream) : DuplexMethod κ Unit).Leaves
      { s with authenticated := s.authenticated ++ [trust] } (Guarded endPoint) := by
  have hnot : s.stream.futureConnectedAndWritable ≠ result true := by
    rw [hable]
    decide
  obtain ⟨haccepted, hhandled⟩ := h.silent hnot
  have hfailed {t : NetworkStream} (ht : NetworkStream.Waits { s.stream with
      futureConnectedAndWritable := failed
      futureOpenedIsSet := true } t) (hclosed : t.closedLocally = true) :
      Guarded endPoint { s with stream := t, authenticated := [trust] } := by
    have hfuture : t.futureConnectedAndWritable = failed := by
      rcases ht.connected with hsame | ⟨hset, _⟩
      · exact hsame
      · cases hset
    have hsilent : t.accepted = [] := (ht.accepted (by simp)).trans haccepted
    refine ⟨h.remoteEndPoint, fun hset => ?_, le_rfl, fun hset => ?_, fun _ => ⟨hsilent, hhandled⟩,
      fun _ _ _ => ⟨hfuture, hclosed⟩, fun _ => ?_⟩
    · rw [hfuture] at hset
      cases hset
    · rw [hfuture] at hset
      cases hset
    · rw [hfuture]
      decide
  have hwaits := NetworkStream.waits_handleFailure error
  rw [h.unchecked hable, List.nil_append, Method.Leaves, onStream, Method.ensures_onPart,
    NetworkStream.complete]
  apply Method.Ensures.modify_bind
  apply ((Method.Goes.bind hwaits fun _ => hwaits) _ |>.and ?_).mono
  · exact fun _ t ht => hfailed ht.1 ht.2
  · exact fun _ t ht => hfailed ht.1 ht.2
  · rw [Method.ensures_bind]
    apply (NetworkStream.closes_handleFailure error _).mono
    · exact fun _ t _ => NetworkStream.closes_handleFailure error t
    · exact fun _ t ht => ht

theorem Guarded.onSpaceAvailableToWrite (h : Guarded endPoint s) (trust : SecTrust κ)
    (outputStream : OutputStream) (hable : s.stream.futureConnectedAndWritable = ableToBeSet) :
    (onSpaceAvailableToWrite trust outputStream).Leaves s (Guarded endPoint) := by
  have hwrite : (onStream (NetworkStream.tryWriteBufferedData outputStream) :
      DuplexMethod κ Unit).run.run s = (.ok (), s) := by
    have hrun : (NetworkStream.tryWriteBufferedData outputStream).run.run s.stream =
        (.ok (), s.stream) := by
      unfold NetworkStream.tryWriteBufferedData
      rw [Method.run_bind, Method.run_get]
      dsimp only
      rw [if_pos (by rw [hable]; decide)]
      rfl
    rw [onStream, Method.run_onPart, hrun]
  have hchecked := run_asyncHandleStreamsConnected h.remoteEndPoint trust
  unfold DuplexStream.onSpaceAvailableToWrite
  rw [Method.Leaves, Method.ensures_bind]
  apply Method.Ensures.of_run_eq hwrite
  apply Method.Ensures.get_bind
  rw [if_neg (Decidable.not_not.mpr hable), Method.ensures_bind]
  apply Method.Ensures.of_run_eq hchecked
  by_cases htrust : endPoint.Trusts trust
  · rw [SecureEndPoint.asyncHandleStreamsConnected_of_trusts htrust]
    exact h.complete_result hable htrust outputStream
  · obtain ⟨error, herror⟩ := SecureEndPoint.asyncHandleStreamsConnected_of_not_trusts htrust
    rw [herror]
    exact h.complete_failure trust hable error outputStream

theorem Guarded.perform (h : Guarded endPoint s) (e : Event κ) :
    e.perform.Leaves s (Guarded endPoint) := by
  have hheld (hother : s.stream.futureConnectedAndWritable ≠ ableToBeSet ∨
      ∀ trust outputStream, e ≠ .hasSpaceAvailable trust outputStream) :
      e.perform.Leaves s (Guarded endPoint) := by
    apply (e.holds_perform hother).mono
    · exact fun _ _ ht => h.of_holds ht
    · exact fun _ _ ht => h.of_holds ht
  by_cases hable : s.stream.futureConnectedAndWritable = ableToBeSet
  · cases e with
    | hasSpaceAvailable trust outputStream =>
      exact h.onSpaceAvailableToWrite trust outputStream hable
    | _ => exact hheld (.inr (by rintro _ _ ⟨⟩))
  · exact hheld (.inl hable)

variable {created : DuplexStream κ} {tr : History (DuplexStream κ) (Event κ)}

/-- A stream that is made outside of a test goes to a secure end point. -/
theorem guarded_networkStreamToEndPoint {remoteEndPoint : NetworkEndPoint κ}
    (h : networkStreamToEndPoint false remoteEndPoint = .ok created) :
    ∃ endPoint, remoteEndPoint = .secure endPoint ∧ Guarded endPoint created := by
  cases remoteEndPoint with
  | insecure => cases h
  | secure endPoint =>
    obtain rfl := Except.ok.inj h
    refine ⟨endPoint, rfl, rfl, fun _ => rfl, Nat.zero_le 1, fun hset => ?_, fun _ => ⟨rfl, rfl⟩, ?_,
      fun hclosed => ?_⟩
    · cases hset
    · rintro trust ⟨⟩
    · cases hclosed

/-- Whether the stream is connected is settled once. -/
theorem settled_of_run (h : (machine created).Run tr) :
    ∀ p ∈ tr, p.2.stream.futureConnectedAndWritable ≠ ableToBeSet →
      ((machine created).last tr).stream.futureConnectedAndWritable =
        p.2.stream.futureConnectedAndWritable := by
  induction tr with
  | nil =>
    intro p hp
    cases hp
  | cons first tr ih =>
    obtain ⟨e, t⟩ := first
    intro p hp hset
    rcases List.mem_cons.mp hp with rfl | hp
    · rfl
    · have hbefore := ih h.1 p hp hset
      obtain rfl := Option.some.inj h.2
      have hnot : ((machine created).last tr).stream.futureConnectedAndWritable ≠ ableToBeSet := by
        rwa [hbefore]
      rcases (e.holds_perform (.inl hnot)).run.stream.connected with hsame | ⟨hable, _⟩
      · exact hsame.trans hbefore
      · exact absurd hable hnot

/-- In whatever order the events of the streams, the sends, what the handler does with what it reads
and terminations come: bytes only pass after the peer has been found to be trusted with the pinned
certificate, which is found out once. A stream whose peer is not trusted, or that is terminated
before it is connected, is silent for good. -/
theorem guarded_of_run {remoteEndPoint : NetworkEndPoint κ}
    (hcreated : networkStreamToEndPoint false remoteEndPoint = .ok created)
    (h : (machine created).Run tr) :
    ∃ endPoint, remoteEndPoint = .secure endPoint ∧
      let s := (machine created).last tr
      (s.stream.accepted ≠ [] ∨ s.handled ≠ [] →
        ∃ trust, s.authenticated = [trust] ∧ endPoint.Trusts trust) ∧
      s.authenticated.length ≤ 1 ∧
      (∀ trust ∈ s.authenticated, ¬ endPoint.Trusts trust →
        s.stream.closedLocally = true ∧ s.stream.accepted = [] ∧ s.handled = []) ∧
      ∀ p ∈ tr, p.2.stream.closedLocally = true →
        p.2.stream.futureConnectedAndWritable ≠ result true →
        s.stream.accepted = [] ∧ s.handled = [] := by
  obtain ⟨endPoint, hsecure, hinit⟩ := guarded_networkStreamToEndPoint hcreated
  have hstep : ∀ s e t, Guarded endPoint s → (machine created).step s e = some t →
      Guarded endPoint t := by
    intro s e t hs hstep
    obtain rfl := Option.some.inj hstep
    exact (hs.perform e).run
  have hlast := h.state_invariant hinit hstep
  refine ⟨endPoint, hsecure, ?_, hlast.once, ?_, ?_⟩
  · intro hpassed
    apply hlast.connected
    by_contra hnot
    obtain ⟨haccepted, hhandled⟩ := hlast.silent hnot
    rcases hpassed with hwritten | hread
    · exact hwritten haccepted
    · exact hread hhandled
  · intro trust htrust hnot
    obtain ⟨hfailed, hclosed⟩ := hlast.rejected trust htrust hnot
    exact ⟨hclosed, hlast.silent (by rw [hfailed]; decide)⟩
  · intro p hp hclosed hnot
    have hp' := h.state_invariant_of_mem hinit hstep p hp
    apply hlast.silent
    rw [settled_of_run h p hp (hp'.settled hclosed)]
    exact hnot

/-- The certificate 7 is the anchor with which the trust is found. -/
def sampleTrust : SecTrust ℕ where
  certificateCount := 2
  setAnchorCertificates _ := 0
  evaluate anchors := (0, if anchors = [7] then .unspecified else .recoverableTrustFailure)

/-- What is sent is written once the stream is connected. The handler answers and terminates. -/
def sampleEvents : List (Event ℕ) :=
  [.startWithHandler, .send [1, 2] ⟨.opening, []⟩, .openCompleted,
    .hasSpaceAvailable sampleTrust ⟨.opened, [.wrote 2]⟩,
    .hasBytesAvailable [.read [3] [.send [4] ⟨.opened, [.wrote 1]⟩, .terminate]]]

theorem guarded_of_sampleEvents : ∃ created,
    networkStreamToEndPoint false (.secure ⟨"example.com", 7⟩) = .ok created ∧
    ∃ tr, (machine created).exec sampleEvents = some tr ∧
      ∃ endPoint, NetworkEndPoint.secure ⟨"example.com", 7⟩ = .secure endPoint ∧
        let s := (machine created).last tr
        (s.stream.accepted ≠ [] ∨ s.handled ≠ [] →
          ∃ trust, s.authenticated = [trust] ∧ endPoint.Trusts trust) ∧
        s.authenticated.length ≤ 1 ∧
        (∀ trust ∈ s.authenticated, ¬ endPoint.Trusts trust →
          s.stream.closedLocally = true ∧ s.stream.accepted = [] ∧ s.handled = []) ∧
        ∀ p ∈ tr, p.2.stream.closedLocally = true →
          p.2.stream.futureConnectedAndWritable ≠ result true →
          s.stream.accepted = [] ∧ s.handled = [] := by
  let created : DuplexStream ℕ := { remoteEndPoint := .secure ⟨"example.com", 7⟩ }
  obtain ⟨tr, htr⟩ : ∃ tr, (machine created).exec sampleEvents = some tr := ⟨_, rfl⟩
  exact ⟨created, rfl, tr, htr, guarded_of_run rfl (Machine.run_of_exec htr)⟩

/-- The bytes pass. -/
example :
    let s := (machine { remoteEndPoint := .secure ⟨"example.com", 7⟩ }).exec sampleEvents
    s.map (fun tr => tr.head?.map fun p => (p.2.stream.accepted, p.2.handled)) =
      some (some ([1, 2, 4], [[3]])) := by
  decide +kernel

end DuplexStream
end SignalIOS.Network
