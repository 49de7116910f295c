import SignalIOS.Network.NetworkStream
import SignalIOS.Util.CyclicalQueue

/-! What the output stream has accepted and what the write buffer holds is what was sent. -/
namespace SignalIOS.Network.NetworkStream
open SignalIOS.Lib

/-- The methods that are invoked from outside, with what the end point and the output stream do
meanwhile. -/
inductive Event
  | startWithHandler
  | startProcessingStreamEventsEvenWithoutHandler
  | send (data : NSData) (outputStream : OutputStream)
  | openCompleted (failure : Option String)
  | hasSpaceAvailable (checked : Checked) (outputStream : OutputStream)
  | checkedCompletes (checked : Checked) (outputStream : OutputStream)
  | errorOccurred (error : String)
  | endEncountered (error : String)
  | terminate

namespace Event

def perform : Event → Action
  | startWithHandler => NetworkStream.startWithHandler
  | startProcessingStreamEventsEvenWithoutHandler =>
    NetworkStream.startProcessingStreamEventsEvenWithoutHandler
  | send data outputStream => NetworkStream.send data outputStream
  | openCompleted failure => onOpenCompleted failure
  | hasSpaceAvailable checked outputStream => onSpaceAvailableToWrite checked outputStream
  | checkedCompletes checked outputStream => NetworkStream.checkedCompletes checked outputStream
  | errorOccurred error => onErrorOccurred error
  | endEncountered error => onEndOfStream error
  | terminate => NetworkStream.terminate

/-- The stream after the event, whether or not the method raised. -/
def after (e : Event) (s : NetworkStream) : NetworkStream := (e.perform.run.run s).2

def data : Event → NSData
  | send data _ => data
  | _ => []

end Event

/-- The stream after the events, the first first. -/
def after (events : List Event) (s : NetworkStream) : NetworkStream :=
  events.foldl (fun s e => e.after s) s

def sent (events : List Event) : NSData := (events.map Event.data).flatten

/-- The output stream is asked to write, once the stream is connected. -/
def Writes (outputStream : OutputStream) (connected : FutureConnected) : Prop :=
  connected = .result true ∧
    NSStreamStatus.opened.rawValue ≤ outputStream.streamStatus.rawValue ∧
    outputStream.streamStatus.rawValue < NSStreamStatus.atEnd.rawValue

/-- How many bytes of the head are taken. -/
def taken (length : ℕ) (b : CyclicalBuffer) : ℕ := min length (min b.count.toNat b.readSlack)

/-- Whatever is written can be discarded, its offset computed with 32 bits. -/
def WritesFit : List WriteResult → CyclicalBuffer → Prop
  | [], _ => True
  | .failed _ :: _, _ => True
  | .wrote length :: results, b => taken length b ≠ 0 →
    b.KeepsOffset (taken length b) ∧
      WritesFit results ((CyclicalBuffer.discard (taken length b)).run.run b).2

/-- A handler is there for what is sent, the 32 bits of the buffer suffice for it, and they suffice
for what is written. -/
def Event.Fits (s : NetworkStream) : Event → Prop
  | .send data outputStream =>
    s.rawDataHandler.isSome ∧ s.writeBuffer.HasRoom data ∧
      (Writes outputStream s.futureConnectedAndWritable → WritesFit outputStream.writeResults
        ((CyclicalBuffer.enqueueData data).run.run s.writeBuffer).2)
  | .hasSpaceAvailable checked outputStream =>
    (Writes outputStream s.futureConnectedAndWritable ∨
      s.futureConnectedAndWritable = .ableToBeSet ∧ checked = .result true ∧
        Writes outputStream (.result true)) → WritesFit outputStream.writeResults s.writeBuffer
  | .checkedCompletes checked outputStream =>
    (s.futureConnectedAndWritable = .flattening ∧ checked = .result true ∧
      Writes outputStream (.result true)) → WritesFit outputStream.writeResults s.writeBuffer
  | _ => True

/-- Every event fits, when it comes. -/
def AllFit : List Event → NetworkStream → Prop
  | [], _ => True
  | e :: events, s => e.Fits s ∧ AllFit events (e.after s)

/-- Nothing but `data` comes to what was accepted and what is buffered. -/
structure Extends (s : NetworkStream) (data : NSData) (t : NetworkStream) : Prop where
  wellFormed : t.writeBuffer.WellFormed
  bytes : t.accepted ++ t.writeBuffer.contents = s.accepted ++ s.writeBuffer.contents ++ data

/-- A method that neither writes nor sends. -/
abbrev Spares (x : Action) : Prop := x.Fixes fun s => (s.writeBuffer, s.accepted)

theorem spares_handleError (error : String) (causedTermination : Bool) :
    Spares (handleError error causedTermination) := .modify fun _ => rfl

theorem spares_terminate : Spares terminate := by
  unfold terminate
  refine .bind .get fun _ => .ite (.pure _) ?_
  refine .bind (.modify fun _ => rfl) fun _ => .bind .get fun _ => .ite ?_ ?_
  · exact .bind (.modify fun _ => rfl) fun _ => .modify fun _ => rfl
  · exact .modify fun _ => rfl

theorem spares_handleFailure (error : String) : Spares (handleFailure error) :=
  .bind (spares_handleError error true) fun _ => spares_terminate

theorem spares_onNetworkFailure (error : String) : Spares (onNetworkFailure error) := by
  unfold onNetworkFailure
  refine .bind (.modify fun _ => rfl) fun _ => .bind .get fun _ => .ite ?_ ?_
  · refine .bind (.modify fun _ => rfl) fun _ => ?_
    exact .bind (spares_handleFailure error) fun _ => spares_handleFailure error
  · exact spares_handleFailure error

theorem spares_onOpenCompleted (failure : Option String) : Spares (onOpenCompleted failure) := by
  unfold onOpenCompleted
  refine .bind .get fun _ => .ite (.pure _) (.bind (.modify fun _ => rfl) fun _ => ?_)
  cases failure with
  | none => exact .pure _
  | some error => exact spares_onNetworkFailure error

theorem spares_startProcessingStreamEventsEvenWithoutHandler :
    Spares startProcessingStreamEventsEvenWithoutHandler :=
  .bind .get fun _ => .ite (.pure _) (.modify fun _ => rfl)

theorem spares_startWithHandler : Spares startWithHandler := by
  unfold startWithHandler
  refine .bind .get fun _ => .bind (.lift _) fun _ => .bind (.modify fun _ => rfl) fun _ => ?_
  exact spares_startProcessingStreamEventsEvenWithoutHandler

theorem spares_onEndOfStream (error : String) : Spares (onEndOfStream error) := by
  unfold onEndOfStream onErrorOccurred
  refine .bind .get fun _ => .ite spares_terminate ?_
  exact .bind (spares_onNetworkFailure error) fun _ => spares_terminate

variable {s t u : NetworkStream} {data : NSData} {outputStream : OutputStream}
  {results : List WriteResult}

theorem Extends.trans {more : NSData} (h : Extends s data t) (h' : Extends t more u) :
    Extends s (data ++ more) u :=
  ⟨h'.wellFormed, by rw [h'.bytes, h.bytes, List.append_assoc]⟩

theorem Extends.of_spares (hs : s.writeBuffer.WellFormed)
    (h : (t.writeBuffer, t.accepted) = (s.writeBuffer, s.accepted)) : Extends s [] t := by
  obtain ⟨hbuffer, haccepted⟩ := Prod.mk.inj h
  constructor
  · rw [hbuffer]
    exact hs
  · rw [hbuffer, haccepted, List.append_nil]

theorem Spares.extends {x : Action} (h : Spares x) (hs : s.writeBuffer.WellFormed) :
    x.Ensures s (fun _ t => Extends s [] t) fun _ t => Extends s [] t :=
  (h s).mono (fun _ _ ht => .of_spares hs ht) fun _ _ ht => .of_spares hs ht

/-- What the output stream takes of the head is discarded. -/
theorem extends_discard {b : CyclicalBuffer} {d : ℕ} (hs : s.writeBuffer.WellFormed)
    (hd : d ≤ s.writeBuffer.count.toNat)
    (hring : b.ring = s.writeBuffer.ring.advance d) :
    Extends s []
      { s with accepted := s.accepted ++ List.take d s.writeBuffer.contents, writeBuffer := b } := by
  constructor
  · exact hs.of_advance hring
  · have hcontents : b.contents = s.writeBuffer.contents.drop d := by
      rw [CyclicalBuffer.contents, hring]
      exact RingBuffer.contents_advance hs.ring hd
    dsimp only
    rw [hcontents, List.append_assoc, List.take_append_drop, List.append_nil]

theorem length_head {b : CyclicalBuffer} (hb : b.WellFormed) :
    (List.take (min b.count.toNat b.readSlack) b.contents).length =
      min b.count.toNat b.readSlack := by
  rw [List.length_take, CyclicalBuffer.length_contents hb]
  omega

/-- The loop moves bytes from the buffer to the output stream. -/
theorem writeWhileSpace_extends (hs : s.writeBuffer.WellFormed)
    (hfit : WritesFit results s.writeBuffer) :
    (writeWhileSpace results).Leaves s (Extends s []) := by
  induction results generalizing s with
  | nil => exact .of_spares hs rfl
  | cons result results ih =>
    have hpeek := CyclicalBuffer.run_peekVolatileHeadOfData hs
    unfold writeWhileSpace
    apply Method.Ensures.get_bind
    split_ifs with hpos
    · unfold onWriteBuffer
      rw [Method.ensures_bind, Method.ensures_onPart]
      apply Method.Ensures.of_run_eq hpeek
      cases result with
      | failed streamError => exact (spares_handleError _ _).extends hs
      | wrote length =>
        dsimp only
        rw [length_head hs, ← taken, List.take_take]
        have hhead : taken length s.writeBuffer ≤
            min s.writeBuffer.count.toNat s.writeBuffer.readSlack := Nat.min_le_right _ _
        have hmin : min (taken length s.writeBuffer)
            (min s.writeBuffer.count.toNat s.writeBuffer.readSlack) =
              taken length s.writeBuffer := Nat.min_eq_left hhead
        rw [hmin]
        apply Method.Ensures.modify_bind
        split_ifs with hzero
        · rw [hzero, List.take_zero, List.append_nil]
          exact .of_spares hs rfl
        · obtain ⟨hkeeps, hrest⟩ := hfit hzero
          obtain ⟨b, hdiscard, hring⟩ := CyclicalBuffer.discard_spec hkeeps (by omega)
          have hextends := extends_discard hs (by omega) hring
          rw [hdiscard] at hrest
          rw [Method.ensures_bind, Method.ensures_onPart]
          apply Method.Ensures.of_run_eq hdiscard
          apply (ih hextends.wellFormed hrest).mono
          · intro _ t ht
            exact hextends.trans ht
          · intro _ t ht
            exact hextends.trans ht
    · exact .of_spares hs rfl

theorem tryWriteBufferedData_extends (hs : s.writeBuffer.WellFormed)
    (hfit : Writes outputStream s.futureConnectedAndWritable →
      WritesFit outputStream.writeResults s.writeBuffer) :
    (tryWriteBufferedData outputStream).Leaves s (Extends s []) := by
  unfold tryWriteBufferedData
  apply Method.Ensures.get_bind
  split_ifs with hconnected hopened hended
  · exact .of_spares hs rfl
  · exact .of_spares hs rfl
  · exact (spares_handleError _ _).extends hs
  · exact writeWhileSpace_extends hs
      (hfit ⟨Decidable.not_not.mp hconnected, Nat.not_lt.mp hopened, Nat.not_le.mp hended⟩)

theorem fixes_writeWhileSpace (results : List WriteResult) :
    (writeWhileSpace results).Fixes NetworkStream.futureConnectedAndWritable := by
  induction results with
  | nil => exact .pure _
  | cons result results ih =>
    unfold writeWhileSpace onWriteBuffer
    refine .bind .get fun _ => .ite (.bind (.onPart _ fun _ _ => rfl) fun _ => ?_) (.pure _)
    cases result with
    | failed streamError => exact .modify fun _ => rfl
    | wrote length =>
      refine .bind (.modify fun _ => rfl) fun _ => .ite (.pure _) ?_
      exact .bind (.onPart _ fun _ _ => rfl) fun _ => ih

theorem fixes_tryWriteBufferedData (outputStream : OutputStream) :
    (tryWriteBufferedData outputStream).Fixes NetworkStream.futureConnectedAndWritable := by
  unfold tryWriteBufferedData
  refine .bind .get fun _ => .ite (.pure _) (.ite (.pure _) (.ite ?_ ?_))
  · exact .bind (.modify fun _ => rfl) fun _ => .pure _
  · exact fixes_writeWhileSpace outputStream.writeResults

theorem complete_extends {checked : Checked} (hs : s.writeBuffer.WellFormed)
    (hfit : checked = .result true → Writes outputStream (.result true) →
      WritesFit outputStream.writeResults s.writeBuffer) :
    (complete checked outputStream).Leaves s (Extends s []) := by
  unfold complete
  cases checked with
  | pending => exact .of_spares hs rfl
  | result isYes =>
    have hwrites : Writes outputStream (.result isYes) →
        WritesFit outputStream.writeResults s.writeBuffer := by
      intro h
      obtain rfl := FutureConnected.result.inj h.1
      exact hfit rfl h
    apply Method.Ensures.modify_bind
    apply (tryWriteBufferedData_extends
      (s := { s with futureConnectedAndWritable := .result isYes }) hs hwrites).mono
    · intro _ t ht
      exact ⟨ht.wellFormed, ht.bytes⟩
    · intro _ t ht
      exact ⟨ht.wellFormed, ht.bytes⟩
  | failure error =>
    have hspares : Spares (do
        modify fun s => { s with futureConnectedAndWritable := .failed, futureOpenedIsSet := true }
        handleFailure error
        handleFailure error) := by
      refine .bind (.modify fun _ => rfl) fun _ => ?_
      exact .bind (spares_handleFailure error) fun _ => spares_handleFailure error
    exact hspares.extends hs

theorem onSpaceAvailableToWrite_extends {checked : Checked} (hs : s.writeBuffer.WellFormed)
    (hfit : (Event.hasSpaceAvailable checked outputStream).Fits s) :
    (onSpaceAvailableToWrite checked outputStream).Leaves s (Extends s []) := by
  have hwrites := tryWriteBufferedData_extends hs fun h => hfit (.inl h)
  unfold onSpaceAvailableToWrite
  rw [Method.Leaves, Method.ensures_bind]
  by_cases hable : s.futureConnectedAndWritable = .ableToBeSet
  · have hrun : (tryWriteBufferedData outputStream).run.run s = (.ok (), s) := by
      unfold tryWriteBufferedData
      rw [Method.run_bind, Method.run_get]
      dsimp only
      rw [if_pos (by rw [hable]; decide)]
      rfl
    apply Method.Ensures.of_run_eq hrun
    apply Method.Ensures.get_bind
    rw [if_neg (Decidable.not_not.mpr hable)]
    exact complete_extends hs fun hchecked h => hfit (.inr ⟨hable, hchecked, h⟩)
  · apply (hwrites.and (fixes_tryWriteBufferedData outputStream s)).mono
    · rintro _ t ⟨ht, hfuture⟩
      apply Method.Ensures.get_bind
      rw [if_pos (by rw [hfuture]; exact hable)]
      exact ht
    · intro _ t ht
      exact ht.1

theorem checkedCompletes_extends {checked : Checked} (hs : s.writeBuffer.WellFormed)
    (hfit : (Event.checkedCompletes checked outputStream).Fits s) :
    (checkedCompletes checked outputStream).Leaves s (Extends s []) := by
  unfold checkedCompletes
  apply Method.Ensures.get_bind
  split_ifs with hflattening
  · exact complete_extends hs fun hchecked h => hfit ⟨hflattening, hchecked, h⟩
  · exact .of_spares hs rfl

/-- What is sent is buffered before it is written. -/
theorem send_extends (hs : s.writeBuffer.WellFormed)
    (hfit : (Event.send data outputStream).Fits s) :
    (send data outputStream).Leaves s (Extends s data) := by
  obtain ⟨hhandler, hroom, hwrites⟩ := hfit
  obtain ⟨b, henqueue, hb, hcontents, -⟩ := CyclicalBuffer.enqueueData_spec hs hroom
  have hextends : Extends s data { s with writeBuffer := b } := by
    constructor
    · exact hb
    · dsimp only
      rw [hcontents, List.append_assoc]
  have hstate : Abort.of (requireState (s.rawDataHandler.isSome)) = .ok () := by
    rw [requireState, if_pos hhandler]
    rfl
  rw [henqueue] at hwrites
  unfold send onWriteBuffer
  apply Method.Ensures.get_bind
  rw [hstate, Method.ensures_bind, Method.ensures_lift]
  constructor
  · intro _ _
    rw [Method.ensures_bind, Method.ensures_onPart]
    apply Method.Ensures.of_run_eq henqueue
    apply (tryWriteBufferedData_extends hextends.wellFormed hwrites).mono
    · intro _ t ht
      exact List.append_nil data ▸ hextends.trans ht
    · intro _ t ht
      exact List.append_nil data ▸ hextends.trans ht
  · intro _ h
    cases h

namespace Event

/-- An event adds what it sends. -/
theorem extends_after {e : Event} (hs : s.writeBuffer.WellFormed) (hfit : e.Fits s) :
    Extends s e.data (e.after s) := by
  have hperform : e.perform.Leaves s (Extends s e.data) := by
    cases e with
    | startWithHandler => exact spares_startWithHandler.extends hs
    | startProcessingStreamEventsEvenWithoutHandler =>
      exact spares_startProcessingStreamEventsEvenWithoutHandler.extends hs
    | send data outputStream => exact send_extends hs hfit
    | openCompleted failure => exact (spares_onOpenCompleted failure).extends hs
    | hasSpaceAvailable checked outputStream => exact onSpaceAvailableToWrite_extends hs hfit
    | checkedCompletes checked outputStream => exact checkedCompletes_extends hs hfit
    | errorOccurred error => exact (spares_onNetworkFailure error).extends hs
    | endEncountered error => exact (spares_onEndOfStream error).extends hs
    | terminate => exact spares_terminate.extends hs
  exact hperform.run

end Event

theorem extends_after {events : List Event} (hs : s.writeBuffer.WellFormed)
    (hfit : AllFit events s) : Extends s (sent events) (after events s) := by
  induction events generalizing s with
  | nil => exact .of_spares hs rfl
  | cons e events ih =>
    have hfirst := Event.extends_after hs hfit.1
    exact hfirst.trans (ih hfirst.wellFormed hfit.2)

/-- A capacity below `2 ^ 32` fits whatever is written. -/
theorem writesFit_of_capacity_lt {b : CyclicalBuffer} (hb : b.WellFormed)
    (hcapacity : b.capacity < 2 ^ 32) : WritesFit results b := by
  induction results generalizing b with
  | nil => trivial
  | cons result results ih =>
    cases result with
    | failed streamError => trivial
    | wrote length =>
      intro _
      have hkeeps := CyclicalBuffer.keepsOffset_of_capacity_lt hb hcapacity (taken length b)
      have hle : taken length b ≤ b.count.toNat :=
        Nat.le_trans (Nat.min_le_right _ _) (Nat.min_le_left _ _)
      obtain ⟨b', hdiscard, hring⟩ := CyclicalBuffer.discard_spec hkeeps hle
      rw [hdiscard]
      have hlength : b'.capacity = b.capacity := congrArg (List.length ∘ RingBuffer.cells) hring
      exact ⟨hkeeps, ih (hb.of_advance hring) (hlength ▸ hcapacity)⟩

/-- The bytes that the output stream accepted and then those that are buffered are the bytes that
were sent. -/
theorem accepted_append_contents {events : List Event} (hfit : AllFit events {}) :
    (after events {}).accepted ++ (after events {}).writeBuffer.contents = sent events :=
  (extends_after (CyclicalBuffer.wellFormed_withCapacity (by decide)) hfit).bytes

set_option maxRecDepth 2000 in
/-- Bytes that are sent before and after the stream is connected, and written in part. -/
theorem accepted_append_contents_partial :
    let events := [.startWithHandler, .send [1, 2, 3] ⟨.opened, []⟩,
      .hasSpaceAvailable (.result true) ⟨.opened, [.wrote 2]⟩, .send [4, 5] ⟨.writing, [.wrote 0]⟩]
    (after events {}).accepted ++ (after events {}).writeBuffer.contents = sent events :=
  accepted_append_contents ⟨trivial,
    ⟨rfl, fun _ => ⟨by decide, .inr (by decide)⟩, fun h => FutureConnected.noConfusion h.1⟩,
    fun _ => writesFit_of_capacity_lt ⟨by decide, by decide⟩ (by decide),
    ⟨rfl, fun _ => ⟨by decide, .inr (by decide)⟩,
      fun _ => writesFit_of_capacity_lt ⟨by decide, by decide⟩ (by decide)⟩,
    trivial⟩

/-- Before the stream is connected, what is sent is only buffered. -/
theorem after_send (hhandler : s.rawDataHandler.isSome)
    (hconnected : s.futureConnectedAndWritable ≠ .result true) (data : NSData)
    (outputStream : OutputStream) : (Event.send data outputStream).after s =
      { s with writeBuffer := (CyclicalBuffer.Operation.enqueueData data).after s.writeBuffer } := by
  have hstate : Abort.of (requireState (s.rawDataHandler.isSome)) = .ok () := by
    rw [requireState, if_pos hhandler]
    rfl
  rw [CyclicalBuffer.Operation.after_enqueueData]
  unfold Event.after Event.perform send onWriteBuffer tryWriteBufferedData
  simp only [Method.run_bind, Method.run_get, hstate, Method.run_lift, Method.run_onPart]
  rcases (CyclicalBuffer.enqueueData data).run.run s.writeBuffer with ⟨e | _, b⟩
  · rfl
  · dsimp only
    rw [if_pos hconnected]
    rfl

section
open CyclicalBuffer (packed overgrown)

/-- A stream to which `data` was sent before it is connected, in a buffer that has grown beyond
`2 ^ 32`. -/
def overgrownStream (data : NSData) : NetworkStream :=
  { rawDataHandler := some [], started := true, writeBuffer := packed data (2 ^ 32 + 2) }

/-- The output stream takes two bytes of it. -/
def writesTwo : Event := .hasSpaceAvailable (.result true) ⟨.opened, [.wrote 2]⟩

theorem writeWhileSpace_two {data : NSData} (hdata : data.length = 1717986880) :
    (writeWhileSpace [.wrote 2]).run.run
        { overgrownStream data with futureConnectedAndWritable := .result true } =
      (.ok (), { overgrownStream data with
        futureConnectedAndWritable := .result true
        accepted := List.take 2 data
        writeBuffer :=
          ⟨(packed data (2 ^ 32 + 2)).buffer, 0, (packed data (2 ^ 32 + 2)).count - 2⟩ }) := by
  have hlt : data.length < 2 ^ 32 := by omega
  have hpacked := CyclicalBuffer.wellFormed_packed (n := 2 ^ 32 + 2) hlt (by omega) (by omega)
  have hcount := CyclicalBuffer.count_packed (n := 2 ^ 32 + 2) hlt
  have hslack : (packed data (2 ^ 32 + 2)).readSlack = 2 ^ 32 + 2 := by
    rw [CyclicalBuffer.readSlack, CyclicalBuffer.capacity_packed (by omega)]
    rfl
  have hpeek := CyclicalBuffer.run_peekVolatileHeadOfData hpacked
  rw [CyclicalBuffer.contents_packed hlt, hcount, hslack, List.take_of_length_le (by omega)] at hpeek
  have hpos : (packed data (2 ^ 32 + 2)).enqueuedLength > 0 := by
    rw [CyclicalBuffer.enqueuedLength, hcount]
    omega
  have htwo : min 2 data.length = 2 := by omega
  unfold writeWhileSpace onWriteBuffer
  rw [Method.run_bind, Method.run_get]
  dsimp only [overgrownStream]
  rw [if_pos hpos]
  simp only [Method.run_bind, Method.run_onPart, hpeek, htwo, Method.run_modify]
  rw [if_neg (by decide), Method.run_bind, Method.run_onPart]
  dsimp only
  rw [CyclicalBuffer.run_discard_overgrown hdata]
  rfl

theorem after_writesTwo {data : NSData} (hdata : data.length = 1717986880) :
    writesTwo.after (overgrownStream data) = { overgrownStream data with
      futureConnectedAndWritable := .result true
      accepted := List.take 2 data
      writeBuffer :=
        ⟨(packed data (2 ^ 32 + 2)).buffer, 0, (packed data (2 ^ 32 + 2)).count - 2⟩ } := by
  have hwrites : (writesTwo.perform).run.run (overgrownStream data) =
      (writeWhileSpace [.wrote 2]).run.run
        { overgrownStream data with futureConnectedAndWritable := .result true } := rfl
  rw [Event.after, hwrites, writeWhileSpace_two hdata]

/-- What is sent, and written in the end. -/
def overgrownEvents (first second third : NSData) : List Event :=
  [.startWithHandler, .send (1 :: 0 :: 0 :: first) ⟨.opened, []⟩, .send second ⟨.opened, []⟩,
    .send third ⟨.opened, []⟩, writesTwo]

theorem length_sent_overgrown {first second third : NSData} (hfirst : first.length = 858993136)
    (hsecond : second.length = 201) (hthird : third.length = 858993540) :
    (sent (overgrownEvents first second third)).length < 2 ^ 31 := by
  simp only [sent, overgrownEvents, writesTwo, Event.data, List.map_cons, List.map_nil,
    List.flatten_cons, List.flatten_nil, List.length_append, List.length_cons, List.length_nil,
    hfirst, hsecond, hthird]
  decide

theorem after_send_started (b : CyclicalBuffer) (data : NSData) (outputStream : OutputStream) :
    (Event.send data outputStream).after
        { rawDataHandler := some [], started := true, writeBuffer := b } =
      { rawDataHandler := some [], started := true,
        writeBuffer := (CyclicalBuffer.Operation.enqueueData data).after b } :=
  after_send rfl (by simp) data outputStream

/-- The first of the two bytes is in front of the buffer again. -/
theorem after_overgrownEvents {first second third : NSData} (hfirst : first.length = 858993136)
    (hsecond : second.length = 201) (hthird : third.length = 858993540) :
    (after (overgrownEvents first second third) {}).accepted ++
        (after (overgrownEvents first second third) {}).writeBuffer.contents ≠
      sent (overgrownEvents first second third) := by
  let data : NSData := 1 :: 0 :: 0 :: (first ++ second ++ third)
  have hdata : data.length = 1717986880 := by
    simp only [data, List.length_cons, List.length_append, hfirst, hsecond, hthird]
  have hstart : Event.startWithHandler.after {} =
      { rawDataHandler := some [], started := true, writeBuffer := .init } := rfl
  have hsends : after (overgrownEvents first second third) {} =
      writesTwo.after (overgrownStream data) := by
    unfold after overgrownEvents
    rw [List.foldl_cons, List.foldl_cons, List.foldl_cons, List.foldl_cons, List.foldl_cons,
      List.foldl_nil, hstart, after_send_started, after_send_started, after_send_started,
      CyclicalBuffer.after_overgrown hfirst hsecond hthird]
    rfl
  have hsent : sent (overgrownEvents first second third) = data := by
    simp only [sent, overgrownEvents, writesTwo, Event.data, List.map_cons, List.map_nil,
      List.flatten_cons, List.flatten_nil, List.nil_append, List.append_nil, List.append_assoc,
      List.cons_append, data]
  rw [hsends, hsent, after_writesTwo hdata]
  intro h
  have hcontents := congrArg (List.take 1 ∘ List.drop 2) h
  have hhead := CyclicalBuffer.head_overgrown hdata
  have himpossible : ([1] : NSData) = [0] := hhead.symm.trans hcontents
  cases himpossible

/-- Fewer than `2 ^ 31` bytes that are sent may be written out of order. -/
theorem overgrown_writes_twice : ∃ events, (sent events).length < 2 ^ 31 ∧
    (after events {}).accepted ++ (after events {}).writeBuffer.contents ≠ sent events :=
  ⟨overgrownEvents (List.replicate 858993136 0) (List.replicate 201 0)
      (List.replicate 858993540 0),
    length_sent_overgrown List.length_replicate List.length_replicate List.length_replicate,
    after_overgrownEvents List.length_replicate List.length_replicate List.length_replicate⟩

end

end SignalIOS.Network.NetworkStream
