import SignalIOS.Lib.Heap
import SignalIOS.Lib.Runs

/-! The manager of the HTTP requests that go over one socket, with the threads that call it, and
the server at the other end. -/
namespace SignalIOS.Http
open SignalIOS.Lib

/-- A `TOCFutureSource` that `asyncResponseForRequest` makes, numbered in the order in which they
are enqueued. It stands for the request of the call as well. -/
abbrev FutureRef := ℕ

inductive QueueError
  | terminatedBeforeResponse
  | networkFailure
  deriving DecidableEq, Repr

inductive FutureResponse
  | incomplete
  -- The request that the server gave the response to.
  | result (request : FutureRef)
  | failure (error : QueueError)
  | cancelled
  deriving DecidableEq, Repr

namespace FutureResponse

def isCompleted : FutureResponse → Bool
  | incomplete => false
  | _ => true

/-- Only the first outcome counts: `trySetResult`, `trySetFailure`, and the cancellation of the
token that the future was made with. -/
def trySet (outcome future : FutureResponse) : FutureResponse :=
  if future.isCompleted then future else outcome

end FutureResponse

/-- What is left of a call of `terminateWhenDoneCurrentWork`, which waits for the future that was
the last of the queue. -/
structure WhenDone where
  last : FutureRef
  /-- The queue at the call. The code does not keep it. -/
  queued : List FutureRef
  deriving DecidableEq, Repr

structure HttpManager where
  isStarted : Bool := false
  lifetimeCancelled : Bool := false
  eventualResponseQueue : List FutureRef := []
  futures : Heap FutureResponse := .empty .incomplete
  whenDone : List WhenDone := []
  /-- The loops of `clearQueue` that run, one within the other, the innermost first. They hold the
  lock of the manager. -/
  clearing : List QueueError := []
  sending : List FutureRef := []
  networkFailed : Bool := false
  sent : List FutureRef := []
  answered : ℕ := 0

namespace HttpManager

def trySet (s : HttpManager) (ev : FutureRef) (outcome : FutureResponse) : HttpManager :=
  { s with futures := s.futures.modify ev outcome.trySet }

/-- `startWithRequestHandler`. -/
def start (s : HttpManager) : Option HttpManager :=
  if s.isStarted then none else some { s with isStarted := true }

/-- `asyncResponseForRequest`, as far as it is under the lock. -/
def asyncResponseForRequest (s : HttpManager) : Option HttpManager :=
  if !s.isStarted then none
  else if s.lifetimeCancelled then some s
  else some { s with
    futures := s.futures.alloc .incomplete
    eventualResponseQueue := s.eventualResponseQueue ++ [s.futures.next]
    sending := s.sending ++ [s.futures.next] }

def isConnected (s : HttpManager) : Bool := !s.lifetimeCancelled && !s.networkFailed

def send (s : HttpManager) (ev : FutureRef) : Option HttpManager :=
  if ev ∈ s.sending then
    some { s with
      sending := s.sending.erase ev
      sent := if s.isConnected then s.sent ++ [ev] else s.sent }
  else none

/-- The rest of a call whose `send` raises. It returns another future, which has failed. -/
def sendRaises (s : HttpManager) (ev : FutureRef) : Option HttpManager :=
  if ev ∈ s.sending then some { s with sending := s.sending.erase ev } else none

/-- The token that a caller gave is cancelled. Before the call has left the lock nobody sees the
difference to right after it. -/
def cancel (s : HttpManager) (ev : FutureRef) : Option HttpManager :=
  if ev < s.futures.next then some (s.trySet ev .cancelled) else none

def handleResponse (s : HttpManager) : Option HttpManager :=
  if s.clearing.isEmpty && !s.networkFailed then
    match s.sent[s.answered]?, s.eventualResponseQueue with
    | none, _ => none
    | some _, [] => some { s with answered := s.answered + 1 }
    | some request, ev :: rest =>
      some ({ s with answered := s.answered + 1, eventualResponseQueue := rest }.trySet ev
        (.result request))
  else none

def handleNetworkFailure (s : HttpManager) : HttpManager :=
  { s with networkFailed := true, clearing := .networkFailure :: s.clearing }

/-- The next round of the innermost loop of `clearQueue`. What waits for a future is run within the
round that fails it, and can call the manager in turn. -/
def clearNext (s : HttpManager) : Option HttpManager :=
  match s.clearing, s.eventualResponseQueue with
  | [], _ => none
  | _ :: outer, [] => some { s with clearing := outer }
  | error :: _, ev :: rest =>
    some ({ s with eventualResponseQueue := rest }.trySet ev (.failure error))

def terminate (s : HttpManager) : HttpManager :=
  { s with lifetimeCancelled := true, clearing := .terminatedBeforeResponse :: s.clearing }

/-- Where the last future has completed already, `whenCancelledTerminate` terminates at once. -/
def terminateWhenDoneCurrentWork (s : HttpManager) : HttpManager :=
  match s.eventualResponseQueue.getLast? with
  | none => s.terminate
  | some v =>
    if (s.futures.get v).isCompleted then s.terminate
    else { s with whenDone := s.whenDone ++ [⟨v, s.eventualResponseQueue⟩] }

def terminateBecauseDone (s : HttpManager) (w : WhenDone) : Option HttpManager :=
  if w ∈ s.whenDone ∧ (s.futures.get w.last).isCompleted then
    some { s with whenDone := s.whenDone.erase w }.terminate
  else none

inductive Event
  | start
  | asyncResponseForRequest
  | send (ev : FutureRef)
  | sendRaises (ev : FutureRef)
  | cancel (ev : FutureRef)
  | response
  /-- A request of the server. Its handler answers it, and leaves the queue alone. -/
  | request
  | networkFailure
  | clearNext
  | terminate
  | terminateWhenDoneCurrentWork
  | terminateBecauseDone (w : WhenDone)
  deriving DecidableEq, Repr

/-- The runs of a manager. The server answers the requests in the order of their bytes. What a loop
that holds the lock calls in turn, and what other threads do without the lock, are events
between its rounds. -/
def machine : Machine HttpManager Event where
  init := {}
  step s
    | .start => s.start
    | .asyncResponseForRequest => s.asyncResponseForRequest
    | .send ev => s.send ev
    | .sendRaises ev => s.sendRaises ev
    | .cancel ev => s.cancel ev
    | .response => s.handleResponse
    | .request => some s
    | .networkFailure => some s.handleNetworkFailure
    | .clearNext => s.clearNext
    | .terminate => some s.terminate
    | .terminateWhenDoneCurrentWork => some s.terminateWhenDoneCurrentWork
    | .terminateBecauseDone w => s.terminateBecauseDone w

def IsTerminated (s : HttpManager) : Prop := s.lifetimeCancelled = true ∧ s.clearing = []

def AllCompleted (s : HttpManager) (evs : List FutureRef) : Prop :=
  ∀ ev ∈ evs, (s.futures.get ev).isCompleted = true

end HttpManager
end SignalIOS.Http
