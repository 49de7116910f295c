import Mathlib.Data.Finset.Erase
import Mathlib.Data.Finset.Insert
import SignalIOS.Lib.Runs

/-! Observable values, with the threads and the callbacks that use them. -/
namespace SignalIOS
open SignalIOS.Lib

inductive QueuedAction (V C : Type*)
  | watch (callback : C)
  | unwatch (callback : C)
  | updateValue (value : V)
  | adjustValue (adjustment : V → V)
  | sealValue

/-- How far a loop of `queueRun` is with its action. -/
inductive ActionPhase (V C : Type*)
  | dequeued
  | registering
  | adjusting (oldValue : V)
  /-- A callback is being called, or the next one is to be. -/
  | notifying (called : Option C) (remaining : Finset C)
  | returned

def ActionPhase.isOver {V C : Type*} [DecidableEq C] : ActionPhase V C → Bool
  | .returned => true
  | .notifying none remaining => remaining = ∅
  | _ => false

structure RunningAction (V C : Type*) where
  action : QueuedAction V C
  phase : ActionPhase V C

/-- A call of a callback. -/
structure Sighting (V : Type*) where
  value : V
  onRegistration : Bool
  deriving DecidableEq, Repr

/-- A call of `watchLatestValueOnArbitraryThread` that got as far as to `queueRun`. -/
structure WatchCall (C T : Type*) where
  /-- The place of its action among all that have been submitted. -/
  index : ℕ
  callback : C
  untilCancelledToken : Option T
  deriving DecidableEq, Repr

/-- Values and callbacks are objects, and are compared as such. -/
structure ObservableValue (V C T : Type*) where
  currentValue : V
  /-- `nil` once the value is sealed. -/
  callbacks : Option (Finset C) := some ∅
  queuedActionsToRun : List (QueuedAction V C) := []
  isRunningActions : Bool := false
  sealed : Bool := false
  /-- The loops of `queueRun`, of whatever thread, that have an action to run. -/
  running : List (RunningAction V C) := []
  cancelledTokens : Finset T := ∅
  beforeWhenCancelledDo : List (WatchCall C T) := []
  cancelHandlers : List (WatchCall C T) := []
  cancelHandlersToRun : List (WatchCall C T) := []
  watchCalls : List (WatchCall C T) := []
  /-- All actions, in the order in which `queueRun` was called with them. -/
  submitted : List (QueuedAction V C) := []
  finished : List (QueuedAction V C) := []
  calls : List (C × Sighting V) := []
  raised : Bool := false

namespace ObservableValue
variable {V C T : Type*}

def seen [DecidableEq C] (s : ObservableValue V C T) (callback : C) : List (Sighting V) :=
  s.calls.filterMap fun call => if call.1 = callback then some call.2 else none

def begun (s : ObservableValue V C T) : List (QueuedAction V C) :=
  s.finished ++ s.running.filterMap fun r =>
    match r.phase with
    | .dequeued => none
    | _ => some r.action

/-- Whoever finds no actions running runs this one, and then what has been queued meanwhile. -/
def queueRun (s : ObservableValue V C T) (action : QueuedAction V C) : ObservableValue V C T :=
  if s.isRunningActions then
    { s with
      queuedActionsToRun := s.queuedActionsToRun ++ [action]
      submitted := s.submitted ++ [action] }
  else
    { s with
      isRunningActions := true
      running := s.running ++ [⟨action, .dequeued⟩]
      submitted := s.submitted ++ [action] }

def setPhase (s : ObservableValue V C T) (i : ℕ) (phase : ActionPhase V C) :
    ObservableValue V C T :=
  { s with running := s.running.modify i fun r => { r with phase } }

/-- The loop ends. What is queued stays queued. -/
def raiseException (s : ObservableValue V C T) (i : ℕ) : ObservableValue V C T :=
  { s with isRunningActions := false, running := s.running.eraseIdx i, raised := true }

def callBack (s : ObservableValue V C T) (callback : C) (value : V) (onRegistration : Bool) :
    ObservableValue V C T :=
  { s with calls := s.calls ++ [(callback, ⟨value, onRegistration⟩)] }

/-- What an action calls the callbacks with: `updateValue` with its argument, `adjustValue` with
the current value. -/
def passedValue (s : ObservableValue V C T) : QueuedAction V C → V
  | .updateValue value => value
  | _ => s.currentValue

variable [DecidableEq V] [DecidableEq C] [DecidableEq T]

def assignValue (s : ObservableValue V C T) (i : ℕ) (oldValue newValue : V) :
    ObservableValue V C T :=
  if newValue = oldValue then s.setPhase i .returned
  else if s.sealed then s.raiseException i
  else { s with currentValue := newValue }.setPhase i (.notifying none (s.callbacks.getD ∅))

def runAction (s : ObservableValue V C T) (i : ℕ) : Option (ObservableValue V C T) :=
  match s.running[i]? with
  | some ⟨action, .dequeued⟩ => match action with
    | .watch callback => some <| (s.callBack callback s.currentValue true).setPhase i .registering
    | .unwatch callback =>
      some <| { s with
        callbacks := s.callbacks.map fun callbacks : Finset C => callbacks.erase callback
        }.setPhase i .returned
    | .updateValue value => some <| s.assignValue i s.currentValue value
    | .adjustValue _ => some <| s.setPhase i (.adjusting s.currentValue)
    | .sealValue => some <| { s with sealed := true, callbacks := none }.setPhase i .returned
  | _ => none

def adjustmentReturns (s : ObservableValue V C T) (i : ℕ) : Option (ObservableValue V C T) :=
  match s.running[i]? with
  | some ⟨.adjustValue adjustment, .adjusting oldValue⟩ =>
    some <| s.assignValue i oldValue (adjustment oldValue)
  | _ => none

/-- The loop `i` calls one of the callbacks, in whatever order a set enumerates them. -/
def callNext (s : ObservableValue V C T) (i : ℕ) (callback : C) : Option (ObservableValue V C T) :=
  match s.running[i]? with
  | some ⟨action, .notifying none remaining⟩ =>
    if callback ∈ remaining then
      some <| (s.callBack callback (s.passedValue action) false).setPhase i
        (.notifying (some callback) (remaining.erase callback))
    else none
  | _ => none

def callbackReturns (s : ObservableValue V C T) (i : ℕ) : Option (ObservableValue V C T) :=
  match s.running[i]? with
  | some ⟨.watch callback, .registering⟩ =>
    some <| { s with callbacks := s.callbacks.map (insert callback) }.setPhase i .returned
  | some ⟨_, .notifying (some _) remaining⟩ => some <| s.setPhase i (.notifying none remaining)
  | _ => none

def tryDequeue (s : ObservableValue V C T) (i : ℕ) : Option (ObservableValue V C T) :=
  match s.running[i]? with
  | some r =>
    if r.phase.isOver then
      match s.queuedActionsToRun with
      | [] => some { s with
          isRunningActions := false
          running := s.running.eraseIdx i
          finished := s.finished ++ [r.action] }
      | action :: actions => some { s with
          queuedActionsToRun := actions
          running := s.running.set i ⟨action, .dequeued⟩
          finished := s.finished ++ [r.action] }
    else none
  | none => none

/-- `watchLatestValueOnArbitraryThread`, up to `whenCancelledDo`. Without a token nothing ever
cancels. -/
def watchLatestValue (s : ObservableValue V C T) (callback : C) (untilCancelledToken : Option T) :
    ObservableValue V C T :=
  if ∃ token ∈ untilCancelledToken, token ∈ s.cancelledTokens then s
  else
    let call : WatchCall C T := ⟨s.submitted.length, callback, untilCancelledToken⟩
    { s.queueRun (.watch callback) with
      watchCalls := s.watchCalls ++ [call]
      beforeWhenCancelledDo := s.beforeWhenCancelledDo ++ [call] }

/-- The handler runs at once if the token has been cancelled meanwhile. -/
def whenCancelledDo (s : ObservableValue V C T) (i : ℕ) : Option (ObservableValue V C T) :=
  match s.beforeWhenCancelledDo[i]? with
  | some call =>
    let s := { s with beforeWhenCancelledDo := s.beforeWhenCancelledDo.eraseIdx i }
    match call.untilCancelledToken with
    | none => some s
    | some token =>
      if token ∈ s.cancelledTokens then some (s.queueRun (.unwatch call.callback))
      else some { s with cancelHandlers := s.cancelHandlers ++ [call] }
  | none => none

def cancel (s : ObservableValue V C T) (token : T) : ObservableValue V C T :=
  { s with
    cancelledTokens := insert token s.cancelledTokens
    cancelHandlers := s.cancelHandlers.filter (·.untilCancelledToken ≠ some token)
    cancelHandlersToRun := s.cancelHandlersToRun ++
      s.cancelHandlers.filter (·.untilCancelledToken = some token) }

def runCancelHandler (s : ObservableValue V C T) (i : ℕ) : Option (ObservableValue V C T) :=
  match s.cancelHandlersToRun[i]? with
  | some call =>
    some <| { s with cancelHandlersToRun := s.cancelHandlersToRun.eraseIdx i }.queueRun
      (.unwatch call.callback)
  | none => none

inductive Event (V C T : Type*)
  | updateValue (value : V)
  | adjustValue (adjustment : V → V)
  | sealValue
  | watchLatestValue (callback : C) (untilCancelledToken : Option T)
  | whenCancelledDo (i : ℕ)
  | cancel (token : T)
  | runCancelHandler (i : ℕ)
  | runAction (i : ℕ)
  | adjustmentReturns (i : ℕ)
  | callNext (i : ℕ) (callback : C)
  | callbackReturns (i : ℕ)
  | tryDequeue (i : ℕ)

def step (s : ObservableValue V C T) : Event V C T → Option (ObservableValue V C T)
  | .updateValue value => some (s.queueRun (.updateValue value))
  | .adjustValue adjustment => some (s.queueRun (.adjustValue adjustment))
  | .sealValue => some (s.queueRun .sealValue)
  | .watchLatestValue callback token => some (s.watchLatestValue callback token)
  | .whenCancelledDo i => s.whenCancelledDo i
  | .cancel token => some (s.cancel token)
  | .runCancelHandler i => s.runCancelHandler i
  | .runAction i => s.runAction i
  | .adjustmentReturns i => s.adjustmentReturns i
  | .callNext i callback => s.callNext i callback
  | .callbackReturns i => s.callbackReturns i
  | .tryDequeue i => s.tryDequeue i

def machine (value : V) : Machine (ObservableValue V C T) (Event V C T) where
  init := { currentValue := value }
  step := step

end ObservableValue
end SignalIOS
