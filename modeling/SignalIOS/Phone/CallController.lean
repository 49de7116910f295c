import SignalIOS.Util.ObservableValue

/-! The controller of a call, with the threads that call it and the watchers of its progress. -/
namespace SignalIOS.Phone
open SignalIOS.Lib

inductive CallProgressType
  | connecting
  | ringing
  | securing
  | talking
  | terminated
  deriving DecidableEq, Repr

def CallProgressType.rawValue : CallProgressType → ℕ
  | connecting => 0
  | ringing => 1
  | securing => 2
  | talking => 3
  | terminated => 4

/-- An object. Observable values tell objects apart by their addresses. -/
structure CallProgress where
  address : ℕ
  type : CallProgressType
  deriving DecidableEq, Repr

inductive CallTerminationType
  | loginFailed
  | noSuchUser
  | staleSession
  | serverMessage
  | responderIsBusy
  | recipientUnavailable
  | rejectedLocal
  | rejectedRemote
  | handshakeFailed
  | invalidRemotePublicKey
  | hangupLocal
  | hangupRemote
  | replacedByNext
  | badInteractionWithServer
  | uncategorizedFailure
  | backgroundTimeExpired
  deriving DecidableEq, Repr

/-- `I` is the type of arbitrary objects. -/
structure CallTermination (I : Type*) where
  type : CallTerminationType
  failure : Option I
  messageInfo : Option I
  deriving DecidableEq, Repr

/-- What is left to do of a call of one of the methods. Other threads, and callbacks, come in
between any two steps. -/
inductive CallStep (I : Type*)
  | unrestrictedAdvanceCallProgressTo (type : CallProgressType)
  | denyAndTerminate
  | acceptCall
  | setShortAuthenticationString (sas : String)
  | rejectionOrRemoteHangup (failureInfo relatedInfo : Option I)
  | setTermination (t : CallTermination I)
  | failAcceptedOrDenied (t : CallTermination I)
  | cancelCanceller
  | failShortAuthenticationString (t : CallTermination I)
  | sealProgress
  deriving DecidableEq, Repr

structure CallController (I C T : Type*) where
  progress : ObservableValue CallProgress C T
  termination : Option (CallTermination I) := none
  shortAuthenticationString : Option (Except (CallTermination I) String) := none
  interactiveCallAcceptedOrDenied : Option (Except (CallTermination I) Bool) := none
  canceller : T
  nextAddress : ℕ := 1
  inProgress : List (List (CallStep I)) := []
  /-- All terminations there have been, and not only the one that counts. -/
  terminations : List (CallTermination I) := []

namespace CallController
variable {I C T : Type*}

/-- The adjustment of `unrestrictedAdvanceCallProgressTo`. -/
def advance (type : CallProgressType) (address : ℕ) (oldValue : CallProgress) : CallProgress :=
  if type.rawValue < oldValue.type.rawValue then oldValue else ⟨address, type⟩

/-- `terminateWithReason`. -/
def terminate (t : CallTermination I) : List (CallStep I) :=
  [.setTermination t, .unrestrictedAdvanceCallProgressTo .terminated, .failAcceptedOrDenied t,
    .cancelCanceller, .failShortAuthenticationString t, .sealProgress]

/-- The first result of a `TOCFutureSource` is the one that stays. -/
def trySet {α : Type*} (result : α) (future : Option α) : Option α := future.or (some result)

def execute [DecidableEq T] (s : CallController I C T) (later : List (CallStep I)) :
    CallStep I → CallController I C T × List (CallStep I)
  | .unrestrictedAdvanceCallProgressTo type =>
    ({ s with
      progress := s.progress.queueRun (.adjustValue (advance type s.nextAddress))
      nextAddress := s.nextAddress + 1 }, later)
  | .denyAndTerminate =>
    let didDeny := s.interactiveCallAcceptedOrDenied.isNone
    ({ s with interactiveCallAcceptedOrDenied :=
        trySet (.ok false) s.interactiveCallAcceptedOrDenied },
      terminate ⟨if didDeny then .rejectedLocal else .hangupLocal, none, none⟩)
  | .acceptCall =>
    ({ s with interactiveCallAcceptedOrDenied :=
        trySet (.ok true) s.interactiveCallAcceptedOrDenied }, later)
  | .setShortAuthenticationString sas =>
    ({ s with shortAuthenticationString := trySet (.ok sas) s.shortAuthenticationString }, later)
  | .rejectionOrRemoteHangup failureInfo relatedInfo =>
    let hasAcceptedAlready :=
      s.progress.currentValue.type.rawValue > CallProgressType.ringing.rawValue
    (s, terminate ⟨if hasAcceptedAlready then .hangupRemote else .rejectedRemote, failureInfo,
      relatedInfo⟩)
  | .setTermination t =>
    ({ s with
      termination := trySet t s.termination
      terminations := s.terminations ++ [t] }, if s.termination.isNone then later else [])
  | .failAcceptedOrDenied t =>
    ({ s with interactiveCallAcceptedOrDenied :=
        trySet (.error t) s.interactiveCallAcceptedOrDenied }, later)
  | .cancelCanceller => ({ s with progress := s.progress.cancel s.canceller }, later)
  | .failShortAuthenticationString t =>
    ({ s with shortAuthenticationString := trySet (.error t) s.shortAuthenticationString }, later)
  | .sealProgress => ({ s with progress := s.progress.queueRun .sealValue }, later)

inductive Method (I : Type*)
  | advanceCallProgressTo (type : CallProgressType)
  | hangupOrDenyCall
  | acceptCall
  | advanceCallProgressToConversingWithShortAuthenticationString (sas : String)
  | terminateWithRejectionOrRemoteHangup (failureInfo relatedInfo : Option I)
  | terminateWithReason (t : CallTermination I)
  | backgroundTimeExpired

/-- `advanceCallProgressTo` requires that the type comes before `talking`, and raises otherwise. -/
def Method.steps : Method I → List (CallStep I)
  | .advanceCallProgressTo type =>
    if type.rawValue < CallProgressType.talking.rawValue then
      [.unrestrictedAdvanceCallProgressTo type]
    else []
  | .hangupOrDenyCall => [.denyAndTerminate]
  | .acceptCall => [.acceptCall]
  | .advanceCallProgressToConversingWithShortAuthenticationString sas =>
    [.setShortAuthenticationString sas, .unrestrictedAdvanceCallProgressTo .talking]
  | .terminateWithRejectionOrRemoteHangup failureInfo relatedInfo =>
    [.rejectionOrRemoteHangup failureInfo relatedInfo]
  | .terminateWithReason t => terminate t
  | .backgroundTimeExpired => terminate ⟨.backgroundTimeExpired, none, none⟩

inductive Event (I C T : Type*)
  | call (method : Method I)
  | execute (i : ℕ)
  /-- What others do with the observable progress, and what its loops do. -/
  | progress (e : ObservableValue.Event CallProgress C T)

/-- Only the controller changes the progress. -/
def changesValue : ObservableValue.Event CallProgress C T → Bool
  | .updateValue _ | .adjustValue _ | .sealValue => true
  | _ => false

variable [DecidableEq C] [DecidableEq T]

def step (s : CallController I C T) : Event I C T → Option (CallController I C T)
  | .call method => some { s with inProgress := s.inProgress ++ [method.steps] }
  | .execute i =>
    match s.inProgress[i]? with
    | some (first :: later) =>
      let result := s.execute later first
      some { result.1 with inProgress := result.1.inProgress.set i result.2 }
    | _ => none
  | .progress e =>
    if changesValue e then none
    else (s.progress.step e).map fun progress => { s with progress }

def machine (canceller : T) : Machine (CallController I C T) (Event I C T) where
  init := { progress := { currentValue := ⟨0, .connecting⟩ }, canceller }
  step := step

end CallController
end SignalIOS.Phone
