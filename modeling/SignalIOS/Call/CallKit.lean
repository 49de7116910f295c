import SignalIOS.Call.Turns

/-! `CallKitCallUIAdaptee` and its `CallKitCallManager` around the call service: the app's list of
calls, the CallKit actions, and the machine they drive together with the other turns. -/
namespace SignalIOS.Call
open SignalIOS.Lib

/-- The adaptee with its call manager and its call service. A call reference stands for the
`localId` of the call too, by which CallKit names it. -/
structure CallKitCallUIAdaptee where
  callService : State
  /-- `callManager.calls`. -/
  calls : List CallRef
  /-- The calls whose `reportNewIncomingCall` has not completed yet. -/
  reported : List CallRef
  isOnHold : CallRef → Bool
  /-- `RTCAudioSession.sharedInstance().isAudioEnabled`. -/
  isAudioEnabled : Bool

/-- The actions by which CallKit asks for something about a call. -/
inductive CXCallAction
  | startCall (callUUID : CallRef)
  | answerCall (callUUID : CallRef)
  | endCall (callUUID : CallRef)
  | setHeldCall (callUUID : CallRef) (isOnHold : Bool)
  | setMutedCall (callUUID : CallRef) (isMuted : Bool)
  deriving DecidableEq, Repr

inductive CallKitEvent
  | startAndShowOutgoingCall (recipientId : String) (signalingId : UInt64)
  | perform (action : CXCallAction)
  /-- The completion of `provider.reportNewIncomingCall`. -/
  | reportedNewIncomingCall (call : CallRef) (error : Option NSError)
  | providerDidReset
  | didActivate
  | createCallUIAdapter
  /-- Every other turn of the call service. -/
  | turn (event : Event)

/-- The turns that only happen through CallKit. With this adaptee, `answerCall(localId:)` and
`declineCall(localId:)` do nothing. -/
def Event.isThroughCallKit : Event → Bool
  | .user (.setHasLocalVideo _ _) | .user (.handleCallKitStartVideo _) => false
  | .user _ => true
  | _ => false

namespace CallKitCallUIAdaptee

/-- No calls yet, in a new adaptee. -/
def initial : CallKitCallUIAdaptee where
  callService := .initial
  calls := []
  reported := []
  isOnHold _ := false
  isAudioEnabled := false

/-! ### The call manager -/

def addCall (k : CallKitCallUIAdaptee) (call : CallRef) : CallKitCallUIAdaptee :=
  { k with calls := k.calls ++ [call] }

/-- `calls.removeFirst(where: { $0 === call })`. -/
def removeCall (k : CallKitCallUIAdaptee) (call : CallRef) : CallKitCallUIAdaptee :=
  { k with calls := k.calls.erase call }

def removeAllCalls (k : CallKitCallUIAdaptee) : CallKitCallUIAdaptee := { k with calls := [] }

def stopAudioSession (k : CallKitCallUIAdaptee) : CallKitCallUIAdaptee :=
  { k with isAudioEnabled := false }

def startAudioSession (k : CallKitCallUIAdaptee) : CallKitCallUIAdaptee :=
  { k with isAudioEnabled := true }

/-! ### `CallUIAdaptee` -/

/-- What the call service asks of the adaptee. The last four only tell the provider, or post a
notification; the effects that are left do not concern the adaptee. -/
def receive (k : CallKitCallUIAdaptee) : Effect → CallKitCallUIAdaptee
  | .failCall call _ => k.removeCall call
  | .reportIncomingCall call _ => { k with reported := k.reported ++ [call] }
  | .remoteDidHangupCall _ => k
  | .remoteBusy _ => k
  | .recipientAcceptedCall _ => k
  | .reportMissedCall _ => k
  | _ => k

/-- One turn of the call service, with its calls of the adaptee. -/
def callServiceTurn (k : CallKitCallUIAdaptee) (e : Event) : Option CallKitCallUIAdaptee :=
  (k.callService.next e).map fun s =>
    (s.log.drop k.callService.log.length).foldl receive { k with callService := s }

/-- A new call is listed before CallKit is asked to start it. -/
def startAndShowOutgoingCall (k : CallKitCallUIAdaptee) (recipientId : String)
    (signalingId : UInt64) : Option CallKitCallUIAdaptee :=
  if k.callService.call.isSome then some k
  else
    let call := k.callService.calls.next
    (k.callServiceTurn (.user (.newOutgoingCall recipientId signalingId))).map (·.addCall call)

/-- Only a call that CallKit allows is listed. -/
def reportedNewIncomingCall (k : CallKitCallUIAdaptee) (call : CallRef) (error : Option NSError) :
    Option CallKitCallUIAdaptee :=
  if call ∈ k.reported then
    let k := { k with reported := k.reported.erase call }
    some (match error with
      | none => k.addCall call
      | some _ => k)
  else none

/-! ### `CXProviderDelegate` -/

def providerDidReset (k : CallKitCallUIAdaptee) : Option CallKitCallUIAdaptee :=
  (k.stopAudioSession.callServiceTurn (.user .providerDidReset)).map removeAllCalls

/-- `callManager.callWithLocalId(action.callUUID)` finds a call. -/
abbrev callWithLocalId (k : CallKitCallUIAdaptee) (localId : CallRef) : Prop := localId ∈ k.calls

/-- `provider(_:perform:)`. An action about an unknown call fails. -/
def perform (k : CallKitCallUIAdaptee) : CXCallAction → Option CallKitCallUIAdaptee
  | .startCall call =>
    if k.callWithLocalId call then k.callServiceTurn (.user (.handleOutgoingCall call)) else some k
  | .answerCall call =>
    if k.callWithLocalId call then k.callServiceTurn (.user (.handleAnswerCall call)) else some k
  | .endCall call =>
    if k.callWithLocalId call then
      (k.callServiceTurn (.user (.handleLocalHungupCall call))).map (·.removeCall call)
    else some k
  | .setHeldCall call isOnHold =>
    if k.callWithLocalId call then
      let k := { k with isOnHold := fun c => if c = call then isOnHold else k.isOnHold c }
      some (if isOnHold then k.stopAudioSession else k)
    else some k
  | .setMutedCall call isMuted =>
    if k.callWithLocalId call then k.callServiceTurn (.user (.setIsMuted isMuted)) else some k

/-- The new adaptee has a call manager of its own. -/
def createCallUIAdapter (k : CallKitCallUIAdaptee) : Option CallKitCallUIAdaptee :=
  (k.callServiceTurn (.user .createCallUIAdapter)).map fun k =>
    { k with calls := [], reported := [] }

/-- `none` where the event cannot occur, or ends the process. -/
def step (k : CallKitCallUIAdaptee) : CallKitEvent → Option CallKitCallUIAdaptee
  | .startAndShowOutgoingCall recipientId signalingId =>
    k.startAndShowOutgoingCall recipientId signalingId
  | .perform action => k.perform action
  | .reportedNewIncomingCall call error => k.reportedNewIncomingCall call error
  | .providerDidReset => k.providerDidReset
  | .didActivate => some k.startAudioSession
  | .createCallUIAdapter => k.createCallUIAdapter
  | .turn event => if event.isThroughCallKit then none else k.callServiceTurn event

end CallKitCallUIAdaptee

def callKitMachine : Machine CallKitCallUIAdaptee CallKitEvent := ⟨.initial, CallKitCallUIAdaptee.step⟩

end SignalIOS.Call
