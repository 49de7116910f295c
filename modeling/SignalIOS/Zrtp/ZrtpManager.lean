import Mathlib.Algebra.Ring.Nat
import SignalIOS.Network.ReceiveStack
import SignalIOS.Zrtp.ZrtpRole

/-! The manager of a handshake. It sends what its role answers, again and again, until the role has
finished, and then secures the RTP socket. -/
namespace SignalIOS.Zrtp
open SignalIOS.Lib SignalIOS.Rtp SignalIOS.Network

def ZrtpInitiator.getMasterSecret (s : ZrtpInitiator) : Throws (Option MasterSecret) := do
  requireState (s.hasHandshakeFinishedSuccessfully = true)
  return s.masterSecret

def ZrtpResponder.getMasterSecret (s : ZrtpResponder) : Throws (Option MasterSecret) := do
  requireState (s.hasHandshakeFinishedSuccessfully = true)
  return s.masterSecret

def ZrtpInitiator.useKeysToSecureRtpSocket (s : ZrtpInitiator) : Throws SrtpSocket := do
  requireState (s.hasHandshakeFinishedSuccessfully = true)
  let masterSecret ← owsRequireNotNil s.masterSecret
  SrtpSocket.srtpSocketOverRtp masterSecret.responderSrtpKey masterSecret.responderMacKey
    masterSecret.responderSrtpSalt masterSecret.initiatorSrtpKey masterSecret.initiatorMacKey
    masterSecret.initiatorSrtpSalt

def ZrtpResponder.useKeysToSecureRtpSocket (s : ZrtpResponder) : Throws SrtpSocket := do
  requireState (s.hasHandshakeFinishedSuccessfully = true)
  let masterSecret ← owsRequireNotNil s.masterSecret
  SrtpSocket.srtpSocketOverRtp masterSecret.initiatorSrtpKey masterSecret.initiatorMacKey
    masterSecret.initiatorSrtpSalt masterSecret.responderSrtpKey masterSecret.responderMacKey
    masterSecret.responderSrtpSalt

namespace ZrtpRole

def getMasterSecret : ZrtpRole → Throws (Option MasterSecret)
  | initiator role => role.getMasterSecret
  | responder role => role.getMasterSecret

def useKeysToSecureRtpSocket : ZrtpRole → Throws SrtpSocket
  | initiator role => role.useKeysToSecureRtpSocket
  | responder role => role.useKeysToSecureRtpSocket

def initialPacket : ZrtpRole → Except Exception (Option HandshakePacket) × ZrtpRole
  | initiator role => (ZrtpInitiator.initialPacket.run.run role).map id initiator
  | responder role => (ZrtpResponder.initialPacket.run.run role).map id responder

end ZrtpRole

def maxRetransmitCount : ℕ := 45
def minRetransmitIntervalMilliseconds : ℕ := 150
def retransmitIntervalGrowFactor : ℕ := 2
def maxRetransmitIntervalMilliseconds : ℕ := 1500
def maxWaitForResponderHelloMilliseconds : ℕ := 60000

structure ZrtpHandshakeResult where
  secureRtpSocket : SrtpSocket
  masterSecret : MasterSecret

inductive HandshakeFailure
  | negotiationFailed (reason : String)
  | recipientUnavailable
  | exception (error : Exception)

inductive CallTerminationType
  | recipientUnavailable
  | handshakeFailed
  deriving DecidableEq, Repr

/-- What runs after a delay in milliseconds, unless `currentRetransmit` is cancelled before. -/
inductive ScheduledRun
  | handleRetransmit (delay : ℕ)
  | timeoutFail (delay : ℕ)
  deriving DecidableEq, Repr

structure ZrtpManager where
  currentPacketTransmitCount : ℕ := 0
  handshakeCompletedSuccesfully : Bool := false
  done : Bool := false
  /-- Cancelling it stops the sockets from calling back. -/
  cancelTokenSourceCancelled : Bool := false
  currentRetransmit : Option ScheduledRun := none
  /-- What has been sent through the socket. -/
  handshakeSocket : List HandshakePacket := []
  currentPacketToRetransmit : Option HandshakePacket := none
  zrtpRole : ZrtpRole
  futureHandshakeResult : Option (Except HandshakeFailure ZrtpHandshakeResult) := none
  /-- The reasons it has been told to terminate for. -/
  callController : List CallTerminationType := []

abbrev ManagerMethod (α : Type) := Method Exception ZrtpManager α

namespace ZrtpManager

/-- Only the first result counts. A failure terminates the call. -/
def trySetFailure (failure : HandshakeFailure) : ManagerMethod Unit :=
  modify fun s =>
    if s.futureHandshakeResult.isSome then s
    else { s with
      futureHandshakeResult := some (.error failure)
      callController := s.callController ++ [.handshakeFailed] }

def trySetResult (result : ZrtpHandshakeResult) : ManagerMethod Unit :=
  modify fun s =>
    if s.futureHandshakeResult.isSome then s
    else { s with futureHandshakeResult := some (.ok result) }

def terminateWithReason (reason : CallTerminationType) : ManagerMethod Unit :=
  modify fun s => { s with callController := s.callController ++ [reason] }

def terminate : ManagerMethod Unit :=
  modify fun s =>
    { s with done := true, cancelTokenSourceCancelled := true, currentRetransmit := none }

def scheduleRetransmit : ManagerMethod Unit :=
  modify fun s =>
    let falloffFactor := retransmitIntervalGrowFactor ^ s.currentPacketTransmitCount
    let delay :=
      min (minRetransmitIntervalMilliseconds * falloffFactor) maxRetransmitIntervalMilliseconds
    { s with
      currentPacketTransmitCount := s.currentPacketTransmitCount + 1
      currentRetransmit := some (.handleRetransmit delay) }

def transmitCurrentHandshakePacket : ManagerMethod Unit := do
  let s ← get
  if s.done then
    return
  requireState (s.currentPacketToRetransmit.isSome = true)
  modify fun s =>
    { s with handshakeSocket := s.handshakeSocket ++ s.currentPacketToRetransmit.toList }
  scheduleRetransmit

def setAndSendPacketToTransmit (packet : HandshakePacket) : ManagerMethod Unit := do
  modify fun s =>
    { s with currentPacketTransmitCount := 0, currentPacketToRetransmit := some packet }
  transmitCurrentHandshakePacket

/-- The count is reset before it is compared. -/
def handleRetransmit : ManagerMethod Unit := do
  if (← get).done then
    return
  modify fun s => { s with currentPacketTransmitCount := 0 }
  let s ← get
  if s.currentPacketTransmitCount > maxRetransmitCount then
    modify fun s => { s with done := true }
    if s.currentPacketToRetransmit.isNone then
      terminateWithReason .recipientUnavailable
    else
      trySetFailure (.negotiationFailed "retransmit threshold exceeded")
  else
    transmitCurrentHandshakePacket

def timeoutFail : ManagerMethod Unit := do
  terminateWithReason .recipientUnavailable
  trySetFailure .recipientUnavailable

def scheduleTimeoutIfNoHello : ManagerMethod Unit :=
  modify fun s =>
    { s with currentRetransmit := some (.timeoutFail maxWaitForResponderHelloMilliseconds) }

/-- What has been scheduled runs. -/
def runScheduled : ManagerMethod Unit := do
  let scheduled := (← get).currentRetransmit
  modify fun s => { s with currentRetransmit := none }
  match scheduled with
  | some (.handleRetransmit _) => handleRetransmit
  | some (.timeoutFail _) => timeoutFail
  | none => return

/-- The role has finished: its keys secure the socket. -/
def completeHandshake : ManagerMethod Unit := do
  modify fun s => { s with done := true, handshakeCompletedSuccesfully := true }
  let zrtpRole := (← get).zrtpRole
  let secureRtpSocket ← zrtpRole.useKeysToSecureRtpSocket
  let masterSecret ← owsRequireNotNil (← zrtpRole.getMasterSecret)
  trySetResult { secureRtpSocket, masterSecret }

variable [CryptoTools]

def handleHandshakePacket (environment : Environment) (newKeys : NewKeys)
    (packet : HandshakePacket) : ManagerMethod Unit := do
  if (← get).done then
    return
  let (response, zrtpRole) := (← get).zrtpRole.handlePacket environment newKeys packet
  modify fun s => { s with zrtpRole }
  if let some responsePacket := ← response then
    setAndSendPacketToTransmit responsePacket
  if zrtpRole.hasHandshakeFinishedSuccessfully then
    completeHandshake

/-- A Conf2Ack may have been lost, so that audio arrives instead. -/
def handleError (environment : Environment) (newKeys : NewKeys) (error : Exception)
    (relatedInfo : Option RtpPacket) (causedTermination : Bool) : ManagerMethod Unit := do
  if causedTermination then
    terminate
    trySetFailure (.exception error)
    return
  if ← (← get).zrtpRole.isAuthenticatedAudioDataImplyingConf2Ack environment relatedInfo then
    let confirmAck ← ConfirmAckPacket.confirmAckPacket
    handleHandshakePacket environment newKeys confirmAck.embeddedIntoHandshakePacket

def asyncPerformHandshake : ManagerMethod Unit := do
  let (packet, zrtpRole) := (← get).zrtpRole.initialPacket
  modify fun s => { s with zrtpRole }
  match ← packet with
  | none => scheduleTimeoutIfNoHello
  | some packet => setAndSendPacketToTransmit packet

end ZrtpManager
end SignalIOS.Zrtp
