import SignalIOS.Lib.Methods
import SignalIOS.Zrtp.ConfirmPacket

/-! The responder of the handshake. It sends the first packet. -/
namespace SignalIOS.Zrtp
open SignalIOS.Lib

inductive PacketExpectation
  | expectingHello
  | expectingCommit
  | expectingHelloAck
  | expectingDH
  | expectingConfirm
  | expectingConfirmAck
  | expectingNothing
  deriving DecidableEq, Repr

/-- What a role tells its `CallController`. -/
inductive CallControllerMessage
  | advanceCallProgressToSecuring
  | terminateWithReasonHandshakeFailed
  deriving DecidableEq, Repr

/-- What `generateParticipantWithNewKeys` returns for each protocol, the next time it is asked. -/
abbrev NewKeys := KeyAgreementProtocol → Throws KeyAgreementParticipant

/-- The data that a role generates at random when it is made. -/
structure SecureRandomData where
  confirmIv : NSData
  dhSharedSecretHashes : DhPacketSharedSecretHashes
  hashChainSeed : NSData

structure ZrtpResponder where
  localHello : HelloPacket
  foreignHello : Option HelloPacket := none
  foreignCommit : Option CommitPacket := none
  localDH : Option DhPacket := none
  foreignDH : Option DhPacket := none
  allowedKeyAgreementProtocols : List KeyAgreementProtocol
  keyAgreementParticipant : Option KeyAgreementParticipant := none
  hashChain : HashChain
  masterSecret : Option MasterSecret := none
  confirmIv : NSData
  dhSharedSecretHashes : DhPacketSharedSecretHashes
  packetExpectation : PacketExpectation
  callController : List CallControllerMessage := []

/-- A method of a role. Those that handle packets return the packet to answer with, if any. -/
abbrev RoleMethod (ρ α : Type) := Method Exception ρ α

namespace ZrtpResponder

def hasHandshakeFinishedSuccessfully (s : ZrtpResponder) : Bool :=
  s.packetExpectation = .expectingNothing

def retrieveKeyAgreementParticipant (s : ZrtpResponder) (newKeys : NewKeys) :
    Throws KeyAgreementParticipant := do
  let matchingKeyAgreeProtocol := s.allowedKeyAgreementProtocols.find? fun a =>
    s.foreignCommit.map (·.agreementSpecId) = some a.getId
  checkOperation (matchingKeyAgreeProtocol.isSome = true)
  newKeys (← owsRequireNotNil matchingKeyAgreeProtocol)

/-- The responder expects no Conf2Ack. -/
def isAuthenticatedAudioDataImplyingConf2Ack (_ : ZrtpResponder) : Bool := false

def initialPacket : RoleMethod ZrtpResponder (Option HandshakePacket) := do
  modify fun s => { s with callController := s.callController ++ [.advanceCallProgressToSecuring] }
  return some (← get).localHello.embeddedIntoHandshakePacket

def handleHello (packet : HandshakePacket) : RoleMethod ZrtpResponder (Option HandshakePacket) := do
  let foreignHello ← packet.parsedAsHello
  modify fun s => { s with foreignHello := some foreignHello }
  modify fun s => { s with packetExpectation := .expectingCommit }
  return some (← HelloAckPacket.helloAckPacket).embeddedIntoHandshakePacket

variable [CryptoTools]

def zrtpResponder (environment : Environment) (random : SecureRandomData) :
    Throws ZrtpResponder := do
  let hashChain ← HashChain.hashChainWithSeed random.hashChainSeed
  let allowedKeyAgreementProtocols := environment.keyAgreementProtocolsInDescendingPriority
  return {
    confirmIv := random.confirmIv
    dhSharedSecretHashes := random.dhSharedSecretHashes
    allowedKeyAgreementProtocols
    hashChain
    localHello := ← HelloPacket.helloPacketWithDefaults environment hashChain Zid.nullZid
      allowedKeyAgreementProtocols
    packetExpectation := .expectingHello }

def handleCommit (newKeys : NewKeys) (packet : HandshakePacket) :
    RoleMethod ZrtpResponder (Option HandshakePacket) := do
  let cp ← packet.parsedAsCommitPacket
  tell (← get).foreignHello (·.verifyMacWithHashChainH2 cp.h2)
  modify fun s => { s with foreignCommit := some cp }
  let participant ← (← get).retrieveKeyAgreementParticipant newKeys
  modify fun s => { s with keyAgreementParticipant := some participant }
  let s ← get
  let localDH ← DhPacket.dh1PacketWithHashChain s.hashChain s.dhSharedSecretHashes participant
  modify fun s => { s with localDH := some localDH }
  modify fun s => { s with packetExpectation := .expectingDH }
  return some localDH.embeddedIntoHandshakePacket

/-- Without a participant, a Hello, a Commit or a local DHPart, `masterSecretFromDhResult` finds
one of its arguments `nil`. -/
def handleDH (packet : HandshakePacket) : RoleMethod ZrtpResponder (Option HandshakePacket) := do
  let foreignDH ← packet.parsedAsDh2
  modify fun s => { s with foreignDH := some foreignDH }
  let s ← get
  tell s.foreignCommit (·.verifyMacWithHashChainH1 foreignDH.hashChainH1)
  tell s.foreignCommit (·.verifyCommitmentAgainstHello s.localHello foreignDH)
  let participant ← owsRequireNotNil s.keyAgreementParticipant
  let dhResult ← participant.calculateKeyAgreementAgainstRemotePublicKey foreignDH.publicKeyData
  let foreignHello ← owsRequireNotNil s.foreignHello
  let foreignCommit ← owsRequireNotNil s.foreignCommit
  let localDH ← owsRequireNotNil s.localDH
  let masterSecret ← MasterSecret.masterSecretFromDhResult dhResult foreignHello s.localHello
    foreignCommit localDH foreignDH
  modify fun s => { s with masterSecret := some masterSecret }
  modify fun s => { s with packetExpectation := .expectingConfirm }
  let confirm2Packet ← ConfirmPacket.confirm1PacketWithHashChain s.hashChain
    masterSecret.responderMacKey masterSecret.responderZrtpKey s.confirmIv
  return some confirm2Packet.embeddedIntoHandshakePacket

def handleConfirmTwo (environment : Environment) (packet : HandshakePacket) :
    RoleMethod ZrtpResponder (Option HandshakePacket) := do
  let s ← get
  let masterSecret ← owsRequireNotNil s.masterSecret
  let confirmPacket ← packet.parsedAsConfirm2Authenticated masterSecret.initiatorMacKey
    masterSecret.initiatorZrtpKey
  tell s.foreignDH (·.verifyMacWithHashChainH0 confirmPacket.hashChainH0)
  modify fun s => { s with packetExpectation := .expectingNothing }
  let confirmAck ← ConfirmAckPacket.confirmAckPacket
  return if environment.hasEnabledTestingOrLegacyOption .testingLoseConfAckOnPurpose then none
    else some confirmAck.embeddedIntoHandshakePacket

def handleExpected (environment : Environment) (newKeys : NewKeys) (packet : HandshakePacket) :
    RoleMethod ZrtpResponder (Option HandshakePacket) := do
  match (← get).packetExpectation with
  | .expectingHello => handleHello packet
  | .expectingCommit => handleCommit newKeys packet
  | .expectingDH => handleDH packet
  | .expectingConfirm => handleConfirmTwo environment packet
  | .expectingNothing | .expectingHelloAck | .expectingConfirmAck => return none

def handlePacket (environment : Environment) (newKeys : NewKeys) (packet : HandshakePacket) :
    RoleMethod ZrtpResponder (Option HandshakePacket) := do
  try
    handleExpected environment newKeys packet
  catch
  | .securityFailure =>
    modify fun s =>
      { s with callController := s.callController ++ [.terminateWithReasonHandshakeFailed] }
    pure none
  | .operationFailed _ => pure none
  | exception => throw exception

end ZrtpResponder
end SignalIOS.Zrtp
