import SignalIOS.Srtp.SrtpStream
import SignalIOS.Zrtp.ZrtpResponder

/-! The initiator of the handshake. It waits for the Hello of the responder. -/
namespace SignalIOS.Zrtp
open SignalIOS.Lib SignalIOS.Rtp SignalIOS.Srtp

structure ZrtpInitiator where
  commitPacket : Option CommitPacket := none
  dhSharedSecretHashes : DhPacketSharedSecretHashes
  foreignDH : Option DhPacket := none
  localDH : Option DhPacket := none
  hashChain : HashChain
  foreignHello : Option HelloPacket := none
  localHello : Option HelloPacket := none
  keyAgreementParticipant : Option KeyAgreementParticipant := none
  allowedKeyAgreementProtocols : List KeyAgreementProtocol
  confirmIv : NSData
  masterSecret : Option MasterSecret := none
  packetExpectation : PacketExpectation
  zid : Zid
  callController : List CallControllerMessage := []

namespace ZrtpInitiator

def hasHandshakeFinishedSuccessfully (s : ZrtpInitiator) : Bool :=
  s.packetExpectation = .expectingNothing

/-- The initiator has no packet to start with. -/
def initialPacket : RoleMethod ZrtpInitiator (Option HandshakePacket) := return none

def retrieveKeyAgreementParticpant (s : ZrtpInitiator) (newKeys : NewKeys) :
    Throws KeyAgreementParticipant := do
  let idsOfProtocolsAllowedByPeer :=
    (s.foreignHello.map (·.agreeIdsIncludingImplied)).getD []
  let bestCommonKeyAgreementProtocol := s.allowedKeyAgreementProtocols.find?
    fun locallyAllowedProtocol => idsOfProtocolsAllowedByPeer.contains locallyAllowedProtocol.getId
  checkOperation (bestCommonKeyAgreementProtocol.isSome = true)
  newKeys (← owsRequireNotNil bestCommonKeyAgreementProtocol)

variable [CryptoTools]

def zrtpInitiator (environment : Environment) (random : SecureRandomData) :
    Throws ZrtpInitiator := do
  let hashChain ← HashChain.hashChainWithSeed random.hashChainSeed
  return {
    allowedKeyAgreementProtocols := environment.keyAgreementProtocolsInDescendingPriority
    dhSharedSecretHashes := random.dhSharedSecretHashes
    zid := Zid.nullZid
    confirmIv := random.confirmIv
    hashChain
    packetExpectation := .expectingHello }

def handleHello (environment : Environment) (newKeys : NewKeys) (packet : HandshakePacket) :
    RoleMethod ZrtpInitiator (Option HandshakePacket) := do
  let foreignHello ← packet.parsedAsHello
  modify fun s => { s with foreignHello := some foreignHello }
  modify fun s => { s with callController := s.callController ++ [.advanceCallProgressToSecuring] }
  let participant ← (← get).retrieveKeyAgreementParticpant newKeys
  modify fun s => { s with keyAgreementParticipant := some participant }
  let s ← get
  let localHello ← HelloPacket.helloPacketWithDefaults environment s.hashChain s.zid
    s.allowedKeyAgreementProtocols
  modify fun s => { s with localHello := some localHello }
  modify fun s => { s with packetExpectation := .expectingHelloAck }
  return some localHello.embeddedIntoHandshakePacket

/-- Makes a second participant, and goes on with the first. -/
def handleHelloAck (newKeys : NewKeys) (packet : HandshakePacket) :
    RoleMethod ZrtpInitiator (Option HandshakePacket) := do
  let _ ← packet.parsedAsHelloAck
  let _ ← (← get).retrieveKeyAgreementParticpant newKeys
  let s ← get
  let participant ← owsRequireNotNil s.keyAgreementParticipant
  let localDH ← DhPacket.dh2PacketWithHashChain s.hashChain s.dhSharedSecretHashes participant
  modify fun s => { s with localDH := some localDH }
  let foreignHello ← owsRequireNotNil s.foreignHello
  let commitPacket ← CommitPacket.commitPacketWithDefaultSpecs participant.getProtocol s.hashChain
    s.zid foreignHello localDH
  modify fun s => { s with commitPacket := some commitPacket }
  modify fun s => { s with packetExpectation := .expectingDH }
  return some commitPacket.embeddedIntoHandshakePacket

/-- The Hello of the responder is checked against the second hash of the `h1` of its DHPart1: the
responder sends no Commit. -/
def handleDH (packet : HandshakePacket) : RoleMethod ZrtpInitiator (Option HandshakePacket) := do
  let foreignDH ← packet.parsedAsDh1
  modify fun s => { s with foreignDH := some foreignDH }
  let s ← get
  tell s.foreignHello (·.verifyMacWithHashChainH2 foreignDH.hashChainH1.hashWithSha256)
  let participant ← owsRequireNotNil s.keyAgreementParticipant
  let dhResult ← participant.calculateKeyAgreementAgainstRemotePublicKey foreignDH.publicKeyData
  let localHello ← owsRequireNotNil s.localHello
  let foreignHello ← owsRequireNotNil s.foreignHello
  let commitPacket ← owsRequireNotNil s.commitPacket
  let localDH ← owsRequireNotNil s.localDH
  let masterSecret ← MasterSecret.masterSecretFromDhResult dhResult localHello foreignHello
    commitPacket foreignDH localDH
  modify fun s => { s with masterSecret := some masterSecret }
  modify fun s => { s with packetExpectation := .expectingConfirm }
  return some localDH.embeddedIntoHandshakePacket

def handleConfirmOne (packet : HandshakePacket) :
    RoleMethod ZrtpInitiator (Option HandshakePacket) := do
  let s ← get
  let masterSecret ← owsRequireNotNil s.masterSecret
  let confirmPacket ← packet.parsedAsConfirm1Authenticated masterSecret.responderMacKey
    masterSecret.responderZrtpKey
  tell s.foreignDH (·.verifyMacWithHashChainH0 confirmPacket.hashChainH0)
  modify fun s => { s with packetExpectation := .expectingConfirmAck }
  let confirm2Packet ← ConfirmPacket.confirm2PacketWithHashChain s.hashChain
    masterSecret.initiatorMacKey masterSecret.initiatorZrtpKey s.confirmIv
  return some confirm2Packet.embeddedIntoHandshakePacket

def handleConfirmAck (packet : HandshakePacket) :
    RoleMethod ZrtpInitiator (Option HandshakePacket) := do
  let _ ← packet.parsedAsConfAck
  modify fun s => { s with packetExpectation := .expectingNothing }
  return none

def handleExpected (environment : Environment) (newKeys : NewKeys) (packet : HandshakePacket) :
    RoleMethod ZrtpInitiator (Option HandshakePacket) := do
  match (← get).packetExpectation with
  | .expectingHello => handleHello environment newKeys packet
  | .expectingHelloAck => handleHelloAck newKeys packet
  | .expectingDH => handleDH packet
  | .expectingConfirm => handleConfirmOne packet
  | .expectingConfirmAck => handleConfirmAck packet
  | .expectingNothing | .expectingCommit => return none

def handlePacket (environment : Environment) (newKeys : NewKeys) (packet : HandshakePacket) :
    RoleMethod ZrtpInitiator (Option HandshakePacket) := do
  try
    handleExpected environment newKeys packet
  catch
  | .securityFailure =>
    modify fun s =>
      { s with callController := s.callController ++ [.terminateWithReasonHandshakeFailed] }
    pure none
  | .operationFailed _ => pure none
  | exception => throw exception

/-- Whether the responder already sends audio, under its own key. `relatedInfo` is an RTP packet
or nothing that matters. -/
def isAuthenticatedAudioDataImplyingConf2Ack (s : ZrtpInitiator) (environment : Environment)
    (relatedInfo : Option RtpPacket) : Throws Bool := do
  match s.packetExpectation, relatedInfo with
  | .expectingConfirmAck, some packet =>
    try
      let masterSecret ← owsRequireNotNil s.masterSecret
      let incomingContext ← SrtpStream.srtpStreamWithCipherKey masterSecret.responderSrtpKey
        masterSecret.responderMacKey masterSecret.responderSrtpSalt
      let _ ← ((SrtpStream.verifyAuthenticationAndDecryptSecuredRtpPacket environment packet).run
        |>.run incomingContext).1
      pure true
    catch
    | .operationFailed _ => pure false
    | exception => throw exception
  | _, _ => return false

end ZrtpInitiator
end SignalIOS.Zrtp
