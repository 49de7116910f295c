import Mathlib.Data.Int.Notation
import SignalIOS.Rtp.RtpPacketParser
import SignalIOS.Srtp.SrtpStream
import SignalIOS.Zrtp.HandshakeFraming

/-! The sockets that a datagram passes on its way to a handler: a UDP socket, an RTP socket, and an
SRTP socket or the socket of the handshake. -/
namespace SignalIOS.Network
open SignalIOS.Lib SignalIOS.Rtp SignalIOS.Srtp SignalIOS.Zrtp

/-- An address, with the socket address it was taken from. -/
inductive IpAddress
  | ipv4 (ipv4Data : NSData)
  | ipv6 (ipv6Data : NSData)
  deriving DecidableEq, Repr

structure IpEndPoint where
  address : IpAddress
  port : UInt16
  deriving DecidableEq, Repr

def sizeofSockaddr : ℕ := 16
def sizeofSockaddrIn : ℕ := 16
def sizeofSockaddrIn6 : ℕ := 28
def saFamilyOffset : ℕ := 1
def sinPortOffset : ℕ := 2
def afInet : UInt8 := 2
def afInet6 : UInt8 := 30

namespace IpEndPoint

def ipv4EndPointFromSockaddrData (sockaddrData : NSData) : Throws IpEndPoint := do
  owsRequire (sockaddrData.length ≥ sizeofSockaddrIn)
  let port ← sockaddrData.bigEndianUInt16At sinPortOffset
  return ⟨.ipv4 (List.take sizeofSockaddrIn sockaddrData), port⟩

def ipv6EndPointFromSockaddrData (sockaddrData : NSData) : Throws IpEndPoint := do
  owsRequire (sockaddrData.length ≥ sizeofSockaddrIn6)
  let port ← sockaddrData.bigEndianUInt16At sinPortOffset
  return ⟨.ipv6 (List.take sizeofSockaddrIn6 sockaddrData), port⟩

def ipEndPointFromSockaddrData (sockaddrData : NSData) : Throws IpEndPoint := do
  owsRequire (sockaddrData.length ≥ sizeofSockaddr)
  let family ← sockaddrData.uint8At saFamilyOffset
  if family = afInet then ipv4EndPointFromSockaddrData sockaddrData
  else if family = afInet6 then ipv6EndPointFromSockaddrData sockaddrData
  else throw .badArgument

end IpEndPoint

/-- A UDP socket, and whether `CFSocketInvalidate` has been called on it. -/
structure UdpSocket where
  specifiedRemoteEndPoint : Option IpEndPoint
  clientConnectedFromRemoteEndPoint : Option IpEndPoint := none
  hasSentData : Bool := false
  invalidated : Bool := false

def UdpSocket.isRemoteEndPointKnown (s : UdpSocket) : Bool :=
  s.specifiedRemoteEndPoint.isSome || s.clientConnectedFromRemoteEndPoint.isSome

structure RtpSocket where
  interopOptions : List TestingOrLegacyOption

structure SrtpSocket where
  incomingContext : SrtpStream
  outgoingContext : SrtpStream
  deriving DecidableEq, Repr

def SrtpSocket.srtpSocketOverRtp (incomingCipherKey incomingMacKey incomingSalt outgoingCipherKey
    outgoingMacKey outgoingSalt : NSData) : Throws SrtpSocket := do
  return {
    incomingContext := ←
      SrtpStream.srtpStreamWithCipherKey incomingCipherKey incomingMacKey incomingSalt
    outgoingContext := ←
      SrtpStream.srtpStreamWithCipherKey outgoingCipherKey outgoingMacKey outgoingSalt }

/-- The socket that has been started over the RTP socket. That of the handshake has no state that
receiving depends on. -/
inductive PacketSocket
  | srtpSocket (socket : SrtpSocket)
  | zrtpHandshakeSocket

/-- What the handler of the packets is told. -/
inductive HandlerMessage
  | handleRtpPacket (packet : RtpPacket)
  | handleHandshakePacket (packet : HandshakePacket)
  | handleError (error : Exception) (relatedInfo : Option RtpPacket) (causedTermination : Bool)
  deriving DecidableEq, Repr

/-- The sockets, one over the other, and what the handler has been told. -/
structure ReceiveStack where
  udpSocket : UdpSocket
  rtpSocket : RtpSocket
  packetSocket : PacketSocket
  handler : List HandlerMessage := []

/-- A datagram, where it comes from, and what `CFSocketConnectToAddress` returns if it is asked to
connect to there. -/
structure Datagram where
  data : NSData
  address : NSData
  connectResult : ℤ

abbrev StackMethod (α : Type) := Method Exception ReceiveStack α

def kCFSocketDataCallBack : ℕ := 3

namespace PacketSocket
variable [CryptoTools]

/-- What the packet handler of an `SrtpSocket` does with a packet. -/
def handleSecured (environment : Environment) (packet : RtpPacket) (socket : SrtpSocket) :
    Throws HandlerMessage × PacketSocket :=
  let (decrypted, incomingContext) :=
    (SrtpStream.verifyAuthenticationAndDecryptSecuredRtpPacket environment packet).run.run
      socket.incomingContext
  let message := match decrypted with
    | .ok decryptedPacket => .ok (.handleRtpPacket decryptedPacket)
    | .error (.operationFailed description) =>
      .ok (.handleError (.operationFailed description) (some packet) false)
    | .error exception => .error exception
  (message, .srtpSocket { socket with incomingContext })

/-- What the packet handler of a `ZrtpHandshakeSocket` does with a packet. -/
def handleHandshake (environment : Environment) (packet : RtpPacket) : Throws HandlerMessage :=
  match HandshakePacket.handshakePacketParsedFromRtpPacket environment packet with
  | .ok handshakePacket => .ok (.handleHandshakePacket handshakePacket)
  | .error (.operationFailed description) =>
    .ok (.handleError (.operationFailed description) (some packet) false)
  | .error exception => .error exception

def handlePacket (environment : Environment) (packet : RtpPacket) :
    PacketSocket → Throws HandlerMessage × PacketSocket
  | srtpSocket socket => handleSecured environment packet socket
  | zrtpHandshakeSocket => (handleHandshake environment packet, zrtpHandshakeSocket)

end PacketSocket

namespace ReceiveStack

def tellHandler (message : HandlerMessage) : StackMethod Unit :=
  modify fun s => { s with handler := s.handler ++ [message] }

def onConnectFrom (datagram : Datagram) : StackMethod Unit := do
  checkOperation (datagram.connectResult = 0)
    (some s!"CFSocketConnectToAddress failed with error code: {datagram.connectResult}")
  let remoteEndPoint ← IpEndPoint.ipEndPointFromSockaddrData datagram.address
  modify fun s => { s with
    udpSocket := { s.udpSocket with clientConnectedFromRemoteEndPoint := some remoteEndPoint } }

variable [CryptoTools]

def handleRtpPacket (environment : Environment) (rtpPacket : RtpPacket) : StackMethod Unit := do
  let (message, packetSocket) := (← get).packetSocket.handlePacket environment rtpPacket
  modify fun s => { s with packetSocket }
  tellHandler (← message)

/-- The value handler of the `RtpSocket`. -/
def handleData (environment : Environment) (data : NSData) : StackMethod Unit := do
  let rtpPacket ← RtpPacket.rtpPacketParsedFromPacketData environment data
  -- enable interop when legacy client is detected
  if rtpPacket.wasAdjustedDueToInteropIssues &&
      environment.hasEnabledTestingOrLegacyOption legacyRtpOption &&
      !(← get).rtpSocket.interopOptions.contains legacyRtpOption then
    modify fun s => { s with
      rtpSocket := { interopOptions := s.rtpSocket.interopOptions ++ [legacyRtpOption] } }
  handleRtpPacket environment rtpPacket

def onReceivedData (environment : Environment) (type : ℕ) (datagram : Datagram) :
    StackMethod Unit := do
  try
    checkOperation (type = kCFSocketDataCallBack)
    let waitingForClient := !(← get).udpSocket.isRemoteEndPointKnown
    let packetHasContent : Bool := datagram.data.length > 0
    let haveNotSentPacketToBeBounced := !(← get).udpSocket.hasSentData
    checkOperation (packetHasContent || waitingForClient || haveNotSentPacketToBeBounced)
      "Received empty UDP packet. Probably indicates destination is unreachable."
    if waitingForClient then
      onConnectFrom datagram
    handleData environment datagram.data
  catch
  | .operationFailed description =>
    tellHandler (.handleError (.operationFailed description) none true)
    modify fun s => { s with udpSocket := { s.udpSocket with invalidated := true } }
  | exception => throw exception

/-- A datagram arrives. An invalidated socket does not call back. -/
def receive (environment : Environment) (datagram : Datagram) : StackMethod Unit := do
  if (← get).udpSocket.invalidated then
    return
  onReceivedData environment kCFSocketDataCallBack datagram

/-- Datagrams arrive one after the other, until an exception ends the application. -/
def receiveAll (environment : Environment) (datagrams : List Datagram) : StackMethod Unit :=
  forM datagrams (receive environment)

/-- What the handler has been told when the datagrams have arrived. -/
def messages (environment : Environment) (s : ReceiveStack) (datagrams : List Datagram) :
    List HandlerMessage :=
  ((receiveAll environment datagrams).run.run s).2.handler

end ReceiveStack
end SignalIOS.Network
