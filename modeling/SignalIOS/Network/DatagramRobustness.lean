import SignalIOS.Network.ReceiveStack
import SignalIOS.Rtp.WellFormedPackets
import SignalIOS.Srtp.SecureStream

/-! What bad datagrams do to the sockets that receive them. -/
namespace SignalIOS.Network
open SignalIOS.Lib SignalIOS.Rtp SignalIOS.Srtp SignalIOS.Zrtp Throws NSData

variable {environment : Environment} {data : NSData} {packet : RtpPacket}

section
variable [CryptoTools]

/-- Authenticating a packet that was parsed raises nothing but `OperationFailed`. -/
theorem failsSafely_verifyAuthentication (s : SrtpStream) (environment : Environment)
    (hparsed : RtpPacket.ParsedFrom data packet) :
    FailsSafely (s.verifyAuthentication environment packet) := by
  have hlength := hparsed.payload
  simp only [SrtpStream.verifyAuthentication, failsSafely_bind, failsSafely_checkOperation,
    checkOperation_eq_ok, true_and, RtpPacket.rawPacketDataUsingInteropOptions,
    hparsed.rawPacketData, failsSafely_ok, Except.ok.injEq, forall_eq']
  intro _ hpayload
  refine ⟨failsSafely_of_eq_ok (takeLast_eq_ok.mpr ⟨by omega, rfl⟩), fun _ _ => ?_⟩
  exact ⟨failsSafely_of_eq_ok (skipLast_eq_ok.mpr ⟨by omega, rfl⟩), fun _ _ _ _ => trivial⟩

end

/-- Extracting a packet of the handshake from a packet that was parsed raises nothing but
`OperationFailed`. -/
theorem failsSafely_handshakePacketParsedFromRtpPacket (environment : Environment)
    (hparsed : RtpPacket.ParsedFrom data packet) (hlength : 12 ≤ data.length) :
    FailsSafely (HandshakePacket.handshakePacketParsedFromRtpPacket environment packet) := by
  simp only [HandshakePacket.handshakePacketParsedFromRtpPacket, failsSafely_bind,
    failsSafely_checkOperation, checkOperation_eq_ok, true_and,
    RtpPacket.rawPacketDataUsingInteropOptions, hparsed.rawPacketData, failsSafely_ok,
    Except.ok.injEq, forall_eq']
  intro _ _ _ _ _ _ _ _ _ (hextension : 12 ≤ _)
  have htypeId : FailsSafely (HandshakePacket.getHandshakeTypeIdFromRtp packet) :=
    failsSafely_of_eq_ok (take_eq_ok.mpr ⟨Nat.le_trans (by decide) hextension, rfl⟩)
  have hpayload : FailsSafely (HandshakePacket.getHandshakePayloadFromRtp packet) := by
    rw [HandshakePacket.getHandshakePayloadFromRtp, failsSafely_bind]
    refine ⟨failsSafely_of_eq_ok (skip_eq_ok.mpr ⟨Nat.le_trans (by decide) hextension, rfl⟩), ?_⟩
    intro _ hskip
    obtain ⟨-, rfl⟩ := skip_eq_ok.mp hskip
    refine failsSafely_of_eq_ok (skipLast_eq_ok.mpr ⟨?_, rfl⟩)
    rw [List.length_drop]
    simp only [handshakeTypeIdLength, handshakeCrcLength]
    omega
  have hcrc : FailsSafely (HandshakePacket.getIncludedHandshakeCrcFromRtp packet) := by
    rw [HandshakePacket.getIncludedHandshakeCrcFromRtp, failsSafely_bind]
    refine ⟨failsSafely_of_eq_ok
      (takeLast_eq_ok.mpr ⟨Nat.le_trans (by decide) hextension, rfl⟩), ?_⟩
    intro _ htake
    obtain ⟨-, rfl⟩ := takeLast_eq_ok.mp htake
    apply failsSafely_bigEndianUInt32At
    rw [List.length_drop]
    simp only [handshakeCrcLength]
    omega
  refine ⟨htypeId, fun _ _ => ⟨hpayload, fun _ _ => ⟨hcrc, fun _ _ => ⟨?_, fun _ _ _ _ => ?_⟩⟩⟩⟩
  · exact failsSafely_of_eq_ok (skipLast_eq_ok.mpr ⟨by omega, rfl⟩)
  · exact failsSafely_ok _

section
variable [CryptoTools]

/-- What has been authenticated can be decrypted. -/
theorem run_verifyAuthenticationAndDecrypt_of_verified {s : SrtpStream} (hs : s.Valid)
    (hparsed : RtpPacket.ParsedFrom data packet)
    (h : s.verifyAuthentication environment packet = .ok ()) :
    ∃ decrypted t, (SrtpStream.verifyAuthenticationAndDecryptSecuredRtpPacket environment
      packet).run.run s = (.ok decrypted, t) := by
  have hlength : hmacLength ≤ packet.payload.length :=
    (SrtpStream.authenticates_of_verifyAuthentication h).1
  have hskip := skipLast_eq_ok.mpr ⟨hlength, rfl⟩
  have hdecrypt (encrypted : NSData) (n : Int64) := usingCipher_eq_ok CryptoTools.aesCtrDecrypt
    encrypted hs.cipherKey (SrtpStream.length_ivOf hs.cipherIvSalt
      packet.synchronizationSourceIdentifier.toUInt64 n)
  simp only [SrtpStream.verifyAuthenticationAndDecryptSecuredRtpPacket, Method.run_bind,
    Method.run_get, Method.run_lift, h, SrtpStream.run_getIvForSequenceNumber hs.cipherIvSalt,
    hskip, decryptWithAesInCounterMode, hdecrypt]
  obtain ⟨decrypted, hdecrypted⟩ := hparsed.withPayload_returns _
  exact ⟨decrypted, _, Prod.ext hdecrypted rfl⟩

namespace PacketSocket

/-- Keys and salts of the sizes that the cipher accepts. -/
def Valid : PacketSocket → Prop
  | srtpSocket socket => socket.incomingContext.Valid
  | zrtpHandshakeSocket => True

/-- The packet is authentic, or of the handshake. -/
def Accepts (environment : Environment) (packet : RtpPacket) : PacketSocket → Prop
  | srtpSocket socket => socket.incomingContext.verifyAuthentication environment packet = .ok ()
  | zrtpHandshakeSocket => ∃ handshakePacket,
    HandshakePacket.handshakePacketParsedFromRtpPacket environment packet = .ok handshakePacket

/-- Whatever the socket does with a packet, it does not change its keys. -/
theorem handlePacket_keeps (s : PacketSocket) (environment : Environment) (packet : RtpPacket)
    (hs : s.Valid) :
    (s.handlePacket environment packet).2.Valid ∧ ∀ q,
      (s.handlePacket environment packet).2.Accepts environment q ↔ s.Accepts environment q := by
  cases s with
  | srtpSocket socket =>
    have hkeys := (SrtpStream.verifyAuthenticationAndDecrypt_leaves_keys socket.incomingContext
      environment packet).run
    refine ⟨⟨hkeys.1 ▸ hs.cipherKey, hkeys.2.2 ▸ hs.cipherIvSalt⟩, fun q => ?_⟩
    have hcongr := SrtpStream.verifyAuthentication_congr hkeys environment q
    exact ⟨hcongr.symm.trans, hcongr.trans⟩
  | zrtpHandshakeSocket => exact ⟨trivial, fun _ => Iff.rfl⟩

/-- A packet that is not accepted is reported, and leaves the socket as it was. -/
theorem handlePacket_of_not_accepts {s : PacketSocket} (hparsed : RtpPacket.ParsedFrom data packet)
    (hlength : 12 ≤ data.length) (h : ¬ s.Accepts environment packet) :
    ∃ error, s.handlePacket environment packet =
      (.ok (.handleError error (some packet) false), s) := by
  cases s with
  | srtpSocket socket =>
    have hsafe := failsSafely_verifyAuthentication socket.incomingContext environment hparsed
    rcases failsSafely_iff.mp hsafe with ⟨⟨⟩, hok⟩ | ⟨description, herror⟩
    · exact absurd hok h
    · have hrun := SrtpStream.run_verifyAuthenticationAndDecrypt_of_rejected herror
      refine ⟨.operationFailed description, ?_⟩
      simp only [handlePacket, handleSecured, hrun]
  | zrtpHandshakeSocket =>
    have hsafe := failsSafely_handshakePacketParsedFromRtpPacket environment hparsed hlength
    rcases failsSafely_iff.mp hsafe with hok | ⟨description, herror⟩
    · exact absurd hok h
    · refine ⟨.operationFailed description, ?_⟩
      simp only [handlePacket, handleHandshake, herror]

/-- The handler is told something about every packet that was parsed. -/
theorem handlePacket_tells (environment : Environment) {s : PacketSocket} (hs : s.Valid)
    (hparsed : RtpPacket.ParsedFrom data packet) (hlength : 12 ≤ data.length) :
    ∃ message, (s.handlePacket environment packet).1 = .ok message := by
  by_cases haccepts : s.Accepts environment packet
  case pos =>
    cases s with
    | srtpSocket socket =>
      obtain ⟨decrypted, t, hrun⟩ :=
        run_verifyAuthenticationAndDecrypt_of_verified hs hparsed haccepts
      refine ⟨.handleRtpPacket decrypted, ?_⟩
      simp only [handlePacket, handleSecured, hrun]
    | zrtpHandshakeSocket =>
      obtain ⟨handshakePacket, hok⟩ := haccepts
      refine ⟨.handleHandshakePacket handshakePacket, ?_⟩
      simp only [handlePacket, handleHandshake, hok]
  case neg =>
    obtain ⟨error, herror⟩ := handlePacket_of_not_accepts hparsed hlength haccepts
    exact ⟨_, congrArg Prod.fst herror⟩

end PacketSocket

namespace ReceiveStack
variable {s t : ReceiveStack} {datagram : Datagram}

/-- The datagram gets past the UDP socket: that knows its remote end point, or can connect to where
the datagram comes from. -/
def Reaches (s : ReceiveStack) (datagram : Datagram) : Prop :=
  s.udpSocket.isRemoteEndPointKnown = true ∨ datagram.connectResult = 0 ∧
    ∃ remoteEndPoint, IpEndPoint.ipEndPointFromSockaddrData datagram.address = .ok remoteEndPoint

/-- The sockets go on receiving. -/
structure Ready (s : ReceiveStack) : Prop where
  invalidated : s.udpSocket.invalidated = false
  packetSocket : s.packetSocket.Valid

/-- The packet has been handled in `s`, with `t` as the result. -/
structure Handled (environment : Environment) (packet : RtpPacket) (s t : ReceiveStack) : Prop where
  packetSocket : t.packetSocket = (s.packetSocket.handlePacket environment packet).2
  handler : ∃ message, (s.packetSocket.handlePacket environment packet).1 = .ok message ∧
    t.handler = s.handler ++ [message]
  invalidated : t.udpSocket.invalidated = false
  reaches : ∀ datagram, s.Reaches datagram → t.Reaches datagram

theorem handleRtpPacket_handles (hs : s.Ready) (hparsed : RtpPacket.ParsedFrom data packet)
    (hlength : 12 ≤ data.length) :
    (handleRtpPacket environment packet).Ensures s (fun _ t => Handled environment packet s t)
      fun _ _ => False := by
  obtain ⟨message, hmessage⟩ :=
    PacketSocket.handlePacket_tells environment hs.packetSocket hparsed hlength
  simp only [handleRtpPacket, tellHandler, Method.ensures_bind, Method.ensures_get,
    Method.ensures_modify, Method.ensures_lift, hmessage]
  refine ⟨?_, fun _ herror => by cases herror⟩
  rintro _ ⟨⟩
  exact ⟨rfl, ⟨message, hmessage, rfl⟩, hs.invalidated, fun _ h => h⟩

theorem handleData_handles (hs : s.Ready)
    (hpacket : RtpPacket.rtpPacketParsedFromPacketData environment data = .ok packet)
    (hlength : 12 ≤ data.length) :
    (handleData environment data).Ensures s (fun _ t => Handled environment packet s t)
      fun _ _ => False := by
  have hparsed := RtpPacket.parsedFrom hpacket
  simp only [handleData, Method.ensures_bind, Method.ensures_get, Method.ensures_lift, hpacket]
  refine ⟨?_, fun _ herror => by cases herror⟩
  rintro _ ⟨⟩
  split
  case isTrue =>
    rw [Method.ensures_bind, Method.ensures_modify]
    let adjusted : ReceiveStack :=
      { s with rtpSocket := { interopOptions := s.rtpSocket.interopOptions ++ [legacyRtpOption] } }
    have hready : adjusted.Ready := ⟨hs.invalidated, hs.packetSocket⟩
    refine (handleRtpPacket_handles hready hparsed hlength).mono ?_ fun _ _ => id
    rintro _ t ⟨hpacketSocket, hhandler, hinvalidated, hreaches⟩
    exact ⟨hpacketSocket, hhandler, hinvalidated, hreaches⟩
  case isFalse => exact handleRtpPacket_handles hs hparsed hlength

theorem onReceivedData_handles (hs : s.Ready) (hreaches : s.Reaches datagram)
    (hpacket : RtpPacket.rtpPacketParsedFromPacketData environment datagram.data = .ok packet)
    (hlength : 12 ≤ datagram.data.length) :
    (onReceivedData environment kCFSocketDataCallBack datagram).Ensures s
      (fun _ t => Handled environment packet s t) fun _ _ => False := by
  rw [onReceivedData, Method.ensures_tryCatch]
  refine Method.Ensures.mono (E := fun _ _ => False) ?_ (fun _ _ h => h) fun _ _ => False.elim
  have hcontent : decide (datagram.data.length > 0) = true := decide_eq_true (by omega)
  simp only [Method.ensures_bind, Method.ensures_get, Method.ensures_lift, checkOperation, if_true,
    hcontent, Bool.true_or, forall_const, reduceCtorEq, false_implies,
    implies_true, and_true]
  cases hknown : s.udpSocket.isRemoteEndPointKnown with
  | true => exact handleData_handles hs hpacket hlength
  | false =>
    obtain ⟨hconnects, remoteEndPoint, hremoteEndPoint⟩ :=
      hreaches.resolve_left (by rw [hknown]; exact Bool.false_ne_true)
    simp only [onConnectFrom, Bool.not_false, if_true, Method.ensures_bind, Method.ensures_lift,
      Method.ensures_modify, checkOperation, hconnects, hremoteEndPoint, Except.ok.injEq,
      forall_eq', forall_const, reduceCtorEq, false_implies, implies_true, and_true]
    let connected : ReceiveStack := { s with
      udpSocket := { s.udpSocket with clientConnectedFromRemoteEndPoint := some remoteEndPoint } }
    have hready : connected.Ready := ⟨hs.invalidated, hs.packetSocket⟩
    refine (handleData_handles hready hpacket hlength).mono ?_ fun _ _ => id
    rintro _ t ⟨hpacketSocket, hhandler, hinvalidated, hreaches⟩
    refine ⟨hpacketSocket, hhandler, hinvalidated, fun datagram _ => hreaches datagram (.inl ?_)⟩
    exact Bool.or_true _

/-- A socket that has not been invalidated calls back. -/
theorem run_receive (hs : s.udpSocket.invalidated = false) :
    (receive environment datagram).run.run s =
      (onReceivedData environment kCFSocketDataCallBack datagram).run.run s := by
  simp only [receive, Method.run_bind, Method.run_get, hs, Bool.false_eq_true, if_false]

theorem receive_handles (hs : s.Ready) (hreaches : s.Reaches datagram)
    (hpacket : RtpPacket.rtpPacketParsedFromPacketData environment datagram.data = .ok packet) :
    ∃ t, (receive environment datagram).run.run s = (.ok (), t) ∧
      Handled environment packet s t := by
  have hlength : 12 ≤ datagram.data.length :=
    ((RtpPacket.parses_iff_wellFormed environment datagram.data).mp ⟨packet, hpacket⟩).1
  obtain ⟨⟨⟩, t, hrun, hhandled⟩ :=
    (onReceivedData_handles hs hreaches hpacket hlength).run_eq_ok
  exact ⟨t, (run_receive hs.invalidated).trans hrun, hhandled⟩

theorem Handled.ready (h : Handled environment packet s t) (hs : s.Ready) : t.Ready :=
  ⟨h.invalidated, h.packetSocket ▸
    (s.packetSocket.handlePacket_keeps environment packet hs.packetSocket).1⟩

theorem messages_cons (datagrams : List Datagram)
    (h : (receive environment datagram).run.run s = (.ok (), t)) :
    s.messages environment (datagram :: datagrams) = t.messages environment datagrams := by
  simp only [messages, receiveAll, List.forM_cons, Method.run_bind, h]

/-- An exception that reaches the application ends it. -/
theorem messages_cons_of_error (datagrams : List Datagram) {exception : Exception}
    (h : (receive environment datagram).run.run s = (.error exception, t)) :
    s.messages environment (datagram :: datagrams) = t.handler := by
  simp only [messages, receiveAll, List.forM_cons, Method.run_bind, h]

/-- The datagram passes all the way through the sockets, and none of them finds fault with it. -/
def Genuine (environment : Environment) (s : ReceiveStack) (datagram : Datagram) : Prop :=
  ∃ packet, RtpPacket.rtpPacketParsedFromPacketData environment datagram.data = .ok packet ∧
    s.packetSocket.Accepts environment packet

/-- Every datagram that is not genuine makes one difference to what the handler is told: a report
about it, and none of a termination. -/
def Robust (environment : Environment) (s : ReceiveStack) (datagrams : List Datagram) : Prop :=
  ∀ before datagram after, datagrams = before ++ datagram :: after →
    ¬ s.Genuine environment datagram → ∃ error relatedInfo later,
      s.messages environment (before ++ after) = s.messages environment before ++ later ∧
      s.messages environment (before ++ datagram :: after) =
        s.messages environment before ++ .handleError error relatedInfo false :: later

/-- What is told depends on the socket of the packets, and not on what has been told. -/
theorem messages_of_packetSocket {datagrams : List Datagram} (hs : s.Ready) (ht : t.Ready)
    (hpacketSocket : t.packetSocket = s.packetSocket)
    (hdatagrams : ∀ d ∈ datagrams, s.Reaches d ∧ t.Reaches d ∧ WellFormed environment d.data) :
    ∃ later, s.messages environment datagrams = s.handler ++ later ∧
      t.messages environment datagrams = t.handler ++ later := by
  induction datagrams generalizing s t with
  | nil => exact ⟨[], (List.append_nil _).symm, (List.append_nil _).symm⟩
  | cons d datagrams ih =>
    obtain ⟨⟨hsd, htd, hwellFormed⟩, hrest⟩ := List.forall_mem_cons.mp hdatagrams
    obtain ⟨packet, hpacket⟩ := (RtpPacket.parses_iff_wellFormed _ _).mpr hwellFormed
    obtain ⟨s', hs', hhandled⟩ := receive_handles hs hsd hpacket
    obtain ⟨t', ht', hhandled'⟩ := receive_handles ht htd hpacket
    obtain ⟨message, hmessage, hhandler⟩ := hhandled.handler
    obtain ⟨message', hmessage', hhandler'⟩ := hhandled'.handler
    obtain rfl : message = message' := by
      rw [hpacketSocket] at hmessage'
      exact Except.ok.inj (hmessage.symm.trans hmessage')
    obtain ⟨later, hlater, hlater'⟩ := ih (hhandled.ready hs) (hhandled'.ready ht)
      (by rw [hhandled.packetSocket, hhandled'.packetSocket, hpacketSocket])
      fun d hd => ⟨hhandled.reaches d (hrest d hd).1, hhandled'.reaches d (hrest d hd).2.1,
        (hrest d hd).2.2⟩
    refine ⟨message :: later, ?_, ?_⟩
    · rw [messages_cons _ hs', hlater, hhandler, List.append_assoc]
      rfl
    · rw [messages_cons _ ht', hlater', hhandler', List.append_assoc]
      rfl

/-- A datagram that is well formed, but not genuine, makes one difference. -/
theorem messages_of_not_genuine {before after : List Datagram} (hs : s.Ready)
    (hdatagrams : ∀ d ∈ before ++ datagram :: after,
      s.Reaches d ∧ WellFormed environment d.data)
    (hbad : ¬ s.Genuine environment datagram) : ∃ error relatedInfo later,
      s.messages environment (before ++ after) = s.messages environment before ++ later ∧
      s.messages environment (before ++ datagram :: after) =
        s.messages environment before ++ .handleError error relatedInfo false :: later := by
  induction before generalizing s with
  | nil =>
    obtain ⟨⟨hreaches, hwellFormed⟩, hafter⟩ := List.forall_mem_cons.mp hdatagrams
    obtain ⟨packet, hpacket⟩ := (RtpPacket.parses_iff_wellFormed _ _).mpr hwellFormed
    obtain ⟨t, ht, hhandled⟩ := receive_handles hs hreaches hpacket
    obtain ⟨error, herror⟩ := PacketSocket.handlePacket_of_not_accepts
      (RtpPacket.parsedFrom hpacket) hwellFormed.1 fun haccepts => hbad ⟨packet, hpacket, haccepts⟩
    obtain ⟨message, hmessage, hhandler⟩ := hhandled.handler
    have hpacketSocket := hhandled.packetSocket
    rw [herror] at hmessage hpacketSocket
    obtain rfl := Except.ok.inj hmessage
    obtain ⟨later, hlater, hlater'⟩ := messages_of_packetSocket hs (hhandled.ready hs)
      hpacketSocket fun d hd =>
        ⟨(hafter d hd).1, hhandled.reaches d (hafter d hd).1, (hafter d hd).2⟩
    refine ⟨error, some packet, later, hlater, ?_⟩
    rw [List.nil_append, messages_cons _ ht, hlater', hhandler, List.append_assoc]
    rfl
  | cons d before ih =>
    obtain ⟨⟨hreaches, hwellFormed⟩, hrest⟩ := List.forall_mem_cons.mp hdatagrams
    obtain ⟨packet, hpacket⟩ := (RtpPacket.parses_iff_wellFormed _ _).mpr hwellFormed
    obtain ⟨t, ht, hhandled⟩ := receive_handles hs hreaches hpacket
    have hkeeps := s.packetSocket.handlePacket_keeps environment packet hs.packetSocket
    have hbad' : ¬ t.Genuine environment datagram := by
      rintro ⟨q, hq, haccepts⟩
      rw [hhandled.packetSocket, hkeeps.2] at haccepts
      exact hbad ⟨q, hq, haccepts⟩
    have hafter := ih (hhandled.ready hs)
      (fun d hd => ⟨hhandled.reaches d (hrest d hd).1, (hrest d hd).2⟩) hbad'
    rwa [List.cons_append, List.cons_append, messages_cons _ ht, messages_cons _ ht,
      messages_cons _ ht]

theorem handleData_of_not_wellFormed (s : ReceiveStack) (hbad : ¬ WellFormed environment data) :
    (handleData environment data).Ensures s (fun _ _ => False) fun _ t => t = s := by
  rw [handleData, Method.ensures_bind, Method.ensures_lift]
  refine ⟨fun packet hpacket => ?_, fun _ _ => rfl⟩
  exact absurd ((RtpPacket.parses_iff_wellFormed _ _).mp ⟨packet, hpacket⟩) hbad

theorem onReceivedData_of_not_wellFormed (s : ReceiveStack) (type : ℕ)
    (hbad : ¬ WellFormed environment datagram.data) :
    (onReceivedData environment type datagram).Ensures s
      (fun _ t => t.udpSocket.invalidated = true ∧
        ∃ error, t.handler = s.handler ++ [.handleError error none true])
      fun _ t => t.handler = s.handler := by
  rw [onReceivedData, Method.ensures_tryCatch]
  refine Method.Ensures.mono (Q := fun _ _ => False) (E := fun _ t => t.handler = s.handler) ?_
    (fun _ _ => False.elim) fun exception t ht => ?_
  · simp only [Method.ensures_bind, Method.ensures_get, Method.ensures_lift]
    refine ⟨fun _ _ => ⟨fun _ _ => ?_, fun _ _ => trivial⟩, fun _ _ => trivial⟩
    split
    case isTrue =>
      simp only [onConnectFrom, Method.ensures_bind, Method.ensures_lift, Method.ensures_modify]
      refine ⟨fun _ _ => ⟨fun remoteEndPoint _ => ?_, fun _ _ => trivial⟩, fun _ _ => trivial⟩
      refine (handleData_of_not_wellFormed _ hbad).mono (fun _ _ => id) ?_
      rintro _ _ rfl
      rfl
    case isFalse =>
      refine (handleData_of_not_wellFormed _ hbad).mono (fun _ _ => id) ?_
      rintro _ _ rfl
      rfl
  · cases exception with
    | operationFailed description => exact ⟨rfl, _, congrArg (· ++ _) ht⟩
    | securityFailure => exact ht
    | badArgument => exact ht
    | badState => exact ht
    | nsRangeException => exact ht

/-- Nothing is told any more once the socket has been invalidated. -/
theorem messages_of_invalidated (hs : s.udpSocket.invalidated = true) (datagrams : List Datagram) :
    s.messages environment datagrams = s.handler := by
  induction datagrams with
  | nil => rfl
  | cons d datagrams ih =>
    have hrun : (receive environment d).run.run s = (.ok (), s) := by
      simp only [receive, Method.run_bind, Method.run_get, hs, if_true, Method.run_pure]
    rw [messages_cons _ hrun, ih]

/-- A datagram that is not well formed ends what the handler is told, at most with the report of a
termination. -/
theorem messages_of_not_wellFormed (s : ReceiveStack) (before after : List Datagram)
    (hbad : ¬ WellFormed environment datagram.data) :
    s.messages environment (before ++ datagram :: after) = s.messages environment before ∨
      ∃ error, s.messages environment (before ++ datagram :: after) =
        s.messages environment before ++ [.handleError error none true] := by
  induction before generalizing s with
  | nil =>
    rw [List.nil_append]
    show s.messages environment (datagram :: after) = s.handler ∨
      ∃ error, s.messages environment (datagram :: after) =
        s.handler ++ [.handleError error none true]
    cases hs : s.udpSocket.invalidated with
    | true => exact .inl (messages_of_invalidated hs _)
    | false =>
      have hreceived := onReceivedData_of_not_wellFormed s kCFSocketDataCallBack hbad
      rw [Method.Ensures, ← run_receive hs] at hreceived
      rcases hrun : (receive environment datagram).run.run s with ⟨exception | ⟨⟨⟩⟩, t⟩
      · rw [hrun] at hreceived
        exact .inl ((messages_cons_of_error _ hrun).trans hreceived)
      · rw [hrun] at hreceived
        obtain ⟨hinvalidated, error, herror⟩ := hreceived
        rw [messages_cons _ hrun, messages_of_invalidated hinvalidated]
        exact .inr ⟨error, herror⟩
  | cons d before ih =>
    rw [List.cons_append]
    rcases hrun : (receive environment d).run.run s with ⟨exception | ⟨⟨⟩⟩, t⟩
    · rw [messages_cons_of_error _ hrun, messages_cons_of_error _ hrun]
      exact .inl rfl
    · rw [messages_cons _ hrun, messages_cons _ hrun]
      exact ih t

/-- The sockets withstand exactly the sequences in which every datagram is well formed. -/
theorem robust_iff {s : ReceiveStack} (hs : s.Ready) {datagrams : List Datagram}
    (hreaches : ∀ d ∈ datagrams, s.Reaches d) :
    s.Robust environment datagrams ↔ ∀ d ∈ datagrams, WellFormed environment d.data := by
  constructor
  · intro hrobust d hd
    by_contra hbad
    obtain ⟨before, after, rfl⟩ := List.append_of_mem hd
    have hnot : ¬ s.Genuine environment d := by
      rintro ⟨packet, hpacket, -⟩
      exact hbad ((RtpPacket.parses_iff_wellFormed _ _).mp ⟨packet, hpacket⟩)
    obtain ⟨error, relatedInfo, later, -, hmessages⟩ := hrobust before d after rfl hnot
    rcases messages_of_not_wellFormed s before after hbad with hnone | ⟨error', herror⟩
    · have hlength := congrArg List.length (hmessages.symm.trans hnone)
      rw [List.length_append, List.length_cons] at hlength
      omega
    · have htold := List.append_cancel_left (hmessages.symm.trans herror)
      cases htold
  · rintro hwellFormed before d after rfl hbad
    exact messages_of_not_genuine hs (fun d hd => ⟨hreaches d hd, hwellFormed d hd⟩) hbad

end ReceiveStack

end

section Sample

local instance stackCryptoTools : CryptoTools := SrtpStream.sampleCryptoTools

/-- A secured packet, with its HMAC, whose number is in two bytes. -/
def securedBytes (high low : UInt8) : NSData :=
  let authenticated : NSData := [0x80, 0, high, low, 0, 0, 0, 0, 0, 0, 0, 0, 1, 2, 3, 4, 5, 6]
  authenticated ++ [2, 3] ++ authenticated

def sampleDatagram (data : NSData) : Datagram := ⟨data, [], 0⟩

/-- An SRTP socket over a UDP socket that knows its remote end point. -/
def sampleStack : ReceiveStack where
  udpSocket := { specifiedRemoteEndPoint := some ⟨.ipv4 (List.replicate 16 0), 1024⟩ }
  rtpSocket := ⟨[]⟩
  packetSocket := .srtpSocket ⟨SrtpStream.sampleStream, SrtpStream.sampleStream⟩

theorem sampleStack_ready : sampleStack.Ready := ⟨rfl, ⟨rfl, rfl⟩⟩

/-- The second of three packets has a wrong HMAC. -/
theorem robust_sampleDatagrams : sampleStack.Robust ⟨[], [], [], []⟩
    [sampleDatagram (securedBytes 0 1), sampleDatagram (0x80 :: List.replicate 40 0),
      sampleDatagram (securedBytes 0 2)] := by
  refine (ReceiveStack.robust_iff sampleStack_ready fun _ _ => .inl rfl).mpr ?_
  simp only [List.forall_mem_cons, List.not_mem_nil, false_implies, implies_true, and_true]
  exact ⟨(RtpPacket.parses_iff_wellFormed _ _).mp ⟨_, rfl⟩,
    (RtpPacket.parses_iff_wellFormed _ _).mp ⟨_, rfl⟩,
    (RtpPacket.parses_iff_wellFormed _ _).mp ⟨_, rfl⟩⟩

/-- One byte is reported as a termination. -/
theorem not_robust :
    ¬ ∀ (_ : CryptoTools) (environment : Environment) (s : ReceiveStack), s.Ready →
      ∀ datagrams : List Datagram, (∀ d ∈ datagrams, s.Reaches d) →
        (∀ d ∈ datagrams, d.data ≠ []) → s.Robust environment datagrams := by
  intro h
  have hrobust := h stackCryptoTools ⟨[], [], [], []⟩ sampleStack sampleStack_ready
    [sampleDatagram [0]] (fun _ _ => .inl rfl) (by simp [sampleDatagram])
  have hnot : ¬ sampleStack.Genuine ⟨[], [], [], []⟩ (sampleDatagram [0]) := by
    rintro ⟨packet, hpacket, -⟩
    cases hpacket
  obtain ⟨error, relatedInfo, later, -, hmessages⟩ := hrobust [] _ [] rfl hnot
  have htold : sampleStack.messages ⟨[], [], [], []⟩ [sampleDatagram [0]] =
      [.handleError (.operationFailed "Rtp packet ends before header finished.") none true] := rfl
  cases htold.symm.trans hmessages

end Sample
end SignalIOS.Network
