import SignalIOS.Audio.AudioSocket
import SignalIOS.Lib.Runs
import SignalIOS.Network.DatagramRobustness

/-! The line from the audio socket of one party to that of the other. The network may lose, repeat,
delay and reorder what is sent, and put in datagrams of its own. -/
namespace SignalIOS.Audio
open SignalIOS.Lib SignalIOS.Rtp SignalIOS.Srtp SignalIOS.Network

/-- What the packet handler of an `AudioSocket` hands on. -/
def AudioSocket.handed (messages : List HandlerMessage) : List EncodedAudioPacket :=
  messages.filterMap fun message =>
    match message with
    | .handleRtpPacket packet => some ⟨packet.payload, packet.sequenceNumber⟩
    | _ => none

structure AudioLine where
  outgoingContext : SrtpStream
  interopOptions : List TestingOrLegacyOption
  /-- The packets that have been sent, and the datagrams they became. -/
  sent : List (EncodedAudioPacket × NSData) := []
  receiver : ReceiveStack

namespace AudioLine
open AudioSocket (plainPacket plainPacket_valid)

inductive Event
  | send (audioPacket : EncodedAudioPacket)
  /-- One of the datagrams that have been sent arrives, for the first time or again. -/
  | deliver (index : ℕ) (address : NSData) (connectResult : ℤ)
  | inject (datagram : Datagram)

section
variable [CryptoTools]

/-- `send:` of the audio socket, through `secureAndSendRtpPacket:` and `send:` of the RTP socket. -/
def send (environment : Environment) (audioPacket : EncodedAudioPacket) (l : AudioLine) : AudioLine :=
  match (AudioSocket.send environment audioPacket).run.run l.outgoingContext with
  | (.ok packet, outgoingContext) =>
    match packet.rawPacketDataUsingInteropOptions environment l.interopOptions with
    | .ok data => { l with outgoingContext, sent := l.sent ++ [(audioPacket, data)] }
    | .error _ => { l with outgoingContext }
  | (.error _, outgoingContext) => { l with outgoingContext }

def receive (environment : Environment) (datagram : Datagram) (l : AudioLine) : AudioLine :=
  { l with receiver := ((ReceiveStack.receive environment datagram).run.run l.receiver).2 }

def step (senderEnvironment receiverEnvironment : Environment) (l : AudioLine) :
    Event → Option AudioLine
  | .send audioPacket => some (l.send senderEnvironment audioPacket)
  | .deliver index address connectResult =>
    l.sent[index]?.map fun sent =>
      l.receive receiverEnvironment ⟨sent.2, address, connectResult⟩
  | .inject datagram => some (l.receive receiverEnvironment datagram)

def machine (senderEnvironment receiverEnvironment : Environment) (outgoingContext : SrtpStream)
    (interopOptions : List TestingOrLegacyOption) (receiver : ReceiveStack) :
    Machine AudioLine Event where
  init := { outgoingContext, interopOptions, receiver }
  step := step senderEnvironment receiverEnvironment

end

/-- The indices of the datagrams that have arrived, the oldest first. -/
def delivered : History AudioLine Event → List ℕ
  | [] => []
  | (.deliver index _ _, _) :: tr => delivered tr ++ [index]
  | _ :: tr => delivered tr

/-- The packets that have been sent, the oldest first. -/
def sentPackets : History AudioLine Event → List EncodedAudioPacket
  | [] => []
  | (.send audioPacket, _) :: tr => sentPackets tr ++ [audioPacket]
  | _ :: tr => sentPackets tr

/-- The number of the packet that was received last, or 0. -/
def lastNumber (first : ℕ) (tr : History AudioLine Event) : ℕ :=
  match (delivered tr).getLast? with
  | none => 0
  | some index => first + index

section Runs
variable [CryptoTools]

/-- The packets that are sent have consecutive numbers. What is received is one of them, less than
half of the range of a number away from the one before, or what fails the authentication. -/
def Fits (environment : Environment) (receiver : ReceiveStack) (first : ℕ)
    (tr : History AudioLine Event) : Event → Prop
  | .send audioPacket => audioPacket.sequenceNumber = UInt16.ofNat (first + (sentPackets tr).length)
  | .deliver index _ _ => -32768 ≤ (first + index : ℤ) - lastNumber first tr ∧
      (first + index : ℤ) - lastNumber first tr ≤ 32767
  | .inject datagram => WellFormed environment datagram.data ∧
      ¬ receiver.Genuine environment datagram

/-- The bytes on the line, for the packet of this number. -/
def securedData (s : SrtpStream) (audioPacket : EncodedAudioPacket) (number : Int64) : NSData :=
  (s.securedPacket (plainPacket audioPacket) number).layout
    (plainPacket audioPacket).flagsByte []

variable {s t : SrtpStream} {audioPacket : EncodedAudioPacket} {number : Int64}
  {environment : Environment}

/-- No options change the bytes of a packet that has neither padding nor extension header. -/
theorem rawPacketData_securedPacket (s : SrtpStream) (audioPacket : EncodedAudioPacket)
    (number : Int64) (environment : Environment) (interopOptions : List TestingOrLegacyOption) :
    (s.securedPacket (plainPacket audioPacket) number).rawPacketDataUsingInteropOptions environment
      interopOptions = .ok (securedData s audioPacket number) := by
  have hvalid := s.securedPacket_valid (plainPacket_valid audioPacket) number
  have hplain : (s.securedPacket (plainPacket audioPacket) number).hasExtensionHeader = false := rfl
  have hraw : (s.securedPacket (plainPacket audioPacket) number).rawPacketData = none := rfl
  rw [RtpPacket.rawPacketDataUsingInteropOptions, hraw]
  dsimp only
  rw [hvalid.generateSerializedPacketData, hplain, Bool.and_false]
  rfl

/-- The receiver reads the packet from its bytes, with any options. -/
theorem parsed_securedData (s : SrtpStream) (audioPacket : EncodedAudioPacket) (number : Int64)
    (environment : Environment) :
    RtpPacket.rtpPacketParsedFromPacketData environment (securedData s audioPacket number) =
      .ok { s.securedPacket (plainPacket audioPacket) number with
        rawPacketData := some (securedData s audioPacket number) } := by
  have hvalid := s.securedPacket_valid (plainPacket_valid audioPacket) number
  obtain ⟨hversion, hpadding, hextension, hcount⟩ := hvalid.flags
  have hnone : decide ((s.securedPacket (plainPacket audioPacket) number).padding > 0) = false := rfl
  have hplain : (s.securedPacket (plainPacket audioPacket) number).hasExtensionHeader = false := rfl
  rw [hnone] at hpadding
  have hlayout : securedData s audioPacket number =
      (s.securedPacket (plainPacket audioPacket) number).layout
        (s.securedPacket (plainPacket audioPacket) number).flagsByte
        (if false then List.replicate 12 0 else []) := rfl
  have hadjusted : (environment.hasEnabledTestingOrLegacyOption legacyRtpOption &&
      hasBit (s.securedPacket (plainPacket audioPacket) number).flagsByte
        hasPaddingBitIndex) = false := by
    rw [hpadding, Bool.and_false]
  rw [RtpPacket.rtpPacketParsedFromPacketData_layout hvalid (.inl rfl) hlayout hversion hcount
    hadjusted (by rw [hextension, hplain]; rfl) (by rw [hpadding, hnone]; rfl)]
  rfl

/-- Of a packet that was read, the bytes that it was read from are authenticated. -/
theorem run_verifyAuthenticationAndDecrypt_read {p : RtpPacket} {data : NSData}
    (hraw : p.rawPacketDataUsingInteropOptions environment [] = .ok data)
    {q : RtpPacket} (hq : q = { p with rawPacketData := some data }) (t : SrtpStream) :
    (SrtpStream.verifyAuthenticationAndDecryptSecuredRtpPacket environment q).run.run t =
      (SrtpStream.verifyAuthenticationAndDecryptSecuredRtpPacket environment p).run.run t := by
  subst hq
  have hverify : t.verifyAuthentication environment { p with rawPacketData := some data } =
      t.verifyAuthentication environment p := by
    unfold SrtpStream.verifyAuthentication
    rw [hraw]
    rfl
  have hpayload (payload : NSData) :
      ({ p with rawPacketData := some data } : RtpPacket).withPayload payload =
        p.withPayload payload := rfl
  unfold SrtpStream.verifyAuthenticationAndDecryptSecuredRtpPacket
  simp only [Method.run_bind, Method.run_get, hverify, hpayload]

/-- The peer, whose counter finds the number, hands the packet on. -/
theorem handlePacket_securedData (environment : Environment) {socket : SrtpSocket}
    (hlawful : CryptoTools.Lawful) (ht : socket.incomingContext.Valid)
    (hkeys : s.SameKeys socket.incomingContext) {sequenceCounter : SequenceCounter}
    (hnext : socket.incomingContext.sequenceCounter.convertNext audioPacket.sequenceNumber =
      (number, sequenceCounter)) :
    (PacketSocket.srtpSocket socket).handlePacket environment
      { s.securedPacket (plainPacket audioPacket) number with
        rawPacketData := some (securedData s audioPacket number) } =
      (.ok (.handleRtpPacket (plainPacket audioPacket)), .srtpSocket { socket with
        incomingContext := { socket.incomingContext with sequenceCounter } }) := by
  have hread := run_verifyAuthenticationAndDecrypt_read
    (rawPacketData_securedPacket s audioPacket number environment []) rfl socket.incomingContext
  have hrun := SrtpStream.run_verifyAuthenticationAndDecrypt_securedPacket ht hkeys hlawful
    (plainPacket_valid audioPacket) rfl rfl environment hnext
  rw [PacketSocket.handlePacket, PacketSocket.handleSecured, hread, hrun]

/-- Sending takes the next number, and puts the bytes on the line. -/
theorem send_eq (l : AudioLine) (hs : l.outgoingContext.Valid) (environment : Environment)
    {sequenceCounter : SequenceCounter}
    (hnext : l.outgoingContext.sequenceCounter.convertNext audioPacket.sequenceNumber =
      (number, sequenceCounter)) :
    l.send environment audioPacket = { l with
      outgoingContext := { l.outgoingContext with sequenceCounter }
      sent := l.sent ++ [(audioPacket, securedData l.outgoingContext audioPacket number)] } := by
  have hrun : (AudioSocket.send environment audioPacket).run.run l.outgoingContext =
      (.ok (l.outgoingContext.securedPacket (plainPacket audioPacket) number),
        { l.outgoingContext with sequenceCounter }) := by
    rw [AudioSocket.run_send hs.cipherIvSalt, hnext, AudioSocket.sentUnder, if_pos hs.cipherKey]
    rfl
  unfold send
  rw [hrun]
  dsimp only
  rw [rawPacketData_securedPacket]

omit [CryptoTools] in
theorem withinShortRange_ofNat {previous next : ℕ}
    (h : -32768 ≤ (next : ℤ) - previous ∧ (next : ℤ) - previous ≤ 32767) :
    WithinShortRange (Int64.ofNat previous) (Int64.ofNat next) := by
  have hsub : Int64.ofNat next - Int64.ofNat previous = Int64.ofInt ((next : ℤ) - previous) := by
    rw [Int64.ofInt_sub, Int64.ofInt_eq_ofNat, Int64.ofInt_eq_ofNat]
  have hint : (Int64.ofInt ((next : ℤ) - previous)).toInt = (next : ℤ) - previous := by
    apply Int64.toInt_ofInt_of_le <;> omega
  rw [WithinShortRange, hsub]
  constructor
  · apply Int64.le_iff_toInt_le.mpr
    rw [hint]
    exact h.1
  · apply Int64.le_iff_toInt_le.mpr
    rw [hint]
    exact h.2

omit [CryptoTools] in
/-- Any number of the run, from the low bits of it. -/
theorem convertNext_ofNat {counter : SequenceCounter} (hcounter : counter.Valid) {n : ℕ}
    (h : WithinShortRange counter.prevLongId (Int64.ofNat n)) :
    counter.convertNext (UInt16.ofNat n) =
      (Int64.ofNat n, ⟨UInt16.ofNat n, Int64.ofNat n⟩) := by
  have hnext := SequenceCounter.convertNext_of_within hcounter h
  rwa [shortId_ofNat] at hnext

theorem securedData_congr (h : s.SameKeys t) (audioPacket : EncodedAudioPacket) (number : Int64) :
    securedData s audioPacket number = securedData t audioPacket number := by
  obtain ⟨hcipherKey, hmacKey, hsalt⟩ := h
  unfold securedData SrtpStream.securedPacket
  rw [hcipherKey, hmacKey, hsalt]

omit [CryptoTools] in
theorem valid_of_sameKeys (hs : s.Valid) (h : s.SameKeys t) : t.Valid :=
  ⟨h.1 ▸ hs.cipherKey, h.2.2 ▸ hs.cipherIvSalt⟩

/-- What holds after a history of the line, whose sender began with the keys of `context`. -/
structure Linked (context : SrtpStream) (receiver : ReceiveStack) (first : ℕ)
    (tr : History AudioLine Event) (l : AudioLine) : Prop where
  keys : context.SameKeys l.outgoingContext
  counter : l.outgoingContext.sequenceCounter.Valid
  next : WithinShortRange l.outgoingContext.sequenceCounter.prevLongId
    (Int64.ofNat (first + l.sent.length))
  packets : l.sent.map Prod.fst = sentPackets tr
  sent : ∀ i entry, l.sent[i]? = some entry →
    entry.1.sequenceNumber = UInt16.ofNat (first + i) ∧
      entry.2 = securedData context entry.1 (Int64.ofNat (first + i))
  receiving : ∃ socket, l.receiver.packetSocket = .srtpSocket socket ∧
    context.SameKeys socket.incomingContext ∧
    socket.incomingContext.sequenceCounter =
      ⟨UInt16.ofNat (lastNumber first tr), Int64.ofNat (lastNumber first tr)⟩
  invalidated : l.receiver.udpSocket.invalidated = false
  reaches : ∀ datagram, l.receiver.Reaches datagram
  arrived : ∀ i ∈ delivered tr, i < l.sent.length
  handed : AudioSocket.handed l.receiver.handler = AudioSocket.handed receiver.handler ++
    (delivered tr).filterMap fun i => l.sent[i]?.map Prod.fst
  told : ∀ message ∈ l.receiver.handler, message ∈ receiver.handler ∨
    (∃ packet, message = .handleRtpPacket packet) ∨
      ∃ error relatedInfo, message = .handleError error relatedInfo false

variable {context : SrtpStream} {receiver : ReceiveStack} {first : ℕ} {l : AudioLine}
  {tr : History AudioLine Event}

theorem Linked.ready (h : Linked context receiver first tr l) (hcontext : context.Valid) :
    l.receiver.Ready := by
  obtain ⟨socket, hsocket, hkeys, _⟩ := h.receiving
  refine ⟨h.invalidated, ?_⟩
  rw [hsocket]
  exact valid_of_sameKeys hcontext hkeys

theorem Linked.send (h : Linked context receiver first tr l) (hcontext : context.Valid)
    (environment : Environment)
    (hnumber : audioPacket.sequenceNumber = UInt16.ofNat (first + (sentPackets tr).length)) :
    Linked context receiver first ((.send audioPacket, l.send environment audioPacket) :: tr)
      (l.send environment audioPacket) := by
  rw [← h.packets, List.length_map] at hnumber
  have hnext := convertNext_ofNat h.counter h.next
  rw [← hnumber] at hnext
  have hsend := send_eq l (valid_of_sameKeys hcontext h.keys) environment hnext
  have hold : ∀ i < l.sent.length, ∀ entry, (l.sent ++ [entry])[i]? = l.sent[i]? := by
    intro i hi entry
    exact List.getElem?_append_left hi
  rw [hsend]
  refine ⟨h.keys, hnumber.trans (shortId_ofNat _).symm, ?_, ?_, ?_, h.receiving, h.invalidated,
    h.reaches, ?_, ?_, h.told⟩
  · dsimp only
    rw [List.length_append, List.length_singleton]
    apply withinShortRange_ofNat
    omega
  · dsimp only
    rw [List.map_append, h.packets]
    rfl
  · intro i entry hentry
    dsimp only at hentry
    by_cases hi : i < l.sent.length
    · rw [hold i hi] at hentry
      exact h.sent i entry hentry
    · have hlt := (List.getElem?_eq_some_iff.mp hentry).1
      rw [List.length_append, List.length_singleton] at hlt
      obtain rfl : i = l.sent.length := by omega
      rw [List.getElem?_concat_length] at hentry
      obtain rfl := Option.some.inj hentry
      exact ⟨hnumber, (securedData_congr h.keys audioPacket _).symm⟩
  · intro i hi
    dsimp only
    rw [List.length_append, List.length_singleton]
    exact Nat.lt_succ_of_lt (h.arrived i hi)
  · dsimp only
    rw [h.handed]
    congr 1
    apply List.filterMap_congr
    intro i hi
    rw [hold i (h.arrived i hi)]

theorem Linked.deliver (h : Linked context receiver first tr l) (hcontext : context.Valid)
    (hlawful : CryptoTools.Lawful) (environment : Environment) {index : ℕ}
    {entry : EncodedAudioPacket × NSData} (hentry : l.sent[index]? = some entry) (address : NSData)
    (connectResult : ℤ)
    (hwithin : -32768 ≤ (first + index : ℤ) - lastNumber first tr ∧
      (first + index : ℤ) - lastNumber first tr ≤ 32767) :
    let next := l.receive environment ⟨entry.2, address, connectResult⟩
    Linked context receiver first ((.deliver index address connectResult, next) :: tr) next := by
  intro next
  obtain ⟨hnumber, hdata⟩ := h.sent index entry hentry
  obtain ⟨socket, hsocket, hkeys, hcounter⟩ := h.receiving
  have hvalid : socket.incomingContext.sequenceCounter.Valid := by
    rw [hcounter]
    exact (shortId_ofNat _).symm
  have hnext : socket.incomingContext.sequenceCounter.convertNext entry.1.sequenceNumber =
      (Int64.ofNat (first + index),
        ⟨UInt16.ofNat (first + index), Int64.ofNat (first + index)⟩) := by
    rw [hnumber]
    apply convertNext_ofNat hvalid
    rw [hcounter]
    apply withinShortRange_ofNat
    rw [Nat.cast_add]
    exact hwithin
  have hparsed := parsed_securedData context entry.1 (Int64.ofNat (first + index)) environment
  have hhandle := handlePacket_securedData environment hlawful
    (valid_of_sameKeys hcontext hkeys) hkeys hnext
  rw [← hdata] at hparsed hhandle
  obtain ⟨t, hrun, hhandled⟩ := ReceiveStack.receive_handles (h.ready hcontext)
    (h.reaches ⟨entry.2, address, connectResult⟩) hparsed
  obtain ⟨message, hmessage, hhandler⟩ := hhandled.handler
  rw [hsocket, hhandle] at hmessage
  obtain rfl : HandlerMessage.handleRtpPacket (plainPacket entry.1) = message :=
    Except.ok.inj hmessage
  have hreceiver : next = { l with receiver := t } := by
    change ({ l with receiver := _ } : AudioLine) = _
    rw [hrun]
  have hsocket' := hhandled.packetSocket
  rw [hsocket, hhandle] at hsocket'
  have hlast : lastNumber first ((.deliver index address connectResult, next) :: tr) =
      first + index := by
    simp only [lastNumber, delivered, List.getLast?_concat]
  rw [hreceiver]
  refine ⟨h.keys, h.counter, h.next, h.packets, h.sent, ⟨_, hsocket', hkeys, ?_⟩, hhandled.invalidated,
    fun datagram => hhandled.reaches datagram (h.reaches datagram), ?_, ?_, ?_⟩
  · rw [← hreceiver, hlast]
  · intro i hi
    rcases List.mem_append.mp hi with hi | hi
    · exact h.arrived i hi
    · obtain rfl := List.mem_singleton.mp hi
      exact (List.getElem?_eq_some_iff.mp hentry).1
  · dsimp only [delivered]
    rw [hhandler, AudioSocket.handed, List.filterMap_append, ← AudioSocket.handed, h.handed,
      List.filterMap_append, List.append_assoc]
    congr 2
    simp only [List.filterMap_cons, List.filterMap_nil, hentry, Option.map_some]
    rfl
  · intro message hmem
    dsimp only at hmem
    rw [hhandler] at hmem
    rcases List.mem_append.mp hmem with hmem | hmem
    · exact h.told message hmem
    · exact .inr (.inl ⟨_, List.mem_singleton.mp hmem⟩)

theorem Linked.inject (h : Linked context receiver first tr l) (hcontext : context.Valid)
    {environment : Environment} {datagram : Datagram} {socket : SrtpSocket}
    (hsocket : receiver.packetSocket = .srtpSocket socket)
    (hkeys : context.SameKeys socket.incomingContext)
    (hwellFormed : WellFormed environment datagram.data)
    (hrejected : ¬ receiver.Genuine environment datagram) :
    let next := l.receive environment datagram
    Linked context receiver first ((.inject datagram, next) :: tr) next := by
  intro next
  obtain ⟨packet, hpacket⟩ := (RtpPacket.parses_iff_wellFormed _ _).mpr hwellFormed
  obtain ⟨socket', hsocket', hkeys', hcounter⟩ := h.receiving
  have hparsed := RtpPacket.parsedFrom hpacket
  have hsame : socket.incomingContext.SameKeys socket'.incomingContext :=
    ⟨hkeys.1.symm.trans hkeys'.1, hkeys.2.1.symm.trans hkeys'.2.1,
      hkeys.2.2.symm.trans hkeys'.2.2⟩
  have hnot : ¬ l.receiver.packetSocket.Accepts environment packet := by
    intro haccepts
    apply hrejected
    refine ⟨packet, hpacket, ?_⟩
    rw [hsocket'] at haccepts
    rw [hsocket]
    exact (SrtpStream.verifyAuthentication_congr hsame environment packet).symm.trans haccepts
  obtain ⟨error, hhandle⟩ :=
    PacketSocket.handlePacket_of_not_accepts hparsed hwellFormed.1 hnot
  obtain ⟨t, hrun, hhandled⟩ :=
    ReceiveStack.receive_handles (h.ready hcontext) (h.reaches datagram) hpacket
  obtain ⟨message, hmessage, hhandler⟩ := hhandled.handler
  rw [hhandle] at hmessage
  obtain rfl : HandlerMessage.handleError error (some packet) false = message :=
    Except.ok.inj hmessage
  have hreceiver : next = { l with receiver := t } := by
    change ({ l with receiver := _ } : AudioLine) = _
    rw [hrun]
  have hkept := hhandled.packetSocket
  rw [hhandle, hsocket'] at hkept
  rw [hreceiver]
  refine ⟨h.keys, h.counter, h.next, h.packets, h.sent, ⟨socket', hkept, hkeys', hcounter⟩,
    hhandled.invalidated, fun datagram => hhandled.reaches datagram (h.reaches datagram), h.arrived,
    ?_, ?_⟩
  · dsimp only
    rw [hhandler, AudioSocket.handed, List.filterMap_append, ← AudioSocket.handed, h.handed]
    exact List.append_nil _
  · intro message hmem
    dsimp only at hmem
    rw [hhandler] at hmem
    rcases List.mem_append.mp hmem with hmem | hmem
    · exact h.told message hmem
    · exact .inr (.inr ⟨_, _, List.mem_singleton.mp hmem⟩)

variable {senderEnvironment receiverEnvironment : Environment}
  {interopOptions : List TestingOrLegacyOption} {socket : SrtpSocket} {cipherKey macKey salt : NSData}

theorem linked_of_run (hlawful : CryptoTools.Lawful) (hcontext : context.Valid)
    (hcounter : context.sequenceCounter = .sequenceCounter)
    (hsocket : receiver.packetSocket = .srtpSocket socket)
    (hincoming : socket.incomingContext = context)
    (hinvalidated : receiver.udpSocket.invalidated = false)
    (hknown : receiver.udpSocket.isRemoteEndPointKnown = true) (hfirst : first ≤ 32767)
    (h : (machine senderEnvironment receiverEnvironment context interopOptions receiver).Run tr)
    (hfits : Machine.Guarded (Fits receiverEnvironment receiver first) tr) :
    Linked context receiver first tr
      ((machine senderEnvironment receiverEnvironment context interopOptions receiver).last tr) := by
  have hkeys : context.SameKeys socket.incomingContext := hincoming ▸ ⟨rfl, rfl, rfl⟩
  refine h.of_guarded (P := fun tr => Linked context receiver first tr
    ((machine senderEnvironment receiverEnvironment context interopOptions receiver).last tr))
    ?_ ?_ hfits
  · refine ⟨⟨rfl, rfl, rfl⟩, ?_, ?_, rfl, ?_, ⟨socket, hsocket, hkeys, ?_⟩, hinvalidated,
      fun _ => .inl hknown, ?_, ?_, fun _ => .inl⟩
    · change context.sequenceCounter.Valid
      rw [hcounter]
      rfl
    · change WithinShortRange context.sequenceCounter.prevLongId (Int64.ofNat (first + 0))
      rw [hcounter]
      change WithinShortRange (Int64.ofNat 0) (Int64.ofNat (first + 0))
      apply withinShortRange_ofNat
      omega
    · intro i entry hentry
      cases hentry
    · rw [hincoming, hcounter]
      rfl
    · intro i hi
      cases hi
    · exact (List.append_nil _).symm
  · intro tr e l hrun hlinked hstep hfit
    cases e with
    | send audioPacket =>
      obtain rfl := Option.some.inj hstep
      exact hlinked.send hcontext senderEnvironment hfit
    | deliver index address connectResult =>
      obtain ⟨entry, hentry, rfl⟩ := Option.map_eq_some_iff.mp hstep
      exact hlinked.deliver hcontext hlawful receiverEnvironment hentry address connectResult hfit
    | inject datagram =>
      obtain rfl := Option.some.inj hstep
      exact hlinked.inject hcontext hsocket hkeys hfit.1 hfit.2

/-- The audio socket of the peer hands on exactly the packets that arrive, as they were sent and in
the order in which they arrive. What somebody else puts in is only reported, and ends nothing. -/
theorem handed_of_run (hlawful : CryptoTools.Lawful)
    (houtgoing : SrtpStream.srtpStreamWithCipherKey cipherKey macKey salt = .ok context)
    (hcipherKey : cipherKey.length = aes128KeyLength)
    (hsocket : receiver.packetSocket = .srtpSocket socket)
    (hincoming : SrtpStream.srtpStreamWithCipherKey cipherKey macKey salt = .ok socket.incomingContext)
    (hinvalidated : receiver.udpSocket.invalidated = false)
    (hknown : receiver.udpSocket.isRemoteEndPointKnown = true) (hhandler : receiver.handler = [])
    (hfirst : first ≤ 32767)
    (h : (machine senderEnvironment receiverEnvironment context interopOptions receiver).Run tr)
    (hfits : Machine.Guarded (Fits receiverEnvironment receiver first) tr) :
    let l := (machine senderEnvironment receiverEnvironment context interopOptions receiver).last tr
    AudioSocket.handed l.receiver.handler = (delivered tr).filterMap ((sentPackets tr)[·]?) ∧
      (∀ i ∈ delivered tr, i < (sentPackets tr).length) ∧
      l.receiver.udpSocket.invalidated = false ∧
      ∀ message ∈ l.receiver.handler, (∃ packet, message = .handleRtpPacket packet) ∨
        ∃ error relatedInfo, message = .handleError error relatedInfo false := by
  intro l
  have heq : socket.incomingContext = context := by
    rw [houtgoing] at hincoming
    exact (Except.ok.inj hincoming).symm
  obtain ⟨⟨⟩, hsalt, hmade⟩ := Throws.bind_eq_ok.mp houtgoing
  have hfields : (⟨cipherKey, macKey, salt, .sequenceCounter⟩ : SrtpStream) = context :=
    Except.ok.inj hmade
  have hcontext : context.Valid := by
    rw [← hfields]
    exact ⟨hcipherKey, owsRequire_eq_ok.mp hsalt⟩
  have hcounter : context.sequenceCounter = .sequenceCounter := by rw [← hfields]
  have hlinked := linked_of_run hlawful hcontext hcounter hsocket heq hinvalidated hknown hfirst h
    hfits
  refine ⟨?_, ?_, hlinked.invalidated, ?_⟩
  · rw [hlinked.handed, hhandler, ← hlinked.packets]
    simp only [List.getElem?_map]
    rfl
  · rw [← hlinked.packets, List.length_map]
    exact hlinked.arrived
  · intro message hmem
    rcases hlinked.told message hmem with hold | hnew
    · rw [hhandler] at hold
      cases hold
    · exact hnew

end Runs

section Sample

local instance lineCryptoTools : CryptoTools := SrtpStream.sampleCryptoTools

/-- The second packet arrives first, and once more at the end. Between them somebody sends a packet
with another HMAC. -/
def sampleEvents : List Event :=
  [.send ⟨[1, 2], 0x3FFF⟩, .send ⟨[3], 0x4000⟩, .deliver 1 [] 0,
    .inject (sampleDatagram (0x80 :: List.replicate 40 0)), .deliver 0 [] 0, .deliver 1 [] 0]

def sampleMachine : Machine AudioLine Event :=
  machine ⟨[], [], [], []⟩ ⟨[], [], [], []⟩ SrtpStream.sampleStream [] sampleStack

theorem handed_of_sampleEvents : ∃ tr, sampleMachine.exec sampleEvents = some tr ∧
    let l := sampleMachine.last tr
    AudioSocket.handed l.receiver.handler = (delivered tr).filterMap ((sentPackets tr)[·]?) ∧
      (∀ i ∈ delivered tr, i < (sentPackets tr).length) ∧
      l.receiver.udpSocket.invalidated = false ∧
      ∀ message ∈ l.receiver.handler, (∃ packet, message = .handleRtpPacket packet) ∨
        ∃ error relatedInfo, message = .handleError error relatedInfo false := by
  have hwellFormed : WellFormed ⟨[], [], [], []⟩ (0x80 :: List.replicate 40 0) :=
    (RtpPacket.parses_iff_wellFormed _ _).mp ⟨_, rfl⟩
  have hrejected : ¬ sampleStack.Genuine ⟨[], [], [], []⟩
      (sampleDatagram (0x80 :: List.replicate 40 0)) := by
    rintro ⟨packet, hpacket, haccepts⟩
    have hnone : ((RtpPacket.rtpPacketParsedFromPacketData ⟨[], [], [], []⟩
        (0x80 :: List.replicate 40 0)).bind
        (SrtpStream.sampleStream.verifyAuthentication ⟨[], [], [], []⟩)).toOption = none := by
      decide +kernel
    have hpacket' : RtpPacket.rtpPacketParsedFromPacketData ⟨[], [], [], []⟩
        (0x80 :: List.replicate 40 0) = .ok packet := hpacket
    have haccepts' : SrtpStream.sampleStream.verifyAuthentication ⟨[], [], [], []⟩ packet =
        .ok () := haccepts
    rw [hpacket', Except.bind, haccepts'] at hnone
    cases hnone
  have hsome : (sampleMachine.exec sampleEvents).isSome = true := by decide +kernel
  obtain ⟨tr, htr⟩ := Option.isSome_iff_exists.mp hsome
  have hfits : Machine.Guarded (Fits ⟨[], [], [], []⟩ sampleStack 0x3FFF) tr := by
    have hevents := Machine.map_fst_of_exec htr
    simp only [sampleEvents, List.reverse_cons, List.reverse_nil, List.nil_append,
      List.cons_append, List.map_eq_cons_iff, List.map_eq_nil_iff, Prod.exists] at hevents
    obtain ⟨_, _, _, rfl, rfl, _, _, _, rfl, rfl, _, _, _, rfl, rfl, hevents⟩ := hevents
    obtain ⟨_, _, _, rfl, rfl, _, _, _, rfl, rfl, _, _, _, rfl, rfl, rfl⟩ := hevents
    refine ⟨?_, ?_, ⟨hwellFormed, hrejected⟩, ?_, rfl, rfl, trivial⟩
    all_goals simp [Fits, lastNumber, delivered]
  exact ⟨tr, htr, handed_of_run SrtpStream.sampleCryptoTools_lawful
    SrtpStream.sampleStream_constructed rfl rfl SrtpStream.sampleStream_constructed rfl rfl rfl
    (by decide) (Machine.run_of_exec htr) hfits⟩

end Sample
end AudioLine
end SignalIOS.Audio
