import SignalIOS.Audio.AudioLine
import SignalIOS.Audio.Recording
import SignalIOS.Zrtp.HandshakeAgreement
import SignalIOS.Zrtp.ShortAuthenticationString

/-! A call behind its handshake: the words that the parties compare, and what they hear. -/
namespace SignalIOS.Zrtp
open SignalIOS.Lib SignalIOS.Rtp SignalIOS.Srtp SignalIOS.Network
open ShortAuthenticationStringGenerator

def MasterSecret.shortAuthenticationString (masterSecret : MasterSecret) : Throws String :=
  generateFromData masterSecret.shortAuthenticationStringData

section
variable [CryptoTools]

/-- The sizes that AES and the words ask for. -/
theorem MasterSecret.length_keys {dhResult : NSData} {initiatorHello responderHello : HelloPacket}
    {commit : CommitPacket} {dhPart1 dhPart2 : DhPacket} {masterSecret : MasterSecret}
    (h : masterSecretFromDhResult dhResult initiatorHello responderHello commit dhPart1 dhPart2 =
      .ok masterSecret) :
    masterSecret.initiatorSrtpKey.length = srtpKeyLength ∧
      masterSecret.responderSrtpKey.length = srtpKeyLength ∧
      masterSecret.shortAuthenticationStringData.length = sasLength := by
  simp only [masterSecretFromDhResult, masterSecretFromSharedSecret, Throws.bind_eq_ok] at h
  obtain ⟨initiatorKey, hinitiatorKey, responderKey, hresponderKey, _, -, _, -, h⟩ := h
  obtain ⟨_, -, _, -, _, -, _, -, sas, hsas, h⟩ := h
  obtain rfl := Throws.pure_eq_ok.mp h
  exact ⟨length_of_deriveKeyWithLabel hinitiatorKey, length_of_deriveKeyWithLabel hresponderKey,
    length_of_deriveKeyWithLabel hsas⟩

namespace Handshake
variable {made : KeyAgreementParticipant → Prop}

/-- What the sockets are made from that the roles agree on. -/
theorem Agreed.sockets {s : Handshake} {masterSecret : MasterSecret}
    {initiatorSocket responderSocket : SrtpSocket} (h : s.Progress made)
    (hinitiator : s.initiator.zrtpRole.hasHandshakeFinishedSuccessfully = true)
    (hagreed : s.Agreed masterSecret initiatorSocket responderSocket) :
    initiatorSocket.outgoingContext = masterSecret.initiatorContext ∧
      initiatorSocket.incomingContext = masterSecret.responderContext ∧
      masterSecret.initiatorContext.Valid ∧ masterSecret.responderContext.Valid ∧
      masterSecret.shortAuthenticationStringData.length = sasLength := by
  have hi := h.initiator
  cases hrole : s.initiator.zrtpRole with
  | responder role =>
    rw [hrole] at hi
    cases hi.1
  | initiator i =>
    rw [hrole] at hi hinitiator
    have hgot := hagreed.initiator_masterSecret
    have hmadeOf := hagreed.initiator_socket
    rw [hrole] at hgot hmadeOf
    obtain ⟨hello, foreignHello, participant, dh, commit, foreignDH, masterSecret', himade, _⟩ :=
      hi.2.secretMade hinitiator
    have hstored : i.masterSecret = some masterSecret :=
      Except.ok.inj ((ZrtpInitiator.getMasterSecret_eq hinitiator).symm.trans hgot)
    obtain rfl : masterSecret = masterSecret' :=
      Option.some.inj (hstored.symm.trans himade.masterSecret_eq)
    obtain ⟨_, -, hsecret⟩ := himade.masterSecret_made
    obtain ⟨hinitiatorSalt, hresponderSalt⟩ := MasterSecret.length_salts hsecret
    obtain ⟨hinitiatorKey, hresponderKey, hsas⟩ := MasterSecret.length_keys hsecret
    have hsocket := ZrtpInitiator.useKeysToSecureRtpSocket_eq hinitiatorSalt hresponderSalt
      hinitiator hstored
    obtain rfl := Except.ok.inj (hsocket.symm.trans hmadeOf)
    exact ⟨rfl, rfl, ⟨hinitiatorKey, hinitiatorSalt⟩, ⟨hresponderKey, hresponderSalt⟩, hsas⟩

/-- Each socket sends through a new stream. -/
theorem Agreed.outgoing {s : Handshake} {masterSecret : MasterSecret}
    {initiatorSocket responderSocket : SrtpSocket} (h : s.Progress made)
    (hinitiator : s.initiator.zrtpRole.hasHandshakeFinishedSuccessfully = true)
    (hagreed : s.Agreed masterSecret initiatorSocket responderSocket) :
    (initiatorSocket.outgoingContext.Valid ∧
      initiatorSocket.outgoingContext.sequenceCounter = .sequenceCounter) ∧
    responderSocket.outgoingContext.Valid ∧
      responderSocket.outgoingContext.sequenceCounter = .sequenceCounter := by
  obtain ⟨houtgoing, hincoming, hinitiatorValid, hresponderValid, _⟩ :=
    hagreed.sockets h hinitiator
  have hresponder := hagreed.responder_to_initiator.trans hincoming
  rw [houtgoing, hresponder]
  exact ⟨⟨hinitiatorValid, rfl⟩, hresponderValid, rfl⟩

end Handshake
end

/-- The two words that are shown for a secret. -/
theorem MasterSecret.shortAuthenticationString_eq {masterSecret : MasterSecret}
    (h : masterSecret.shortAuthenticationStringData.length = sasLength) :
    ∃ words, masterSecret.shortAuthenticationString = .ok words := by
  unfold shortAuthenticationString
  match masterSecret.shortAuthenticationStringData, h with
  | i :: j :: later, _ => exact ⟨_, generateFromData_cons i j later⟩

end SignalIOS.Zrtp

namespace SignalIOS.Audio
open SignalIOS.Lib SignalIOS.Rtp SignalIOS.Srtp SignalIOS.Network SignalIOS.Zrtp Speex

namespace AudioPacker

theorem sequenceNumber_packetsOf {number : UInt16} {frames : List NSData} {i : ℕ}
    {packet : EncodedAudioPacket} (h : (packetsOf number frames)[i]? = some packet) :
    packet.sequenceNumber = number + UInt16.ofNat i := by
  induction number, frames using packetsOf.induct generalizing i with
  | case1 number first second frames ih =>
    rw [packetsOf] at h
    cases i with
    | zero =>
      obtain rfl := Option.some.inj h
      exact (UInt16.add_zero number).symm
    | succ i =>
      rw [List.getElem?_cons_succ] at h
      rw [ih h, UInt16.ofNat_add, UInt16.add_assoc, UInt16.add_comm 1]
      rfl
  | case2 frames number hshort =>
    have hnone : packetsOf number frames = [] := by
      rw [packetsOf]
      exact hshort
    rw [hnone] at h
    cases h

end AudioPacker

section
variable [CryptoTools]

/-- What is received is one of the packets, less than half of the range of a number away from the
one before, or what fails the authentication. -/
def AudioLine.Arrives (environment : Environment) (receiver : ReceiveStack) (first : ℕ)
    (tr : History AudioLine AudioLine.Event) : AudioLine.Event → Prop
  | .send _ => True
  | event => Fits environment receiver first tr event

/-- The numbers of the packets that are sent are then as the line wants them to be. -/
theorem AudioLine.fits_of_arrives {environment : Environment} {receiver : ReceiveStack} {first : ℕ}
    {packets : List EncodedAudioPacket} (hnumber : ∀ (i : ℕ) packet, packets[i]? = some packet →
      packet.sequenceNumber = UInt16.ofNat (first + i))
    {tr : History AudioLine AudioLine.Event} (hsends : sentPackets tr <+: packets)
    (harrives : Machine.Guarded (Arrives environment receiver first) tr) :
    Machine.Guarded (Fits environment receiver first) tr := by
  induction tr with
  | nil => trivial
  | cons p tr ih =>
    obtain ⟨e, l⟩ := p
    obtain ⟨harrive, harrives⟩ := harrives
    cases e with
    | send audioPacket =>
      refine ⟨hnumber _ _ ?_, ih ((List.prefix_append _ _).trans hsends) harrives⟩
      obtain ⟨later, hlater⟩ := hsends
      rw [← hlater]
      simp [sentPackets]
    | deliver index address connectResult => exact ⟨harrive, ih hsends harrives⟩
    | inject datagram => exact ⟨harrive, ih hsends harrives⟩

/-- One direction of a call: what one party says, until it is handed on at the other party. -/
structure Direction (sender receiver : SrtpSocket) where
  {ε δ : Type}
  processing : SignalProcessing ε δ
  {encodingState : ε}
  {decodingState : δ}
  {decodingBuffer : Vector Int16 (frameSize * maxFrames)}
  codec : SpeexCodec ε δ
  codec_opened :
    SpeexCodec.openSpeex processing encodingState decodingState decodingBuffer = .ok (.ok codec)
  malloced : ℕ → Vector UInt8 bufferSize
  watcher : Option JitterWatcher
  secureRandomUInt16 : UInt16
  recording : History (Recording ε δ) Recording.Event
  recording_run : (Recording.machine processing malloced codec watcher secureRandomUInt16).Run
    recording
  recording_fits : Machine.Guarded (fun _ e => e.Fits) recording
  senderEnvironment : Environment
  receiverEnvironment : Environment
  interopOptions : List TestingOrLegacyOption
  stack : ReceiveStack
  stack_packetSocket : stack.packetSocket = .srtpSocket receiver
  stack_valid : stack.udpSocket.invalidated = false
  stack_known : stack.udpSocket.isRemoteEndPointKnown = true
  stack_handler : stack.handler = []
  line : History AudioLine AudioLine.Event
  line_run : (AudioLine.machine senderEnvironment receiverEnvironment sender.outgoingContext
    interopOptions stack).Run line
  /-- The audio socket is given what the recording gives it, some of it perhaps later. -/
  line_sends : AudioLine.sentPackets line <+:
    ((Recording.machine processing malloced codec watcher secureRandomUInt16).last recording).sent
  line_arrives : Machine.Guarded
    (AudioLine.Arrives receiverEnvironment stack (secureRandomUInt16 &&& 0x3FFF).toNat) line

namespace Direction
variable {sender receiver : SrtpSocket} (d : Direction sender receiver)

def sent : List EncodedAudioPacket :=
  ((Recording.machine d.processing d.malloced d.codec d.watcher d.secureRandomUInt16).last
    d.recording).sent

def received : ReceiveStack :=
  ((AudioLine.machine d.senderEnvironment d.receiverEnvironment sender.outgoingContext
    d.interopOptions d.stack).last d.line).receiver

/-- Every packet that arrives is handed on as it was recorded, and nothing else is. What else arrives
is only reported. -/
def Heard : Prop :=
  AudioSocket.handed d.received.handler = (AudioLine.delivered d.line).filterMap (d.sent[·]?) ∧
    (∀ i ∈ AudioLine.delivered d.line, i < d.sent.length) ∧
    d.received.udpSocket.invalidated = false ∧
    ∀ message ∈ d.received.handler, (∃ packet, message = .handleRtpPacket packet) ∨
      ∃ error relatedInfo, message = .handleError error relatedInfo false

theorem sequenceNumber_of_sent {i : ℕ} {packet : EncodedAudioPacket} (h : d.sent[i]? = some packet) :
    packet.sequenceNumber = UInt16.ofNat ((d.secureRandomUInt16 &&& 0x3FFF).toNat + i) := by
  have hready := (SpeexCodec.ready_of_openSpeex d.codec_opened).1
  have hkept := Recording.kept_of_run hready d.recording_run d.recording_fits
  obtain ⟨_, encoded, _, _, hpacked, _⟩ := hkept.audio
  have hsent : d.sent = AudioPacker.packetsOf (d.secureRandomUInt16 &&& 0x3FFF) encoded :=
    hpacked.finished
  rw [hsent] at h
  rw [AudioPacker.sequenceNumber_packetsOf h, UInt16.ofNat_add, UInt16.ofNat_toNat]

theorem linked (hlawful : CryptoTools.Lawful) (hvalid : sender.outgoingContext.Valid)
    (hcounter : sender.outgoingContext.sequenceCounter = .sequenceCounter)
    (hcontexts : receiver.incomingContext = sender.outgoingContext) :
    AudioLine.Linked sender.outgoingContext d.stack (d.secureRandomUInt16 &&& 0x3FFF).toNat d.line
      ((AudioLine.machine d.senderEnvironment d.receiverEnvironment sender.outgoingContext
        d.interopOptions d.stack).last d.line) := by
  have hfirst : (d.secureRandomUInt16 &&& 0x3FFF).toNat ≤ 32767 := by
    rw [UInt16.toNat_and]
    exact Nat.and_le_right.trans (by decide)
  exact AudioLine.linked_of_run hlawful hvalid hcounter d.stack_packetSocket hcontexts
    d.stack_valid d.stack_known hfirst d.line_run
    (AudioLine.fits_of_arrives (fun _ _ => d.sequenceNumber_of_sent) d.line_sends d.line_arrives)

theorem heard (hlawful : CryptoTools.Lawful) (hvalid : sender.outgoingContext.Valid)
    (hcounter : sender.outgoingContext.sequenceCounter = .sequenceCounter)
    (hcontexts : receiver.incomingContext = sender.outgoingContext) : d.Heard := by
  have hlinked := d.linked hlawful hvalid hcounter hcontexts
  obtain ⟨later, hlater⟩ := d.line_sends
  have hwithin : ∀ i ∈ AudioLine.delivered d.line, i < (AudioLine.sentPackets d.line).length := by
    rw [← hlinked.packets, List.length_map]
    exact hlinked.arrived
  have hsame : ∀ i ∈ AudioLine.delivered d.line,
      (AudioLine.sentPackets d.line)[i]? = d.sent[i]? := by
    intro i hi
    have hsent : d.sent = AudioLine.sentPackets d.line ++ later := hlater.symm
    rw [hsent, List.getElem?_append_left (hwithin i hi)]
  refine ⟨?_, ?_, hlinked.invalidated, ?_⟩
  · have hhanded := hlinked.handed
    rw [d.stack_handler] at hhanded
    refine hhanded.trans ((List.nil_append _).trans (List.filterMap_congr fun i hi => ?_))
    rw [← hsame i hi, ← hlinked.packets, List.getElem?_map]
  · intro i hi
    exact (hwithin i hi).trans_le d.line_sends.length_le
  · intro message hmem
    rcases hlinked.told message hmem with hold | hnew
    · rw [d.stack_handler] at hold
      cases hold
    · exact hnew

theorem Heard.handed_eq {d : Direction sender receiver} (h : d.Heard) (hsent : d.sent.length = 1)
    (harrived : AudioLine.delivered d.line = [0]) :
    AudioSocket.handed d.received.handler = d.sent := by
  obtain ⟨packet, hpacket⟩ := List.length_eq_one_iff.mp hsent
  rw [h.1, harrived, hpacket]
  rfl

/-- Two frames are hummed into one packet, and it arrives. -/
theorem exists_arrived (hlawful : CryptoTools.Lawful) (hvalid : sender.outgoingContext.Valid)
    (hcounter : sender.outgoingContext.sequenceCounter = .sequenceCounter)
    (hcontexts : receiver.incomingContext = sender.outgoingContext) :
    ∃ d : Direction sender receiver, d.sent.length = 1 ∧ AudioLine.delivered d.line = [0] := by
  obtain ⟨opened, hopen, hready, _⟩ := SpeexCodec.openSpeex_spec SpeexCodec.humming 0 0
    (Vector.replicate (frameSize * maxFrames) 0)
  obtain ⟨recording, hrecording, _, hfits, _, _, _, _, hsent⟩ :=
    Recording.exists_sampleTones hready
  obtain ⟨packet, hpacket⟩ := List.length_eq_one_iff.mp hsent
  let environment : Environment := ⟨[], [], [], []⟩
  let stack : ReceiveStack := { sampleStack with packetSocket := .srtpSocket receiver }
  let begun := (AudioLine.machine environment environment sender.outgoingContext [] stack).init
  let spoken : Direction sender receiver :=
    { processing := SpeexCodec.humming
      codec := opened
      codec_opened := hopen
      malloced := fun _ => Vector.replicate bufferSize 0
      watcher := none
      secureRandomUInt16 := 0xFFFF
      recording
      recording_run := hrecording
      recording_fits := hfits
      senderEnvironment := environment
      receiverEnvironment := environment
      interopOptions := []
      stack
      stack_packetSocket := rfl
      stack_valid := rfl
      stack_known := rfl
      stack_handler := rfl
      line := [(.send packet, begun.send environment packet)]
      line_run := ⟨trivial, rfl⟩
      line_sends := ⟨[], hpacket.symm⟩
      line_arrives := ⟨trivial, trivial⟩ }
  have hpackets : (begun.send environment packet).sent.map Prod.fst = [packet] :=
    (spoken.linked hlawful hvalid hcounter hcontexts).packets
  obtain ⟨entry, hentry, _⟩ := List.map_eq_singleton_iff.mp hpackets
  have hstep : AudioLine.step environment environment (begun.send environment packet)
      (.deliver 0 [] 0) =
        some ((begun.send environment packet).receive environment ⟨entry.2, [], 0⟩) := by
    rw [AudioLine.step, hentry]
    rfl
  let first := (0xFFFF &&& 0x3FFF : UInt16).toNat
  have hnear : -32768 ≤ (first + (0 : ℕ) : ℤ) - (0 : ℕ) ∧ (first + (0 : ℕ) : ℤ) - (0 : ℕ) ≤ 32767 := by
    decide
  exact ⟨{ spoken with
    line := (.deliver 0 [] 0, _) :: spoken.line
    line_run := ⟨spoken.line_run, hstep⟩
    line_sends := spoken.line_sends
    line_arrives := ⟨hnear, spoken.line_arrives⟩ }, hsent, rfl⟩

end Direction

/-- When both roles of a handshake have finished, in whatever order packets were lost, repeated and
handled: the parties are shown the same two words, which only a secret with the same first bytes
shows, and each hears from the other what arrives of what was said. -/
theorem call_of_finished {made : KeyAgreementParticipant → Prop} (hagree : KeysAgree made)
    (hlawful : CryptoTools.Lawful) {initiatorEnvironment responderEnvironment : Environment}
    {initiatorRandom responderRandom : SecureRandomData} {initiator : ZrtpInitiator}
    {responder : ZrtpResponder} (hinitiatorRandom : initiatorRandom.dhSharedSecretHashes.Valid)
    (hresponderRandom : responderRandom.dhSharedSecretHashes.Valid)
    (hinitiator :
      ZrtpInitiator.zrtpInitiator initiatorEnvironment initiatorRandom = .ok initiator)
    (hresponder :
      ZrtpResponder.zrtpResponder responderEnvironment responderRandom = .ok responder)
    {tr : History Handshake HandshakeEvent}
    (hrun : (Handshake.machine initiatorEnvironment responderEnvironment initiator responder).Run tr)
    (hmakes : ∀ event ∈ tr.map Prod.fst, event.Makes made) {s : Handshake}
    (hlast :
      (Handshake.machine initiatorEnvironment responderEnvironment initiator responder).last tr = s)
    (hinitiatorFinished : s.initiator.zrtpRole.hasHandshakeFinishedSuccessfully = true)
    (hresponderFinished : s.responder.zrtpRole.hasHandshakeFinishedSuccessfully = true) :
    ∃ masterSecret initiatorSocket responderSocket words,
      s.Agreed masterSecret initiatorSocket responderSocket ∧
      masterSecret.shortAuthenticationString = .ok words ∧
      (∀ other : MasterSecret, minSasBytes ≤ other.shortAuthenticationStringData.length →
        (other.shortAuthenticationString = .ok words ↔
          List.take minSasBytes other.shortAuthenticationStringData =
            List.take minSasBytes masterSecret.shortAuthenticationStringData)) ∧
      (∀ d : Direction initiatorSocket responderSocket, d.Heard) ∧
      ∀ d : Direction responderSocket initiatorSocket, d.Heard := by
  have hprogress :=
    Handshake.run_progress hinitiatorRandom hresponderRandom hinitiator hresponder hrun hmakes
  rw [hlast] at hprogress
  obtain ⟨masterSecret, initiatorSocket, responderSocket, hagreed⟩ :=
    Handshake.agreed_of_progress hagree hprogress hinitiatorFinished hresponderFinished
  obtain ⟨_, _, _, _, hsas⟩ := hagreed.sockets hprogress hinitiatorFinished
  obtain ⟨⟨hvalid, hcounter⟩, hvalid', hcounter'⟩ := hagreed.outgoing hprogress hinitiatorFinished
  obtain ⟨words, hwords⟩ := MasterSecret.shortAuthenticationString_eq hsas
  refine ⟨masterSecret, initiatorSocket, responderSocket, words, hagreed, hwords, ?_, ?_, ?_⟩
  · intro other hother
    rw [← hwords]
    exact ShortAuthenticationStringGenerator.generateFromData_eq_iff hother
      (hsas ▸ (by decide : minSasBytes ≤ sasLength))
  · exact fun d => d.heard hlawful hvalid hcounter hagreed.initiator_to_responder.symm
  · exact fun d => d.heard hlawful hvalid' hcounter' hagreed.responder_to_initiator.symm

end

section Sample

local instance callCryptoTools : CryptoTools := Zrtp.sampleCryptoTools

theorem call_of_finished_sample : ∃ initiator responder tr masterSecret initiatorSocket
    responderSocket words, sampleInitiator = .ok initiator ∧ sampleResponder = .ok responder ∧
    (Zrtp.sampleMachine initiator responder).exec (sampleHandshakeEvents initiator responder) =
      some tr ∧
    ((Zrtp.sampleMachine initiator responder).last tr).Agreed masterSecret initiatorSocket
      responderSocket ∧
    masterSecret.shortAuthenticationString = .ok words ∧
    (∀ other : MasterSecret, minSasBytes ≤ other.shortAuthenticationStringData.length →
      (other.shortAuthenticationString = .ok words ↔
        List.take minSasBytes other.shortAuthenticationStringData =
          List.take minSasBytes masterSecret.shortAuthenticationStringData)) ∧
    (∀ d : Direction initiatorSocket responderSocket, d.Heard) ∧
    (∀ d : Direction responderSocket initiatorSocket, d.Heard) ∧
    (∃ d : Direction initiatorSocket responderSocket, d.sent.length = 1 ∧
      AudioSocket.handed d.received.handler = d.sent) ∧
    ∃ d : Direction responderSocket initiatorSocket, d.sent.length = 1 ∧
      AudioSocket.handed d.received.handler = d.sent := by
  have hvalid (byte : UInt8) : (sampleRandom byte).dhSharedSecretHashes.Valid :=
    ⟨rfl, rfl, rfl, rfl⟩
  have hlawful : CryptoTools.Lawful := by
    refine ⟨fun key data => ?_, fun _ _ _ => rfl⟩
    change (List.take 20 (key ++ data ++ List.replicate 20 0)).length = 20
    rw [List.length_take, List.length_append, List.length_replicate]
    omega
  have hfinished : (sampleInitiator.toOption.bind fun initiator =>
      sampleResponder.toOption.bind fun responder =>
        ((Zrtp.sampleMachine initiator responder).exec
          (sampleHandshakeEvents initiator responder)).map fun tr =>
            let s := (Zrtp.sampleMachine initiator responder).last tr
            s.initiator.zrtpRole.hasHandshakeFinishedSuccessfully &&
              s.responder.zrtpRole.hasHandshakeFinishedSuccessfully) = some true := by
    decide +kernel
  obtain ⟨initiator, hinitiator, h⟩ := Option.bind_eq_some_iff.mp hfinished
  obtain ⟨responder, hresponder, h⟩ := Option.bind_eq_some_iff.mp h
  have hinitiator := Throws.eq_ok_of_toOption hinitiator
  have hresponder := Throws.eq_ok_of_toOption hresponder
  obtain ⟨tr, htr, h⟩ := Option.map_eq_some_iff.mp h
  obtain ⟨hinitiatorFinished, hresponderFinished⟩ := Bool.and_eq_true_iff.mp h
  have hmakes : ∀ event ∈ tr.map Prod.fst, event.Makes Small := by
    rw [Machine.map_fst_of_exec htr]
    intro event hevent
    exact makes_of_mem_sampleEvents _ _ _ event (List.mem_reverse.mp hevent)
  obtain ⟨masterSecret, initiatorSocket, responderSocket, words, hagreed, hwords, hshown, hheard,
    hheard'⟩ := call_of_finished keysAgree_small hlawful (hvalid 1) (hvalid 2) hinitiator hresponder
      (Machine.run_of_exec htr) hmakes rfl hinitiatorFinished hresponderFinished
  have hprogress := Handshake.run_progress (hvalid 1) (hvalid 2) hinitiator hresponder
    (Machine.run_of_exec htr) hmakes
  obtain ⟨⟨hnew, hcounter⟩, hnew', hcounter'⟩ := hagreed.outgoing hprogress hinitiatorFinished
  obtain ⟨d, hsent, harrived⟩ :=
    Direction.exists_arrived hlawful hnew hcounter hagreed.initiator_to_responder.symm
  obtain ⟨d', hsent', harrived'⟩ :=
    Direction.exists_arrived hlawful hnew' hcounter' hagreed.responder_to_initiator.symm
  exact ⟨initiator, responder, tr, masterSecret, initiatorSocket, responderSocket, words, hinitiator,
    hresponder, htr, hagreed, hwords, hshown, hheard, hheard',
    ⟨d, hsent, (hheard d).handed_eq hsent harrived⟩,
    d', hsent', (hheard' d').handed_eq hsent' harrived'⟩

end Sample
end SignalIOS.Audio
