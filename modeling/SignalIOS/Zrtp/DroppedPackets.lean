import SignalIOS.Zrtp.Authentication
import SignalIOS.Zrtp.ZrtpManager

/-! A packet that a role drops, because handling it fails, makes no difference later. -/
namespace SignalIOS.Zrtp
open SignalIOS.Lib SignalIOS.Rtp

/-- `checkOperation` fails nowhere in the computation. -/
def Throws.NeverFails {α : Type} (x : Throws α) : Prop :=
  ∀ description, x ≠ .error (.operationFailed description)

namespace Throws
variable {α β : Type}

theorem neverFails_ok (a : α) : NeverFails (.ok a) := fun _ h => by cases h

theorem neverFails_owsRequire (condition : Prop) [Decidable condition] :
    NeverFails (owsRequire condition) := by
  intro description h
  unfold owsRequire at h
  split at h <;> cases h

theorem NeverFails.bind {x : Throws α} {f : α → Throws β} (hx : NeverFails x)
    (hf : ∀ a, NeverFails (f a)) : NeverFails (x >>= f) := by
  cases x with
  | ok a => exact hf a
  | error e =>
    intro description h
    exact hx description (congrArg Except.error (Except.error.inj h))

end Throws

theorem NSData.take_neverFails (data : NSData) (n : ℕ) : Throws.NeverFails (data.take n) := by
  apply (Throws.neverFails_owsRequire _).bind
  intro _ description h
  unfold NSData.subdataWithRange at h
  split at h <;> cases h

/-- Making a Confirm may raise, but does not fail. -/
theorem ConfirmPacket.confirmPacketWithHashChainH0_neverFails [CryptoTools]
    (hashChainH0 macKey cipherKey iv : NSData) (flags interval : UInt32) (isPart1 : Bool) :
    Throws.NeverFails
      (confirmPacketWithHashChainH0 hashChainH0 flags interval macKey cipherKey iv isPart1) := by
  unfold confirmPacketWithHashChainH0
  apply (Throws.neverFails_owsRequire _).bind
  intro _
  apply (Throws.neverFails_owsRequire _).bind
  intro _
  have hencrypt (data : NSData) :
      Throws.NeverFails (NSData.encryptWithAesInCipherFeedbackMode data cipherKey iv) := by
    apply (Throws.neverFails_owsRequire _).bind
    intro _
    apply (Throws.neverFails_owsRequire _).bind
    intro _
    exact Throws.neverFails_ok _
  apply (hencrypt _).bind
  intro _
  apply (NSData.take_neverFails _ _).bind
  intro _
  apply Throws.NeverFails.bind
  · apply (Throws.neverFails_owsRequire _).bind
    intro _
    exact Throws.neverFails_ok _
  · intro _
    exact Throws.neverFails_ok _

namespace ZrtpInitiator

/-- The second differs from the first at most in what it assigns again, before it reads it, when
it handles the packet that it expects. -/
inductive SameBut (s : ZrtpInitiator) : ZrtpInitiator → Prop
  | expectingHello (hexpecting : s.packetExpectation = .expectingHello)
    (foreignHello : Option HelloPacket) (keyAgreementParticipant : Option KeyAgreementParticipant)
    (callController : List CallControllerMessage) :
    SameBut s { s with foreignHello, keyAgreementParticipant, callController }
  | expectingHelloAck (hexpecting : s.packetExpectation = .expectingHelloAck)
    (localDH : Option DhPacket) (callController : List CallControllerMessage) :
    SameBut s { s with localDH, callController }
  | expectingDH (hexpecting : s.packetExpectation = .expectingDH) (foreignDH : Option DhPacket)
    (callController : List CallControllerMessage) : SameBut s { s with foreignDH, callController }
  | callController (callController : List CallControllerMessage) :
    SameBut s { s with callController }

variable {s t : ZrtpInitiator} {environment : Environment} {newKeys : NewKeys}
  {packet : HandshakePacket}

theorem SameBut.withCallController (h : SameBut s t) (messages : List CallControllerMessage) :
    SameBut { s with callController := s.callController ++ messages }
      { t with callController := t.callController ++ messages } := by
  cases h with
  | expectingHello hexpecting =>
    apply SameBut.expectingHello
    exact hexpecting
  | expectingHelloAck hexpecting =>
    apply SameBut.expectingHelloAck
    exact hexpecting
  | expectingDH hexpecting =>
    apply SameBut.expectingDH
    exact hexpecting
  | callController => exact .callController _

variable [CryptoTools]

theorem handleHello_agrees (hexpecting : s.packetExpectation = .expectingHello)
    (foreignHello : Option HelloPacket) (keyAgreementParticipant : Option KeyAgreementParticipant)
    (callController : List CallControllerMessage) :
    (handleHello environment newKeys packet).Agree (handleHello environment newKeys packet) s
      { s with foreignHello, keyAgreementParticipant, callController } SameBut := by
  unfold handleHello
  apply Method.Agree.lift_bind (.expectingHello hexpecting _ _ _)
  intro hello _
  apply Method.Agree.modify_bind
  apply Method.Agree.modify_bind
  apply Method.Agree.get_bind
  apply Method.Agree.lift_bind (SameBut.expectingHello (by exact hexpecting) _ _ _)
  intro participant _
  apply Method.Agree.modify_bind
  apply Method.Agree.get_bind
  apply Method.Agree.lift_bind (SameBut.callController _)
  intro localHello _
  apply Method.Agree.modify_bind
  apply Method.Agree.modify_bind
  exact Method.Agree.pure (.callController _)

theorem handleHelloAck_agrees (hexpecting : s.packetExpectation = .expectingHelloAck)
    (localDH : Option DhPacket) (callController : List CallControllerMessage) :
    (handleHelloAck newKeys packet).Agree (handleHelloAck newKeys packet) s
      { s with localDH, callController } SameBut := by
  have hbefore : SameBut s { s with localDH, callController } :=
    .expectingHelloAck hexpecting localDH callController
  unfold handleHelloAck
  apply Method.Agree.lift_bind hbefore
  intro _ _
  apply Method.Agree.get_bind
  apply Method.Agree.lift_bind hbefore
  intro _ _
  apply Method.Agree.get_bind
  apply Method.Agree.lift_bind hbefore
  intro participant _
  apply Method.Agree.lift_bind hbefore
  intro newLocalDH _
  apply Method.Agree.modify_bind
  apply Method.Agree.lift_bind (SameBut.callController _)
  intro foreignHello _
  apply Method.Agree.lift_bind (SameBut.callController _)
  intro commitPacket _
  apply Method.Agree.modify_bind
  apply Method.Agree.modify_bind
  exact Method.Agree.pure (.callController _)

theorem handleDH_agrees (hexpecting : s.packetExpectation = .expectingDH)
    (foreignDH : Option DhPacket) (callController : List CallControllerMessage) :
    (handleDH packet).Agree (handleDH packet) s { s with foreignDH, callController } SameBut := by
  unfold handleDH
  apply Method.Agree.lift_bind (.expectingDH hexpecting foreignDH callController)
  intro newForeignDH _
  apply Method.Agree.modify_bind
  apply Method.Agree.get_bind
  apply Method.Agree.lift_bind (SameBut.callController _)
  intro _ _
  apply Method.Agree.lift_bind (SameBut.callController _)
  intro participant _
  apply Method.Agree.lift_bind (SameBut.callController _)
  intro dhResult _
  apply Method.Agree.lift_bind (SameBut.callController _)
  intro localHello _
  apply Method.Agree.lift_bind (SameBut.callController _)
  intro foreignHello _
  apply Method.Agree.lift_bind (SameBut.callController _)
  intro commitPacket _
  apply Method.Agree.lift_bind (SameBut.callController _)
  intro localDH _
  apply Method.Agree.lift_bind (SameBut.callController _)
  intro masterSecret _
  apply Method.Agree.modify_bind
  apply Method.Agree.modify_bind
  exact Method.Agree.pure (.callController _)

theorem handleConfirmOne_agrees (callController : List CallControllerMessage) :
    (handleConfirmOne packet).Agree (handleConfirmOne packet) s { s with callController }
      SameBut := by
  unfold handleConfirmOne
  apply Method.Agree.get_bind
  apply Method.Agree.lift_bind (SameBut.callController _)
  intro masterSecret _
  apply Method.Agree.lift_bind (SameBut.callController _)
  intro confirmPacket _
  apply Method.Agree.lift_bind (SameBut.callController _)
  intro _ _
  apply Method.Agree.modify_bind
  apply Method.Agree.lift_bind (SameBut.callController _)
  intro confirm2Packet _
  exact Method.Agree.pure (.callController _)

omit [CryptoTools] in
theorem handleConfirmAck_agrees (callController : List CallControllerMessage) :
    (handleConfirmAck packet).Agree (handleConfirmAck packet) s { s with callController }
      SameBut := by
  unfold handleConfirmAck
  apply Method.Agree.lift_bind (SameBut.callController _)
  intro _ _
  apply Method.Agree.modify_bind
  exact Method.Agree.pure (.callController _)

/-- Whatever arrives, both handle it in the same way. -/
theorem handleExpected_agrees (h : SameBut s t) :
    (handleExpected environment newKeys packet).Agree (handleExpected environment newKeys packet)
      s t SameBut := by
  unfold handleExpected
  apply Method.Agree.get_bind
  cases h with
  | expectingHello hexpecting foreignHello keyAgreementParticipant callController =>
    simpa only [hexpecting] using handleHello_agrees hexpecting _ _ _
  | expectingHelloAck hexpecting localDH callController =>
    simpa only [hexpecting] using handleHelloAck_agrees hexpecting _ _
  | expectingDH hexpecting foreignDH callController =>
    simpa only [hexpecting] using handleDH_agrees hexpecting _ _
  | callController callController =>
    have hnone : Method.Agree (pure none) (pure none : RoleMethod _ (Option HandshakePacket)) s
        { s with callController } SameBut := Method.Agree.pure (SameBut.callController callController)
    cases hexpecting : s.packetExpectation with
    | expectingHello =>
      simpa only [hexpecting] using handleHello_agrees hexpecting s.foreignHello
        s.keyAgreementParticipant callController
    | expectingHelloAck =>
      simpa only [hexpecting] using handleHelloAck_agrees hexpecting s.localDH callController
    | expectingDH =>
      simpa only [hexpecting] using handleDH_agrees hexpecting s.foreignDH callController
    | expectingConfirm =>
      simpa only [hexpecting] using handleConfirmOne_agrees (s := s) callController
    | expectingConfirmAck =>
      simpa only [hexpecting] using handleConfirmAck_agrees (s := s) callController
    | expectingNothing =>
      simpa only [hexpecting] using hnone
    | expectingCommit =>
      simpa only [hexpecting] using hnone

theorem handlePacket_agrees (h : SameBut s t) :
    (handlePacket environment newKeys packet).Agree (handlePacket environment newKeys packet)
      s t SameBut := by
  unfold handlePacket
  apply Method.Agree.tryCatch (handleExpected_agrees h)
  intro exception s t h
  cases exception with
  | securityFailure => exact Method.Agree.modify_bind (Method.Agree.pure (h.withCallController _))
  | operationFailed description => exact Method.Agree.pure h
  | badArgument => exact ⟨rfl, h⟩
  | badState => exact ⟨rfl, h⟩
  | nsRangeException => exact ⟨rfl, h⟩

/-- The exception, and what is left, if handling a packet fails in `s`. -/
def LeavesSameBut (s : ZrtpInitiator) (exception : Exception) (t : ZrtpInitiator) : Prop :=
  (∃ description, exception = .operationFailed description) → SameBut s t

theorem handleHello_failing (hexpecting : s.packetExpectation = .expectingHello) :
    (handleHello environment newKeys packet).Ensures s (fun _ _ => True) (LeavesSameBut s) := by
  unfold handleHello
  apply Method.Ensures.lift_bind (fun _ _ _ => .callController _)
  intro hello _
  apply Method.Ensures.modify_bind
  apply Method.Ensures.modify_bind
  apply Method.Ensures.get_bind
  apply Method.Ensures.lift_bind (fun _ _ _ => .expectingHello hexpecting _ _ _)
  intro participant _
  apply Method.Ensures.modify_bind
  apply Method.Ensures.get_bind
  apply Method.Ensures.lift_bind (fun _ _ _ => .expectingHello hexpecting _ _ _)
  intro localHello _
  trivial

theorem handleHelloAck_failing (hexpecting : s.packetExpectation = .expectingHelloAck) :
    (handleHelloAck newKeys packet).Ensures s (fun _ _ => True) (LeavesSameBut s) := by
  unfold handleHelloAck
  apply Method.Ensures.lift_bind (fun _ _ _ => .callController _)
  intro _ _
  apply Method.Ensures.get_bind
  apply Method.Ensures.lift_bind (fun _ _ _ => .callController _)
  intro _ _
  apply Method.Ensures.get_bind
  apply Method.Ensures.lift_bind (fun _ _ _ => .callController _)
  intro participant _
  apply Method.Ensures.lift_bind (fun _ _ _ => .callController _)
  intro localDH _
  apply Method.Ensures.modify_bind
  apply Method.Ensures.lift_bind (fun _ _ _ => .expectingHelloAck hexpecting _ _)
  intro foreignHello _
  apply Method.Ensures.lift_bind (fun _ _ _ => .expectingHelloAck hexpecting _ _)
  intro commitPacket _
  trivial

theorem handleDH_failing (hexpecting : s.packetExpectation = .expectingDH) :
    (handleDH packet).Ensures s (fun _ _ => True) (LeavesSameBut s) := by
  unfold handleDH
  apply Method.Ensures.lift_bind (fun _ _ _ => .callController _)
  intro foreignDH _
  apply Method.Ensures.modify_bind
  apply Method.Ensures.get_bind
  have hassigned (exception : Exception) :
      LeavesSameBut s exception { s with foreignDH := some foreignDH } :=
    fun _ => .expectingDH hexpecting _ _
  apply Method.Ensures.lift_bind (fun _ _ => hassigned _)
  intro _ _
  apply Method.Ensures.lift_bind (fun _ _ => hassigned _)
  intro participant _
  apply Method.Ensures.lift_bind (fun _ _ => hassigned _)
  intro dhResult _
  apply Method.Ensures.lift_bind (fun _ _ => hassigned _)
  intro localHello _
  apply Method.Ensures.lift_bind (fun _ _ => hassigned _)
  intro foreignHello _
  apply Method.Ensures.lift_bind (fun _ _ => hassigned _)
  intro commitPacket _
  apply Method.Ensures.lift_bind (fun _ _ => hassigned _)
  intro localDH _
  apply Method.Ensures.lift_bind (fun _ _ => hassigned _)
  intro masterSecret _
  trivial

/-- What is raised once the Confirm has been accepted is no failure. -/
theorem handleConfirmOne_failing :
    (handleConfirmOne packet).Ensures s (fun _ _ => True) (LeavesSameBut s) := by
  unfold handleConfirmOne
  apply Method.Ensures.get_bind
  apply Method.Ensures.lift_bind (fun _ _ _ => .callController _)
  intro masterSecret _
  apply Method.Ensures.lift_bind (fun _ _ _ => .callController _)
  intro confirmPacket _
  apply Method.Ensures.lift_bind (fun _ _ _ => .callController _)
  intro _ _
  apply Method.Ensures.modify_bind
  apply Method.Ensures.lift_bind
  · rintro _ hraised ⟨description, rfl⟩
    exact absurd hraised (ConfirmPacket.confirmPacketWithHashChainH0_neverFails _ _ _ _ _ _ _ _)
  · intro confirm2Packet _
    trivial

/-- If handling the packet fails, all that it has assigned is assigned again before it is read. -/
theorem handleExpected_failing :
    (handleExpected environment newKeys packet).Ensures s (fun _ _ => True) (LeavesSameBut s) := by
  unfold handleExpected
  apply Method.Ensures.get_bind
  cases hexpecting : s.packetExpectation with
  | expectingHello => exact handleHello_failing hexpecting
  | expectingHelloAck => exact handleHelloAck_failing hexpecting
  | expectingDH => exact handleDH_failing hexpecting
  | expectingConfirm => exact handleConfirmOne_failing
  | expectingConfirmAck =>
    apply Method.Ensures.lift_bind (fun _ _ _ => .callController _)
    intro _ _
    trivial
  | expectingNothing => trivial
  | expectingCommit => trivial

theorem handlePacket_of_failed {description : Option String}
    (h : (handleExpected environment newKeys packet).run.run s =
      (.error (.operationFailed description), t)) :
    (handlePacket environment newKeys packet).run.run s = (.ok none, t) ∧ SameBut s t := by
  constructor
  · unfold handlePacket
    rw [Method.run_tryCatch, h]
    rfl
  · have hleaves : (handleExpected environment newKeys packet).Ensures s (fun _ _ => True)
      (LeavesSameBut s) := handleExpected_failing
    exact hleaves.of_run_error h ⟨description, rfl⟩

end ZrtpInitiator
namespace ZrtpResponder

/-- As for the initiator. -/
inductive SameBut (s : ZrtpResponder) : ZrtpResponder → Prop
  | expectingCommit (hexpecting : s.packetExpectation = .expectingCommit)
    (foreignCommit : Option CommitPacket) (keyAgreementParticipant : Option KeyAgreementParticipant)
    (callController : List CallControllerMessage) :
    SameBut s { s with foreignCommit, keyAgreementParticipant, callController }
  | expectingDH (hexpecting : s.packetExpectation = .expectingDH) (foreignDH : Option DhPacket)
    (callController : List CallControllerMessage) : SameBut s { s with foreignDH, callController }
  | callController (callController : List CallControllerMessage) :
    SameBut s { s with callController }

variable {s t : ZrtpResponder} {environment : Environment} {newKeys : NewKeys}
  {packet : HandshakePacket}

theorem SameBut.withCallController (h : SameBut s t) (messages : List CallControllerMessage) :
    SameBut { s with callController := s.callController ++ messages }
      { t with callController := t.callController ++ messages } := by
  cases h with
  | expectingCommit hexpecting =>
    apply SameBut.expectingCommit
    exact hexpecting
  | expectingDH hexpecting =>
    apply SameBut.expectingDH
    exact hexpecting
  | callController => exact .callController _

theorem handleHello_agrees (callController : List CallControllerMessage) :
    (handleHello packet).Agree (handleHello packet) s { s with callController } SameBut := by
  unfold handleHello
  apply Method.Agree.lift_bind (SameBut.callController _)
  intro foreignHello _
  apply Method.Agree.modify_bind
  apply Method.Agree.modify_bind
  apply Method.Agree.lift_bind (SameBut.callController _)
  intro helloAck _
  exact Method.Agree.pure (.callController _)

variable [CryptoTools]

theorem handleCommit_agrees (hexpecting : s.packetExpectation = .expectingCommit)
    (foreignCommit : Option CommitPacket) (keyAgreementParticipant : Option KeyAgreementParticipant)
    (callController : List CallControllerMessage) :
    (handleCommit newKeys packet).Agree (handleCommit newKeys packet) s
      { s with foreignCommit, keyAgreementParticipant, callController } SameBut := by
  have hbefore : SameBut s { s with foreignCommit, keyAgreementParticipant, callController } :=
    .expectingCommit hexpecting _ _ _
  unfold handleCommit
  apply Method.Agree.lift_bind hbefore
  intro cp _
  apply Method.Agree.get_bind
  apply Method.Agree.lift_bind hbefore
  intro _ _
  apply Method.Agree.modify_bind
  apply Method.Agree.get_bind
  apply Method.Agree.lift_bind (SameBut.expectingCommit (by exact hexpecting) _ _ _)
  intro participant _
  apply Method.Agree.modify_bind
  apply Method.Agree.get_bind
  apply Method.Agree.lift_bind (SameBut.callController _)
  intro localDH _
  apply Method.Agree.modify_bind
  apply Method.Agree.modify_bind
  exact Method.Agree.pure (.callController _)

theorem handleDH_agrees (hexpecting : s.packetExpectation = .expectingDH)
    (foreignDH : Option DhPacket) (callController : List CallControllerMessage) :
    (handleDH packet).Agree (handleDH packet) s { s with foreignDH, callController } SameBut := by
  unfold handleDH
  apply Method.Agree.lift_bind (.expectingDH hexpecting foreignDH callController)
  intro newForeignDH _
  apply Method.Agree.modify_bind
  apply Method.Agree.get_bind
  apply Method.Agree.lift_bind (SameBut.callController _)
  intro _ _
  apply Method.Agree.lift_bind (SameBut.callController _)
  intro _ _
  apply Method.Agree.lift_bind (SameBut.callController _)
  intro participant _
  apply Method.Agree.lift_bind (SameBut.callController _)
  intro dhResult _
  apply Method.Agree.lift_bind (SameBut.callController _)
  intro foreignHello _
  apply Method.Agree.lift_bind (SameBut.callController _)
  intro foreignCommit _
  apply Method.Agree.lift_bind (SameBut.callController _)
  intro localDH _
  apply Method.Agree.lift_bind (SameBut.callController _)
  intro masterSecret _
  apply Method.Agree.modify_bind
  apply Method.Agree.modify_bind
  apply Method.Agree.lift_bind (SameBut.callController _)
  intro confirm1Packet _
  exact Method.Agree.pure (.callController _)

theorem handleConfirmTwo_agrees (callController : List CallControllerMessage) :
    (handleConfirmTwo environment packet).Agree (handleConfirmTwo environment packet) s
      { s with callController } SameBut := by
  unfold handleConfirmTwo
  apply Method.Agree.get_bind
  apply Method.Agree.lift_bind (SameBut.callController _)
  intro masterSecret _
  apply Method.Agree.lift_bind (SameBut.callController _)
  intro confirmPacket _
  apply Method.Agree.lift_bind (SameBut.callController _)
  intro _ _
  apply Method.Agree.modify_bind
  apply Method.Agree.lift_bind (SameBut.callController _)
  intro confirmAck _
  exact Method.Agree.pure (.callController _)

theorem handleExpected_agrees (h : SameBut s t) :
    (handleExpected environment newKeys packet).Agree (handleExpected environment newKeys packet)
      s t SameBut := by
  unfold handleExpected
  apply Method.Agree.get_bind
  cases h with
  | expectingCommit hexpecting foreignCommit keyAgreementParticipant callController =>
    simpa only [hexpecting] using handleCommit_agrees hexpecting _ _ _
  | expectingDH hexpecting foreignDH callController =>
    simpa only [hexpecting] using handleDH_agrees hexpecting _ _
  | callController callController =>
    have hnone : Method.Agree (pure none) (pure none : RoleMethod _ (Option HandshakePacket)) s
        { s with callController } SameBut := Method.Agree.pure (SameBut.callController _)
    cases hexpecting : s.packetExpectation with
    | expectingHello => simpa only [hexpecting] using handleHello_agrees (s := s) callController
    | expectingCommit =>
      simpa only [hexpecting] using handleCommit_agrees hexpecting s.foreignCommit
        s.keyAgreementParticipant callController
    | expectingDH =>
      simpa only [hexpecting] using handleDH_agrees hexpecting s.foreignDH callController
    | expectingConfirm =>
      simpa only [hexpecting] using handleConfirmTwo_agrees (s := s) callController
    | expectingHelloAck => simpa only [hexpecting] using hnone
    | expectingConfirmAck => simpa only [hexpecting] using hnone
    | expectingNothing => simpa only [hexpecting] using hnone

theorem handlePacket_agrees (h : SameBut s t) :
    (handlePacket environment newKeys packet).Agree (handlePacket environment newKeys packet)
      s t SameBut := by
  unfold handlePacket
  apply Method.Agree.tryCatch (handleExpected_agrees h)
  intro exception s t h
  cases exception with
  | securityFailure => exact Method.Agree.modify_bind (Method.Agree.pure (h.withCallController _))
  | operationFailed description => exact Method.Agree.pure h
  | badArgument => exact ⟨rfl, h⟩
  | badState => exact ⟨rfl, h⟩
  | nsRangeException => exact ⟨rfl, h⟩

/-- As for the initiator. -/
def LeavesSameBut (s : ZrtpResponder) (exception : Exception) (t : ZrtpResponder) : Prop :=
  (∃ description, exception = .operationFailed description) → SameBut s t

omit [CryptoTools] in
theorem handleHello_failing :
    (handleHello packet).Ensures s (fun _ _ => True) (LeavesSameBut s) := by
  unfold handleHello
  apply Method.Ensures.lift_bind (fun _ _ _ => .callController _)
  intro foreignHello _
  trivial

theorem handleCommit_failing (hexpecting : s.packetExpectation = .expectingCommit) :
    (handleCommit newKeys packet).Ensures s (fun _ _ => True) (LeavesSameBut s) := by
  unfold handleCommit
  apply Method.Ensures.lift_bind (fun _ _ _ => .callController _)
  intro cp _
  apply Method.Ensures.get_bind
  apply Method.Ensures.lift_bind (fun _ _ _ => .callController _)
  intro _ _
  apply Method.Ensures.modify_bind
  apply Method.Ensures.get_bind
  apply Method.Ensures.lift_bind (fun _ _ _ => .expectingCommit hexpecting _ _ _)
  intro participant _
  apply Method.Ensures.modify_bind
  apply Method.Ensures.get_bind
  apply Method.Ensures.lift_bind (fun _ _ _ => .expectingCommit hexpecting _ _ _)
  intro localDH _
  trivial

/-- What is raised once there is a master secret is no failure. -/
theorem handleDH_failing (hexpecting : s.packetExpectation = .expectingDH) :
    (handleDH packet).Ensures s (fun _ _ => True) (LeavesSameBut s) := by
  unfold handleDH
  apply Method.Ensures.lift_bind (fun _ _ _ => .callController _)
  intro foreignDH _
  apply Method.Ensures.modify_bind
  apply Method.Ensures.get_bind
  have hassigned (exception : Exception) :
      LeavesSameBut s exception { s with foreignDH := some foreignDH } :=
    fun _ => .expectingDH hexpecting _ _
  apply Method.Ensures.lift_bind (fun _ _ => hassigned _)
  intro _ _
  apply Method.Ensures.lift_bind (fun _ _ => hassigned _)
  intro _ _
  apply Method.Ensures.lift_bind (fun _ _ => hassigned _)
  intro participant _
  apply Method.Ensures.lift_bind (fun _ _ => hassigned _)
  intro dhResult _
  apply Method.Ensures.lift_bind (fun _ _ => hassigned _)
  intro foreignHello _
  apply Method.Ensures.lift_bind (fun _ _ => hassigned _)
  intro foreignCommit _
  apply Method.Ensures.lift_bind (fun _ _ => hassigned _)
  intro localDH _
  apply Method.Ensures.lift_bind (fun _ _ => hassigned _)
  intro masterSecret _
  apply Method.Ensures.modify_bind
  apply Method.Ensures.modify_bind
  apply Method.Ensures.lift_bind
  · rintro _ hraised ⟨description, rfl⟩
    exact absurd hraised (ConfirmPacket.confirmPacketWithHashChainH0_neverFails _ _ _ _ _ _ _ _)
  · intro confirm1Packet _
    trivial

theorem handleConfirmTwo_failing :
    (handleConfirmTwo environment packet).Ensures s (fun _ _ => True) (LeavesSameBut s) := by
  unfold handleConfirmTwo
  apply Method.Ensures.get_bind
  apply Method.Ensures.lift_bind (fun _ _ _ => .callController _)
  intro masterSecret _
  apply Method.Ensures.lift_bind (fun _ _ _ => .callController _)
  intro confirmPacket _
  apply Method.Ensures.lift_bind (fun _ _ _ => .callController _)
  intro _ _
  trivial

theorem handleExpected_failing :
    (handleExpected environment newKeys packet).Ensures s (fun _ _ => True) (LeavesSameBut s) := by
  unfold handleExpected
  apply Method.Ensures.get_bind
  cases hexpecting : s.packetExpectation with
  | expectingHello => exact handleHello_failing
  | expectingCommit => exact handleCommit_failing hexpecting
  | expectingDH => exact handleDH_failing hexpecting
  | expectingConfirm => exact handleConfirmTwo_failing
  | expectingHelloAck => trivial
  | expectingConfirmAck => trivial
  | expectingNothing => trivial

theorem handlePacket_of_failed {description : Option String}
    (h : (handleExpected environment newKeys packet).run.run s =
      (.error (.operationFailed description), t)) :
    (handlePacket environment newKeys packet).run.run s = (.ok none, t) ∧ SameBut s t := by
  constructor
  · unfold handlePacket
    rw [Method.run_tryCatch, h]
    rfl
  · have hleaves : (handleExpected environment newKeys packet).Ensures s (fun _ _ => True)
      (LeavesSameBut s) := handleExpected_failing
    exact hleaves.of_run_error h ⟨description, rfl⟩

end ZrtpResponder

namespace ZrtpRole

section
variable [CryptoTools]

/-- What a role does for what it expects, before `handlePacket` catches anything. -/
def handleExpected (environment : Environment) (newKeys : NewKeys) (packet : HandshakePacket) :
    ZrtpRole → Except Exception (Option HandshakePacket) × ZrtpRole
  | initiator role =>
    ((ZrtpInitiator.handleExpected environment newKeys packet).run.run role).map id initiator
  | responder role =>
    ((ZrtpResponder.handleExpected environment newKeys packet).run.run role).map id responder

/-- What `ZrtpManager` gets from a role, for something that arrives. -/
inductive Observation
  | handlePacket (response : Except Exception (Option HandshakePacket))
  | isAuthenticatedAudioDataImplyingConf2Ack (result : Throws Bool)

def observation (environment : Environment) (role : ZrtpRole) : Arrival → Observation
  | .handshakePacket newKeys packet =>
    .handlePacket (role.handlePacket environment newKeys packet).1
  | .error _ relatedInfo => .isAuthenticatedAudioDataImplyingConf2Ack
    (role.isAuthenticatedAudioDataImplyingConf2Ack environment relatedInfo)

/-- The role after something has arrived. -/
def afterArrival (environment : Environment) (role : ZrtpRole) : Arrival → ZrtpRole
  | .handshakePacket newKeys packet => (role.handlePacket environment newKeys packet).2
  | .error newKeys relatedInfo => role.handleError environment newKeys relatedInfo

/-- All that can be observed while something arrives, and at the end of it. -/
def observations (environment : Environment) :
    List Arrival → ZrtpRole → List Observation × Bool × Throws (Option MasterSecret)
  | [], role => ([], role.hasHandshakeFinishedSuccessfully, role.getMasterSecret)
  | arrival :: arrivals, role =>
    let later := observations environment arrivals (role.afterArrival environment arrival)
    (role.observation environment arrival :: later.1, later.2)

inductive SameBut : ZrtpRole → ZrtpRole → Prop
  | initiator {s t : ZrtpInitiator} (h : s.SameBut t) : SameBut (.initiator s) (.initiator t)
  | responder {s t : ZrtpResponder} (h : s.SameBut t) : SameBut (.responder s) (.responder t)

namespace SameBut
variable {environment : Environment} {role other : ZrtpRole}

theorem handlePacket (h : SameBut role other) (newKeys : NewKeys) (packet : HandshakePacket) :
    (role.handlePacket environment newKeys packet).1 =
        (other.handlePacket environment newKeys packet).1 ∧
      SameBut (role.handlePacket environment newKeys packet).2
        (other.handlePacket environment newKeys packet).2 := by
  cases h with
  | initiator h =>
    obtain ⟨hresponse, hleft⟩ := @ZrtpInitiator.handlePacket_agrees _ _ environment _ _ _ h
    exact ⟨hresponse, .initiator hleft⟩
  | responder h =>
    obtain ⟨hresponse, hleft⟩ := ZrtpResponder.handlePacket_agrees h
    exact ⟨hresponse, .responder hleft⟩

/-- The master secret is the same whenever a packet of audio is checked. -/
theorem isAuthenticatedAudioDataImplyingConf2Ack (h : SameBut role other)
    (relatedInfo : Option RtpPacket) :
    role.isAuthenticatedAudioDataImplyingConf2Ack environment relatedInfo =
      other.isAuthenticatedAudioDataImplyingConf2Ack environment relatedInfo := by
  cases h with
  | initiator h =>
    cases h with
    | expectingHello hexpecting => rfl
    | expectingHelloAck hexpecting => rfl
    | expectingDH hexpecting => rfl
    | callController => rfl
  | responder h => rfl

theorem handleError (h : SameBut role other) (newKeys : NewKeys) (relatedInfo : Option RtpPacket) :
    SameBut (role.handleError environment newKeys relatedInfo)
      (other.handleError environment newKeys relatedInfo) := by
  unfold ZrtpRole.handleError
  rw [h.isAuthenticatedAudioDataImplyingConf2Ack]
  split
  · exact (h.handlePacket _ _).2
  · exact h

theorem observation (h : SameBut role other) (arrival : Arrival) :
    role.observation environment arrival = other.observation environment arrival := by
  cases arrival with
  | handshakePacket newKeys packet =>
    exact congrArg Observation.handlePacket (h.handlePacket newKeys packet).1
  | error newKeys relatedInfo =>
    exact congrArg Observation.isAuthenticatedAudioDataImplyingConf2Ack
      (h.isAuthenticatedAudioDataImplyingConf2Ack relatedInfo)

theorem afterArrival (h : SameBut role other) (arrival : Arrival) :
    SameBut (role.afterArrival environment arrival) (other.afterArrival environment arrival) := by
  cases arrival with
  | handshakePacket newKeys packet => exact (h.handlePacket newKeys packet).2
  | error newKeys relatedInfo => exact h.handleError newKeys relatedInfo

omit [CryptoTools] in
theorem outcome (h : SameBut role other) :
    role.hasHandshakeFinishedSuccessfully = other.hasHandshakeFinishedSuccessfully ∧
      role.getMasterSecret = other.getMasterSecret := by
  cases h with
  | initiator h => cases h <;> exact ⟨rfl, rfl⟩
  | responder h => cases h <;> exact ⟨rfl, rfl⟩

/-- Over any number of arrivals. -/
theorem observations (h : SameBut role other) (arrivals : List Arrival) :
    observations environment arrivals role = observations environment arrivals other := by
  induction arrivals generalizing role other with
  | nil =>
    obtain ⟨hfinished, hmasterSecret⟩ := h.outcome
    simp only [ZrtpRole.observations, hfinished, hmasterSecret]
  | cons arrival arrivals ih =>
    simp only [ZrtpRole.observations, h.observation arrival, ih (h.afterArrival arrival)]

end SameBut

theorem handleExpected_failing (environment : Environment) {role left : ZrtpRole}
    {newKeys : NewKeys} {packet : HandshakePacket} {description : Option String}
    (h : role.handleExpected environment newKeys packet =
      (.error (.operationFailed description), left)) :
    role.handlePacket environment newKeys packet = (.ok none, left) ∧ SameBut role left := by
  cases role with
  | initiator s =>
    obtain ⟨hresult, rfl⟩ := Prod.mk.inj h
    obtain ⟨hdropped, hleft⟩ := ZrtpInitiator.handlePacket_of_failed (Prod.ext hresult rfl)
    exact ⟨congrArg (Prod.map id initiator) hdropped, .initiator hleft⟩
  | responder s =>
    obtain ⟨hresult, rfl⟩ := Prod.mk.inj h
    obtain ⟨hdropped, hleft⟩ := ZrtpResponder.handlePacket_of_failed (Prod.ext hresult rfl)
    exact ⟨congrArg (Prod.map id responder) hdropped, .responder hleft⟩

/-- A role that drops a packet, because handling it fails, does not answer it, and goes on as
though it had not come. -/
theorem observations_of_dropped (environment : Environment) {role left : ZrtpRole}
    {newKeys : NewKeys} {packet : HandshakePacket} {description : Option String}
    (h : role.handleExpected environment newKeys packet =
      (.error (.operationFailed description), left)) :
    (role.handlePacket environment newKeys packet).1 = .ok none ∧
      ∀ arrivals : List Arrival,
        observations environment arrivals (role.handlePacket environment newKeys packet).2 =
          observations environment arrivals role := by
  obtain ⟨hdropped, hleft⟩ := handleExpected_failing environment h
  rw [hdropped]
  exact ⟨rfl, fun arrivals => (hleft.observations arrivals).symm⟩

end

section Sample

local instance droppedCryptoTools : CryptoTools := sampleCryptoTools

/-- The Hello of a responder, whose hash chain ends with ones. -/
def sampleForeignHello : HelloPacket where
  versionId := []
  clientId := []
  hashChainH3 := List.replicate hashChainItemLength 1
  zid := Zid.nullZid
  flags0SMP := 0
  flagsUnusedLow4 := 0
  flagsUnusedHigh4 := 0
  hashIds := []
  cipherIds := []
  authIds := []
  agreeIds := []
  sasIds := []
  embeddedIntoHandshakePacket := ⟨handshakeTypeHello, List.replicate specIdsOffset 0⟩

/-- An initiator that waits for a DHPart1. -/
def sampleInitiator : ZrtpInitiator where
  dhSharedSecretHashes := ⟨[], [], [], []⟩
  hashChain := ⟨[], [], [], []⟩
  allowedKeyAgreementProtocols := [⟨commitDefaultAgreeSpecId⟩]
  confirmIv := []
  packetExpectation := .expectingDH
  zid := Zid.nullZid
  foreignHello := some sampleForeignHello

/-- A DHPart1 of somebody else. -/
def sampleForeignDh : HandshakePacket := ⟨handshakeTypeDh1, List.replicate minDhPktLength 0⟩

/-- The packet is stored before its hash is found not to be in the chain of the Hello. -/
theorem observations_of_foreignDh :
    (∃ foreignDH, (initiator sampleInitiator).handlePacket sampleEnvironment
      (fun _ => .error .securityFailure) sampleForeignDh =
        (.ok none, initiator { sampleInitiator with foreignDH := some foreignDH })) ∧
    ∀ arrivals : List Arrival, observations sampleEnvironment arrivals
        ((initiator sampleInitiator).handlePacket sampleEnvironment
          (fun _ => .error .securityFailure) sampleForeignDh).2 =
      observations sampleEnvironment arrivals (initiator sampleInitiator) :=
  ⟨⟨_, rfl⟩, (observations_of_dropped sampleEnvironment rfl).2⟩

end Sample

end ZrtpRole
end SignalIOS.Zrtp
