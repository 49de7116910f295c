import Mathlib.Data.List.Nodup
import SignalIOS.Phone.PhoneManager

/-! Notifications of a session that the phone has already, and what comes of them. -/
namespace SignalIOS.Phone
open SignalIOS.Lib

def PermissionRequest.awaitedSession : PermissionRequest → Option Int64
  | .callToRemoteNumber _ => none
  | .respondToCall session => some session.sessionId

namespace PhoneManager

/-- The session of the call that is ongoing, if that is an incoming one. -/
def ongoingSession (s : PhoneManager) : Option Int64 :=
  match s.curCallController with
  | none => none
  | some c => if c.futureTermination.isNone then c.session.map (·.sessionId) else none

/-- The sessions of the incoming calls that wait for the permission. -/
def awaitedSessions (s : PhoneManager) : List Int64 :=
  s.permissionRequests.filterMap PermissionRequest.awaitedSession

def OwnSession (s : PhoneManager) (sessionId : Int64) : Prop :=
  s.ongoingSession = some sessionId ∨ sessionId ∈ s.awaitedSessions

instance (s : PhoneManager) (sessionId : Int64) : Decidable (s.OwnSession sessionId) :=
  inferInstanceAs (Decidable (_ ∨ _))

/-- Nothing is recorded or signalled, and the call is neither ended nor asked for again. -/
structure Ignored (s s' : PhoneManager) : Prop where
  missedCallsDueToBusy : s'.missedCallsDueToBusy = s.missedCallsDueToBusy
  busySignals : s'.busySignals = s.busySignals
  curCallController : s'.curCallController = s.curCallController
  replacedCalls : s'.replacedCalls = s.replacedCalls
  permissionRequests : s'.permissionRequests = s.permissionRequests

/-- Notifications of an own session are ignored, and no answer restarts the call of the session
it is about. -/
def Spares (s : PhoneManager) : Event → Prop
  | .incomingCallWithSession session =>
    s.OwnSession session.sessionId → Ignored s (s.incomingCallWithSession session)
  | .permissionAnswered i granted =>
    ∀ request, s.permissionRequests[i]? = some request → ∀ sessionId,
      request.awaitedSession = some sessionId → s.ongoingSession = some sessionId →
        (s.permissionAnswered request i granted).replacedCalls = s.replacedCalls
  | _ => True

/-- The session of the latest notification. -/
def lastNotified : History PhoneManager Event → Option Int64
  | [] => none
  | (.incomingCallWithSession session, _) :: _ => some session.sessionId
  | _ :: tr => lastNotified tr

/-- A notification of an own session finds a call that is ongoing, of whatever kind, and comes
right behind another notification of the session. -/
def Repeats (tr : History PhoneManager Event) : Event → Prop
  | .incomingCallWithSession session =>
    (machine.last tr).OwnSession session.sessionId →
      (machine.last tr).hasOngoingCall = true ∧ lastNotified tr = some session.sessionId
  | _ => True

instance decidableRepeats (tr : History PhoneManager Event) : ∀ e, Decidable (Repeats tr e)
  | .incomingCallWithSession _ => inferInstanceAs (Decidable (_ → _))
  | .initiateOutgoingCallToRemoteNumber _ | .permissionAnswered _ _ | .callTerminated _
  | .webRTCCallChanged _ => .isTrue trivial

/-- Whosever session it is. -/
theorem ignored_iff (s : PhoneManager) (session : NotifiedSession) :
    Ignored s (s.incomingCallWithSession session) ↔
      s.hasOngoingCall = true ∧ session.sessionId = s.lastIncomingSessionId := by
  have hgrown {α : Type} (l : List α) (a : α) : l ++ [a] ≠ l := by
    intro h
    have := congrArg List.length h
    rw [List.length_append, List.length_singleton] at this
    omega
  have hsame : ({ s with lastIncomingSessionId := session.sessionId } :
      PhoneManager).hasOngoingCall = s.hasOngoingCall := rfl
  unfold incomingCallWithSession
  simp only [hsame]
  split
  case isTrue hongoing =>
    split
    case isTrue hrepeated => exact iff_of_true ⟨rfl, rfl, rfl, rfl, rfl⟩ ⟨hongoing, hrepeated⟩
    case isFalse hother =>
      constructor
      · intro h
        exact absurd h.missedCallsDueToBusy (hgrown _ _)
      · intro h
        exact absurd h.2 hother
  case isFalse hfree =>
    constructor
    · intro h
      exact absurd h.permissionRequests (hgrown _ _)
    · intro h
      exact absurd h.1 hfree

/-- An own session has been notified, and the manager remembers the latest one. -/
structure Remembers (tr : History PhoneManager Event) : Prop where
  lastIncomingSessionId : ∀ sessionId, lastNotified tr = some sessionId →
    (machine.last tr).lastIncomingSessionId = sessionId
  ongoing : lastNotified tr = none → (machine.last tr).ongoingSession = none
  awaited : lastNotified tr = none → (machine.last tr).awaitedSessions = []

theorem ongoingSession_permissionAnswered {s : PhoneManager} {request : PermissionRequest}
    {i : ℕ} {granted : Bool} : (s.permissionAnswered request i granted).ongoingSession =
      if granted then request.awaitedSession else s.ongoingSession := by
  cases granted <;> cases request <;> rfl

theorem permissionRequests_permissionAnswered {s : PhoneManager} {request : PermissionRequest}
    {i : ℕ} {granted : Bool} : (s.permissionAnswered request i granted).permissionRequests =
      s.permissionRequests.eraseIdx i := by
  cases granted <;> cases request <;> rfl

theorem awaitedSessions_permissionAnswered (s : PhoneManager) (request : PermissionRequest)
    (i : ℕ) (granted : Bool) : (s.permissionAnswered request i granted).awaitedSessions.Sublist
      s.awaitedSessions := by
  rw [awaitedSessions, permissionRequests_permissionAnswered]
  exact (List.eraseIdx_sublist _ i).filterMap _

theorem ongoingSession_terminated {s : PhoneManager} {c : RedphoneCall}
    (reason : CallTerminationType) : ({ s with
      curCallController := some (c.terminateWithReason reason) } : PhoneManager).ongoingSession =
        none := by
  cases hc : c.futureTermination <;>
    simp [ongoingSession, RedphoneCall.terminateWithReason, hc]

theorem remembers_of_run {tr : History PhoneManager Event} (h : machine.Run tr) :
    Remembers tr := by
  refine h.invariant (P := Remembers) ⟨nofun, fun _ => rfl, fun _ => rfl⟩ fun tr e s _ hP hstep => ?_
  cases e with
  | incomingCallWithSession session =>
    obtain rfl := Option.some.inj hstep
    refine ⟨fun sessionId h => ?_, nofun, nofun⟩
    obtain rfl := Option.some.inj h
    show (PhoneManager.incomingCallWithSession _ _).lastIncomingSessionId = _
    unfold incomingCallWithSession
    dsimp only
    split_ifs <;> rfl
  | initiateOutgoingCallToRemoteNumber remoteNumber =>
    obtain rfl := Option.some.inj hstep
    refine ⟨hP.lastIncomingSessionId, hP.ongoing, fun h => ?_⟩
    show List.filterMap _ (_ ++ _) = []
    rw [List.filterMap_append]
    exact List.append_eq_nil_iff.mpr ⟨hP.awaited h, rfl⟩
  | permissionAnswered i granted =>
    obtain ⟨request, hrequest, rfl⟩ := Option.map_eq_some_iff.mp hstep
    refine ⟨fun sessionId h => ?_, fun h => ?_, fun h => ?_⟩
    · rw [← hP.lastIncomingSessionId sessionId h]
      cases granted <;> cases request <;> rfl
    · have hawaited := hP.awaited h
      have hnone : request.awaitedSession = none :=
        List.filterMap_eq_nil_iff.mp hawaited request (List.mem_of_getElem? hrequest)
      rw [Machine.last_cons, ongoingSession_permissionAnswered, hnone, hP.ongoing h, ite_self]
    · have hsublist := awaitedSessions_permissionAnswered (machine.last tr) request i granted
      rw [hP.awaited h] at hsublist
      exact List.sublist_nil.mp hsublist
  | callTerminated reason =>
    obtain ⟨c, hc, rfl⟩ := Option.map_eq_some_iff.mp hstep
    exact ⟨hP.lastIncomingSessionId, fun _ => ongoingSession_terminated reason, hP.awaited⟩
  | webRTCCallChanged ongoing =>
    obtain rfl := Option.some.inj hstep
    exact ⟨hP.lastIncomingSessionId, hP.ongoing, hP.awaited⟩

/-- A session is the own one for one reason only. -/
structure Separate (s : PhoneManager) : Prop where
  nodup : s.awaitedSessions.Nodup
  notAwaited : ∀ sessionId, s.ongoingSession = some sessionId → sessionId ∉ s.awaitedSessions

theorem ongoingSession_of_free {s : PhoneManager} (h : s.hasOngoingCall = false) :
    s.ongoingSession = none := by
  have hredphone : s.hasOngoingRedphoneCall = false := (Bool.or_eq_false_iff.mp h).1
  unfold hasOngoingRedphoneCall at hredphone
  unfold ongoingSession
  split
  · rfl
  · rename_i c hc
    rw [hc] at hredphone
    have hended : c.futureTermination.isNone = false := hredphone
    rw [hended, if_neg Bool.false_ne_true]

theorem separate_incomingCallWithSession {s : PhoneManager} (hs : s.Separate)
    {session : NotifiedSession} (h : s.OwnSession session.sessionId →
      s.hasOngoingCall = true) : (s.incomingCallWithSession session).Separate := by
  have hsame : ({ s with lastIncomingSessionId := session.sessionId } :
      PhoneManager).hasOngoingCall = s.hasOngoingCall := rfl
  unfold incomingCallWithSession
  simp only [hsame]
  split
  case isTrue =>
    split
    · exact ⟨hs.nodup, hs.notAwaited⟩
    · exact ⟨hs.nodup, hs.notAwaited⟩
  case isFalse hfree =>
    have hnew : session.sessionId ∉ s.awaitedSessions := fun hmem => hfree (h (.inr hmem))
    have hnone := ongoingSession_of_free (Bool.eq_false_iff.mpr hfree)
    constructor
    · show (List.filterMap _ (s.permissionRequests ++ [.respondToCall session])).Nodup
      rw [List.filterMap_append]
      exact List.nodup_append.mpr ⟨hs.nodup, List.nodup_singleton _, fun id hid id' hid' heq =>
        hnew (List.mem_singleton.mp hid' ▸ heq ▸ hid)⟩
    · intro sessionId hongoing
      cases hnone.symm.trans hongoing

theorem separate_permissionAnswered {s : PhoneManager} (hs : s.Separate)
    {request : PermissionRequest} {i : ℕ} (hrequest : s.permissionRequests[i]? = some request)
    (granted : Bool) : (s.permissionAnswered request i granted).Separate := by
  have hsublist := awaitedSessions_permissionAnswered s request i granted
  refine ⟨hs.nodup.sublist hsublist, fun sessionId hongoing => ?_⟩
  rw [ongoingSession_permissionAnswered] at hongoing
  split at hongoing
  case isTrue =>
    -- the request that was answered was the only one for its session
    obtain ⟨hi, rfl⟩ := List.getElem?_eq_some_iff.mp hrequest
    have hperm := (List.getElem_cons_eraseIdx_perm hi).filterMap PermissionRequest.awaitedSession
    rw [List.filterMap_cons_some hongoing] at hperm
    have hnotMem := (List.nodup_cons.mp (hperm.nodup_iff.mpr hs.nodup)).1
    rwa [awaitedSessions, permissionRequests_permissionAnswered]
  case isFalse => exact fun hmem => hs.notAwaited sessionId hongoing (hsublist.subset hmem)

theorem separate_of_guarded {tr : History PhoneManager Event} (h : machine.Run tr)
    (hguarded : Machine.Guarded Repeats tr) : (machine.last tr).Separate := by
  refine h.of_guarded (P := fun tr => (machine.last tr).Separate) ⟨List.nodup_nil, nofun⟩
    (fun tr e s _ hP hstep hG => ?_) hguarded
  cases e with
  | incomingCallWithSession session =>
    obtain rfl := Option.some.inj hstep
    exact separate_incomingCallWithSession hP fun hown => (hG hown).1
  | initiateOutgoingCallToRemoteNumber remoteNumber =>
    obtain rfl := Option.some.inj hstep
    have hsame : ((machine.last tr).initiateOutgoingCallToRemoteNumber remoteNumber
        ).awaitedSessions = (machine.last tr).awaitedSessions := by
      show List.filterMap _ (_ ++ _) = _
      rw [List.filterMap_append]
      exact List.append_nil _
    constructor
    · rw [Machine.last_cons, hsame]
      exact hP.nodup
    · rw [Machine.last_cons, hsame]
      exact hP.notAwaited
  | permissionAnswered i granted =>
    obtain ⟨request, hrequest, rfl⟩ := Option.map_eq_some_iff.mp hstep
    exact separate_permissionAnswered hP hrequest granted
  | callTerminated reason =>
    obtain ⟨c, hc, rfl⟩ := Option.map_eq_some_iff.mp hstep
    refine ⟨hP.nodup, fun sessionId hongoing => ?_⟩
    cases (ongoingSession_terminated reason).symm.trans hongoing
  | webRTCCallChanged ongoing =>
    obtain rfl := Option.some.inj hstep
    exact ⟨hP.nodup, hP.notAwaited⟩

/-- Along a run, the own session is spared just as long as each notification of it comes while a
call is ongoing, and right behind another one. -/
theorem spares_iff_repeats {tr : History PhoneManager Event} (h : machine.Run tr) :
    Machine.Guarded (fun tr e => (machine.last tr).Spares e) tr ↔ Machine.Guarded Repeats tr := by
  constructor
  · refine h.guarded_imp fun tr e s hrun _ _ hspares => ?_
    cases e with
    | incomingCallWithSession session =>
      intro hown
      obtain ⟨hongoing, hlast⟩ := (ignored_iff _ session).mp (hspares hown)
      have hremembers := remembers_of_run hrun
      refine ⟨hongoing, ?_⟩
      cases hnotified : lastNotified tr with
      | none =>
        rcases hown with hown | hown
        · cases (hremembers.ongoing hnotified).symm.trans hown
        · rw [hremembers.awaited hnotified] at hown
          cases hown
      | some sessionId => rw [hlast, hremembers.lastIncomingSessionId sessionId hnotified]
    | _ => trivial
  · refine h.guarded_imp fun tr e s hrun hguarded _ hrepeats => ?_
    cases e with
    | incomingCallWithSession session =>
      intro hown
      obtain ⟨hongoing, hlast⟩ := hrepeats hown
      have hremembers := (remembers_of_run hrun).lastIncomingSessionId _ hlast
      exact (ignored_iff _ session).mpr ⟨hongoing, hremembers.symm⟩
    | permissionAnswered i granted =>
      intro request hrequest sessionId hawaited hongoing
      have hseparate := separate_of_guarded hrun hguarded
      have hmem : sessionId ∈ (machine.last tr).awaitedSessions :=
        List.mem_filterMap.mpr ⟨request, List.mem_of_getElem? hrequest, hawaited⟩
      exact absurd hmem (hseparate.notAwaited sessionId hongoing)
    | _ => trivial

def sampleSession (sessionId : Int64) : NotifiedSession :=
  ⟨sessionId, "relay", "+15551234567"⟩

/-- Where the permission is still missing, a second notification asks for it again, and the second
answer replaces the call that the first one has begun. -/
example : (machine.exec [.incomingCallWithSession (sampleSession 1),
    .incomingCallWithSession (sampleSession 1), .permissionAnswered 0 true,
    .permissionAnswered 0 true]).map
      (fun tr => (machine.last tr).replacedCalls.map (·.futureTermination)) =
    some [some .replacedByNext] := rfl

theorem spares_iff_repeats_sample : ∃ tr, machine.exec [.incomingCallWithSession (sampleSession 1),
    .permissionAnswered 0 true, .incomingCallWithSession (sampleSession 1),
    .incomingCallWithSession (sampleSession 2)] = some tr ∧
      Machine.Guarded (fun tr e => (machine.last tr).Spares e) tr := by
  have hrepeats : (machine.exec [.incomingCallWithSession (sampleSession 1),
      .permissionAnswered 0 true, .incomingCallWithSession (sampleSession 1),
      .incomingCallWithSession (sampleSession 2)]).map
        (fun tr => decide (Machine.Guarded Repeats tr)) = some true := by decide
  obtain ⟨tr, htr, hguarded⟩ := Option.map_eq_some_iff.mp hrepeats
  exact ⟨tr, htr, (spares_iff_repeats (Machine.run_of_exec htr)).mpr (of_decide_eq_true hguarded)⟩

/-- The notification of another session comes in between, and then the ongoing call is missed. -/
theorem interleaved_notification_missed : ¬ ∀ tr, machine.Run tr →
    Machine.Guarded (fun tr e => (machine.last tr).Spares e) tr := by
  intro h
  have hlast : (machine.exec [.incomingCallWithSession (sampleSession 1),
      .permissionAnswered 0 true, .incomingCallWithSession (sampleSession 2)]).map
        machine.last = some
          { lastIncomingSessionId := 2
            curCallController := some ⟨false, "+15551234567", some (sampleSession 1), none⟩
            missedCallsDueToBusy := [sampleSession 2]
            busySignals := [sampleSession 2] } := rfl
  obtain ⟨tr, htr, hlast⟩ := Option.map_eq_some_iff.mp hlast
  have hrun : machine.Run ((.incomingCallWithSession (sampleSession 1),
      (machine.last tr).incomingCallWithSession (sampleSession 1)) :: tr) :=
    ⟨Machine.run_of_exec htr, rfl⟩
  have hspares : (machine.last tr).Spares (.incomingCallWithSession (sampleSession 1)) :=
    (h _ hrun).1
  rw [hlast] at hspares
  have hmissed := (hspares (.inl rfl)).missedCallsDueToBusy
  revert hmissed
  decide

end PhoneManager
end SignalIOS.Phone
