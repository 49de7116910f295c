import Mathlib.Algebra.BigOperators.Group.List.Basic
import Mathlib.Data.List.Perm.Basic
import Mathlib.Data.List.ReduceOption
import SignalIOS.Call.PeerConnectionClient

/-! What has to go right for the promises of a peer connection client to be kept. -/
namespace SignalIOS.Call.PeerConnection
open SignalIOS.Lib

/-- Each promise is settled once at most, and once nothing more is going to happen to it. It is
fulfilled only if all that it stands for was completed without an error. -/
structure Negotiation.Kept {E : Type*} (negotiation : Negotiation E) (awaited : Prop) : Prop where
  once : (negotiation.settlements.map Prod.fst).Nodup
  fulfilled : ∀ settlement ∈ negotiation.settlements, settlement.2.isFulfilled = true →
    ∀ operation ∈ settlement.1.operations, (operation, none) ∈ negotiation.completions
  settled : ¬ awaited → ∀ builder ∈ negotiation.builder.promises,
    builder ∈ negotiation.settlements.map Prod.fst

/-- Setting a description for a promise of its own succeeds, and the one of an answer does not fail
by a cancellation. -/
def CompletionHandler.Reports {E : Type*} (isCancelledError : E → Bool) (error : Option E) :
    CompletionHandler → Prop
  | setLocalDescription | setRemoteDescription => error = none
  | setLocalDescriptionInternal _ => ∀ e ∈ error, isCancelledError e = false
  | offer | answer => True

instance CompletionHandler.decidableReports {E : Type*} [DecidableEq E] (isCancelledError : E → Bool)
    (error : Option E) : ∀ handler : CompletionHandler,
      Decidable (handler.Reports isCancelledError error)
  | setLocalDescription | setRemoteDescription => inferInstanceAs (Decidable (error = none))
  | setLocalDescriptionInternal _ =>
    inferInstanceAs (Decidable (∀ e ∈ error, isCancelledError e = false))
  | offer | answer => .isTrue trivial

namespace PeerConnectionClient
variable {E : Type*}

/-- What is still to run, with the calls that it is for. -/
def continuations (s : PeerConnectionClient E) : List (ℕ × Continuation E) :=
  s.signalingQueue.reduceOption.map (fun p => (p.1, .block p.2)) ++
    s.completionHandlers.map (fun p => (p.1, .completionHandler p.2)) ++
    s.catchBlocks.map fun p => (p.1, .catchBlock p.2)

def PromisesKept (s : PeerConnectionClient E) : Prop :=
  ∀ (n : ℕ) (negotiation : Negotiation E), s.negotiations[n]? = some negotiation →
    negotiation.Kept (n ∈ s.continuations.map Prod.fst)

/-- What WebRTC completes is reported by the handler that is called. -/
def CompletionReported (isCancelledError : E → Bool) (s : PeerConnectionClient E) : Event E → Prop
  | .complete i _ error =>
    ∀ p ∈ s.completionHandlers[i]?, p.2.Reports isCancelledError error
  | _ => True

instance decidableCompletionReported [DecidableEq E] (isCancelledError : E → Bool)
    (s : PeerConnectionClient E) : ∀ e : Event E, Decidable (s.CompletionReported isCancelledError e)
  | .complete i _ error =>
    inferInstanceAs
      (Decidable (∀ p ∈ s.completionHandlers[i]?, p.2.Reports isCancelledError error))
  | .request _ | .terminate | .runBlock | .runCatch _ => .isTrue trivial

end PeerConnectionClient

namespace Negotiation
variable {E : Type*}

/-- The negotiation, once something more has been completed and an effect has taken place. -/
def after (negotiation : Negotiation E) (completions : List (WebRTCOperation × Option E))
    (effect : Effect E) : Negotiation E where
  builder := negotiation.builder
  completions := negotiation.completions ++ completions
  settlements := negotiation.settlements ++ effect.settlements

/-- A remote description has been set, in some way, and more has been completed since. -/
def remoteSet (error : Option E) (later : List (WebRTCOperation × Option E)) : Negotiation E where
  builder := .negotiateSessionDescription
  completions := (.setRemoteDescription, error) :: later
  settlements := [(.setRemoteSessionDescription, .fulfilled none)]

theorem Kept.congr {negotiation : Negotiation E} {awaited awaited' : Prop}
    (h : awaited ↔ awaited') : negotiation.Kept awaited ↔ negotiation.Kept awaited' := by
  rw [propext h]

variable {r : Negotiation E} {completions : List (WebRTCOperation × Option E)} {effect : Effect E}

/-- Nothing is settled yet by what hands on. -/
theorem Kept.await (h : r.Kept True) (heffect : effect.settlements = []) {awaited : Prop}
    (hawaited : awaited) : (r.after completions effect).Kept awaited := by
  unfold after
  rw [heffect, List.append_nil]
  refine ⟨h.once, ?_, fun hnot => absurd hawaited hnot⟩
  intro settlement hmem hfulfilled operation hoperation
  exact List.mem_append_left _ (h.fulfilled settlement hmem hfulfilled operation hoperation)

/-- A promise that is settled for the first time. -/
theorem Kept.settle (h : r.Kept True) {builder : PromiseBuilder} {settlement : Settlement E}
    (heffect : effect.settlements = [(builder, settlement)])
    (hfirst : builder ∉ r.settlements.map Prod.fst)
    (hfulfilled : settlement.isFulfilled = true → ∀ operation ∈ builder.operations,
      (operation, none) ∈ r.completions ++ completions)
    {awaited : Prop} (hsettled : ¬ awaited → ∀ other ∈ r.builder.promises,
      other = builder ∨ other ∈ r.settlements.map Prod.fst) :
    (r.after completions effect).Kept awaited := by
  unfold after
  rw [heffect]
  constructor
  · rw [List.map_append, List.map_cons, List.map_nil, List.nodup_append]
    refine ⟨h.once, List.pairwise_singleton _ _, ?_⟩
    intro other hother builder' hbuilder' heq
    obtain rfl := List.mem_singleton.mp hbuilder'
    exact hfirst (heq ▸ hother)
  · intro settlement' hmem
    rcases List.mem_append.mp hmem with hmem | hmem
    · intro hfulfilled' operation hoperation
      exact List.mem_append_left _ (h.fulfilled settlement' hmem hfulfilled' operation hoperation)
    · obtain rfl := List.mem_singleton.mp hmem
      exact hfulfilled
  · intro hnot other hother
    rw [List.map_append]
    rcases hsettled hnot other hother with rfl | hmem
    · exact List.mem_append_right _ (List.mem_singleton_self _)
    · exact List.mem_append_left _ hmem

/-- The only promise of a call. -/
theorem kept_of_single {builder : PromiseBuilder} (hsingle : builder.promises = [builder])
    {completed : List (WebRTCOperation × Option E)} {settlement : Settlement E}
    (heffect : effect.settlements = [(builder, settlement)])
    (hfulfilled : settlement.isFulfilled = true → ∀ operation ∈ builder.operations,
      (operation, none) ∈ completed ++ completions) (awaited : Prop) :
    (Negotiation.after { builder, completions := completed } completions effect).Kept awaited := by
  have hunsettled : Negotiation.Kept (E := E) { builder, completions := completed } True :=
    ⟨.nil, nofun, fun hnot => absurd trivial hnot⟩
  refine hunsettled.settle heffect nofun hfulfilled ?_
  intro _ other hother
  dsimp only at hother
  rw [hsingle] at hother
  exact .inl (List.mem_singleton.mp hother)

theorem kept_of_rejected {builder : PromiseBuilder} (hsingle : builder.promises = [builder])
    {completed : List (WebRTCOperation × Option E)} {error : NegotiationError E}
    (heffect : effect.settlements = [(builder, .rejected error)]) (awaited : Prop) :
    (Negotiation.after { builder, completions := completed } completions effect).Kept awaited :=
  kept_of_single hsingle heffect (fun hok => by cases hok) awaited

/-- A promise that is kept and is fulfilled by its first completion got no error. -/
theorem Kept.noError {caller builder : PromiseBuilder} {operation : WebRTCOperation}
    {error : Option E} {awaited : Prop}
    (h : (Negotiation.after { builder := caller } [(operation, error)] effect).Kept awaited)
    {value : Option HardenedRTCSessionDescription} (hoperation : operation ∈ builder.operations)
    (heffect : effect.settlements = [(builder, .fulfilled value)]) : error = none := by
  have hsettled : (builder, .fulfilled value) ∈
      (Negotiation.after { builder := caller } [(operation, error)] effect).settlements :=
    List.mem_append_right _ (heffect ▸ List.mem_singleton_self _)
  have hmem := h.fulfilled _ hsettled rfl operation hoperation
  exact (Prod.mk.inj (List.mem_singleton.mp hmem)).2.symm

/-- The promise of a negotiation, where that of the remote description has been kept. -/
theorem Kept.answer {remoteError : Option E} {later : List (WebRTCOperation × Option E)}
    (h : (remoteSet remoteError later).Kept True) {settlement : Settlement E}
    (heffect : effect.settlements = [(.negotiateSessionDescription, settlement)])
    (hfulfilled : settlement.isFulfilled = true →
      (.answer, none) ∈ later ∧ (.setLocalDescription, none) ∈ later) (awaited : Prop) :
    ((remoteSet remoteError later).after [] effect).Kept awaited := by
  refine h.settle heffect (by simp [remoteSet]) ?_ (by simp [remoteSet, PromiseBuilder.promises])
  intro hok operation hoperation
  obtain ⟨hanswer, hlocal⟩ := hfulfilled hok
  have hremote := h.fulfilled _ List.mem_cons_self rfl _ List.mem_cons_self
  rw [List.append_nil]
  simp only [PromiseBuilder.operations, List.mem_cons, List.not_mem_nil, or_false] at hoperation
  rcases hoperation with rfl | rfl | rfl
  · exact hremote
  · exact List.mem_cons_of_mem _ hanswer
  · exact List.mem_cons_of_mem _ hlocal

theorem Kept.answer_rejected {remoteError : Option E}
    {later : List (WebRTCOperation × Option E)} (h : (remoteSet remoteError later).Kept True)
    {error : NegotiationError E}
    (heffect : effect.settlements = [(.negotiateSessionDescription, .rejected error)])
    (awaited : Prop) : ((remoteSet remoteError later).after [] effect).Kept awaited :=
  h.answer heffect (fun hok => by cases hok) awaited

end Negotiation

/-- How far a negotiation has come when the block is still to run. -/
def SignalingBlock.Fits {E : Type*} : SignalingBlock E → Negotiation E → Prop
  | createOffer, r => r = { builder := .createOffer }
  | offered _ error, r => r = { builder := .createOffer, completions := [(.offer, error)] }
  | setLocalSessionDescription _, r => r = { builder := .setLocalSessionDescription }
  | setRemoteSessionDescription _, r =>
    r = { builder := .setRemoteSessionDescription } ∨ r = { builder := .negotiateSessionDescription }
  | negotiateAnswerSessionDescription, r => ∃ e, r = .remoteSet e []
  | answered _ error, r => ∃ e, r = .remoteSet e [(.answer, error)]
  | fulfillAnswer _, r => ∃ e, r = .remoteSet e [(.answer, none), (.setLocalDescription, none)]

def CompletionHandler.Fits {E : Type*} : CompletionHandler → Negotiation E → Prop
  | offer, r => r = { builder := .createOffer }
  | setLocalDescription, r => r = { builder := .setLocalSessionDescription }
  | setRemoteDescription, r =>
    r = { builder := .setRemoteSessionDescription } ∨ r = { builder := .negotiateSessionDescription }
  | answer, r => ∃ e, r = .remoteSet e []
  | setLocalDescriptionInternal _, r => ∃ e, r = .remoteSet e [(.answer, none)]

namespace Continuation
variable {E : Type*}

def Fits : Continuation E → Negotiation E → Prop
  | .block b, r => b.Fits r
  | .completionHandler handler, r => handler.Fits r
  | .catchBlock error, r =>
    ∃ e, r = .remoteSet e [(.answer, none), (.setLocalDescription, some error)]

/-- What the continuation does, with the arguments that only a handler has. -/
def effect (isCancelledError : E → Bool) (peerConnection : Bool)
    (sdp : Option RTCSessionDescription) (error : Option E) (caller : PromiseBuilder) :
    Continuation E → Effect E
  | .block b => b.run peerConnection caller
  | .completionHandler handler => handler.run isCancelledError caller sdp error
  | .catchBlock error => .reject .negotiateSessionDescription (.webRTC error)

def completed (error : Option E) : Continuation E → List (WebRTCOperation × Option E)
  | .completionHandler handler => [(handler.operation, error)]
  | .block _ | .catchBlock _ => []

/-- How many continuations can still run for the call, this one included. -/
def remaining : Continuation E → ℕ
  | .block (.setRemoteSessionDescription _) => 7
  | .completionHandler .setRemoteDescription => 6
  | .block .negotiateAnswerSessionDescription => 5
  | .completionHandler .answer => 4
  | .block .createOffer | .block (.answered _ _) => 3
  | .completionHandler .offer | .block (.setLocalSessionDescription _)
  | .completionHandler (.setLocalDescriptionInternal _) => 2
  | .block (.offered _ _) | .completionHandler .setLocalDescription | .block (.fulfillAnswer _)
  | .catchBlock _ => 1

theorem remaining_pos (w : Continuation E) : 0 < w.remaining := by
  rcases w with ⟨⟨⟩⟩ | ⟨⟨⟩⟩ | ⟨error⟩ <;> exact Nat.succ_pos _

def Reports (isCancelledError : E → Bool) (error : Option E) : Continuation E → Prop
  | .completionHandler handler => handler.Reports isCancelledError error
  | .block _ | .catchBlock _ => True

end Continuation

section
variable {E : Type*} {isCancelledError : E → Bool} {r : Negotiation E}

/-- What leaves the rest to a continuation that fits settles nothing. -/
theorem Negotiation.Kept.handsOn (h : r.Kept True)
    {completions : List (WebRTCOperation × Option E)} {effect : Effect E} {w : Continuation E}
    (heffect : effect = ⟨[], some w⟩) (hfits : w.Fits (r.after completions ⟨[], some w⟩)) :
    (∀ w' ∈ effect.next, w'.Fits (r.after completions effect)) ∧
      (r.after completions effect).Kept (effect.next.isSome = true) := by
  subst heffect
  refine ⟨?_, h.await rfl rfl⟩
  intro w' hw'
  obtain rfl := Option.some.inj hw'
  exact hfits

theorem Negotiation.Kept.handsOn_iff (h : r.Kept True)
    {completions : List (WebRTCOperation × Option E)} {effect : Effect E} {w : Continuation E}
    (heffect : effect = ⟨[], some w⟩) (hfits : w.Fits (r.after completions ⟨[], some w⟩))
    {p : Prop} (hp : p) :
    (∀ w' ∈ effect.next, w'.Fits (r.after completions effect)) ∧
      ((r.after completions effect).Kept (effect.next.isSome = true) ↔ p) := by
  obtain ⟨hnext, hafter⟩ := h.handsOn heffect hfits
  exact ⟨hnext, iff_of_true hafter hp⟩

/-- A block leaves the rest to what fits, or settles the promise as what has been completed says. -/
theorem SignalingBlock.run_spec {block : SignalingBlock E} (h : block.Fits r)
    (hkept : r.Kept True) (peerConnection : Bool) :
    (∀ w ∈ (block.run peerConnection r.builder).next,
        w.Fits (r.after [] (block.run peerConnection r.builder))) ∧
      (r.after [] (block.run peerConnection r.builder)).Kept
        ((block.run peerConnection r.builder).next.isSome = true) := by
  cases block with
  | createOffer =>
    obtain rfl : r = _ := h
    cases peerConnection with
    | false => exact ⟨nofun, Negotiation.kept_of_rejected rfl rfl _⟩
    | true => exact hkept.handsOn rfl rfl
  | offered sdp error =>
    obtain rfl : r = _ := h
    cases peerConnection with
    | false => exact ⟨nofun, Negotiation.kept_of_rejected rfl rfl _⟩
    | true =>
      rcases error with _ | error
      · rcases sdp with _ | sdp
        · exact ⟨nofun, Negotiation.kept_of_rejected rfl rfl _⟩
        · exact ⟨nofun, Negotiation.kept_of_single rfl rfl (by simp [PromiseBuilder.operations]) _⟩
      · exact ⟨nofun, Negotiation.kept_of_rejected rfl rfl _⟩
  | setLocalSessionDescription sessionDescription =>
    obtain rfl : r = _ := h
    cases peerConnection with
    | false => exact ⟨nofun, Negotiation.kept_of_rejected rfl rfl _⟩
    | true => exact hkept.handsOn rfl rfl
  | setRemoteSessionDescription sessionDescription =>
    cases peerConnection with
    | false =>
      refine ⟨nofun, ?_⟩
      rcases h with rfl | rfl
      · exact Negotiation.kept_of_rejected rfl rfl _
      · let obsolete : Settlement E := .rejected .obsoleteClient
        show Negotiation.Kept { builder := .negotiateSessionDescription, settlements :=
          [(.setRemoteSessionDescription, obsolete), (.negotiateSessionDescription, obsolete)] } _
        exact ⟨by simp, by simp [obsolete, Settlement.isFulfilled],
          by simp [PromiseBuilder.promises]⟩
    | true =>
      rcases h with rfl | rfl
      · exact hkept.handsOn rfl (.inl rfl)
      · exact hkept.handsOn rfl (.inr rfl)
  | negotiateAnswerSessionDescription =>
    obtain ⟨e, rfl⟩ := h
    cases peerConnection with
    | false => exact ⟨nofun, hkept.answer_rejected rfl _⟩
    | true => exact hkept.handsOn rfl ⟨e, rfl⟩
  | answered sdp error =>
    obtain ⟨e, rfl⟩ := h
    cases peerConnection with
    | false => exact ⟨nofun, hkept.answer_rejected rfl _⟩
    | true =>
      rcases error with _ | error
      · rcases sdp with _ | sdp
        · exact ⟨nofun, hkept.answer_rejected rfl _⟩
        · exact hkept.handsOn rfl ⟨e, rfl⟩
      · exact ⟨nofun, hkept.answer_rejected rfl _⟩
  | fulfillAnswer description =>
    obtain ⟨e, rfl⟩ := h
    exact ⟨nofun, hkept.answer rfl (by simp) _⟩

/-- The handlers for descriptions that are set do not look at the error, and a cancellation is not
caught. -/
theorem CompletionHandler.run_spec {handler : CompletionHandler} (h : handler.Fits r)
    (hkept : r.Kept True) (sdp : Option RTCSessionDescription) (error : Option E) :
    (∀ w ∈ (handler.run isCancelledError r.builder sdp error).next,
        w.Fits (r.after [(handler.operation, error)]
          (handler.run isCancelledError r.builder sdp error))) ∧
      ((r.after [(handler.operation, error)]
          (handler.run isCancelledError r.builder sdp error)).Kept
        ((handler.run isCancelledError r.builder sdp error).next.isSome = true) ↔
      handler.Reports isCancelledError error) := by
  cases handler with
  | offer =>
    obtain rfl : r = _ := h
    refine hkept.handsOn_iff rfl ?_ trivial
    exact rfl
  | setLocalDescription =>
    obtain rfl : r = _ := h
    refine ⟨nofun, ?_, ?_⟩
    · intro hafter
      exact hafter.noError List.mem_cons_self rfl
    · intro hreports
      obtain rfl : error = none := hreports
      exact Negotiation.kept_of_single rfl rfl (by simp [PromiseBuilder.operations, operation]) _
  | setRemoteDescription =>
    constructor
    · rcases h with rfl | rfl
      · exact nofun
      · intro w hw
        obtain rfl := Option.some.inj hw
        exact ⟨error, rfl⟩
    · constructor
      · intro hafter
        rcases h with rfl | rfl
        · exact hafter.noError List.mem_cons_self rfl
        · exact hafter.noError List.mem_cons_self rfl
      · intro hreports
        obtain rfl : error = none := hreports
        rcases h with rfl | rfl
        · exact Negotiation.kept_of_single rfl rfl
            (by simp [PromiseBuilder.operations, operation]) _
        · exact hkept.settle rfl nofun (by simp [PromiseBuilder.operations, operation])
            fun hnot => absurd rfl hnot
  | answer =>
    obtain ⟨e, rfl⟩ := h
    refine hkept.handsOn_iff rfl ?_ trivial
    exact ⟨e, rfl⟩
  | setLocalDescriptionInternal description =>
    obtain ⟨e, rfl⟩ := h
    cases error with
    | none =>
      refine hkept.handsOn_iff rfl ?_ nofun
      exact ⟨e, rfl⟩
    | some error =>
      cases hcancelled : isCancelledError error with
      | true =>
        have hrun : (setLocalDescriptionInternal description).run isCancelledError
            (Negotiation.remoteSet e [(.answer, none)]).builder sdp (some error) = {} :=
          if_pos hcancelled
        rw [hrun]
        refine ⟨nofun, iff_of_false ?_ ?_⟩
        · intro hafter
          have hmem := hafter.settled nofun .negotiateSessionDescription
            (List.mem_cons_of_mem _ List.mem_cons_self)
          cases List.mem_singleton.mp hmem
        · intro hreports
          cases hcancelled.symm.trans (hreports error rfl)
      | false =>
        have hrun : (setLocalDescriptionInternal description).run isCancelledError
            (Negotiation.remoteSet e [(.answer, none)]).builder sdp (some error) =
              ⟨[], some (.catchBlock error)⟩ :=
          if_neg (by rw [hcancelled]; exact Bool.false_ne_true)
        refine hkept.handsOn_iff hrun ⟨e, rfl⟩ ?_
        intro e' he'
        obtain rfl := Option.some.inj he'
        exact hcancelled

theorem Continuation.effect_spec (isCancelledError : E → Bool) {w : Continuation E}
    (h : w.Fits r) (hkept : r.Kept True) (peerConnection : Bool)
    (sdp : Option RTCSessionDescription) (error : Option E) :
    (∀ w' ∈ (w.effect isCancelledError peerConnection sdp error r.builder).next,
        w'.Fits (r.after (w.completed error)
          (w.effect isCancelledError peerConnection sdp error r.builder))) ∧
      ((r.after (w.completed error)
          (w.effect isCancelledError peerConnection sdp error r.builder)).Kept
        ((w.effect isCancelledError peerConnection sdp error r.builder).next.isSome = true) ↔
      w.Reports isCancelledError error) := by
  cases w with
  | block b =>
    obtain ⟨hfits, hafter⟩ := SignalingBlock.run_spec h hkept peerConnection
    exact ⟨hfits, iff_of_true hafter trivial⟩
  | completionHandler handler => exact CompletionHandler.run_spec h hkept sdp error
  | catchBlock e =>
    obtain ⟨e', rfl⟩ := h
    exact ⟨nofun, iff_of_true (hkept.answer_rejected rfl _) trivial⟩

theorem SignalingBlock.remaining_run_lt (block : SignalingBlock E) (peerConnection : Bool)
    (caller : PromiseBuilder) :
    ∀ w ∈ (block.run peerConnection caller).next,
      w.remaining < (Continuation.block block).remaining := by
  intro w hw
  cases peerConnection with
  | false => cases block <;> cases hw
  | true =>
    cases block with
    | createOffer | setLocalSessionDescription | setRemoteSessionDescription
    | negotiateAnswerSessionDescription =>
      cases hw
      exact Nat.lt_succ_self _
    | offered sdp error =>
      rcases error with _ | error
      · rcases sdp with _ | sdp <;> cases hw
      · cases hw
    | answered sdp error =>
      rcases error with _ | error
      · rcases sdp with _ | sdp
        · cases hw
        · cases hw
          exact Nat.lt_succ_self _
      · cases hw
    | fulfillAnswer description => cases hw

theorem CompletionHandler.remaining_run_lt (handler : CompletionHandler) (caller : PromiseBuilder)
    (sdp : Option RTCSessionDescription) (error : Option E) :
    ∀ w ∈ (handler.run isCancelledError caller sdp error).next,
      w.remaining < (Continuation.completionHandler handler : Continuation E).remaining := by
  intro w hw
  cases handler with
  | offer | answer =>
    cases hw
    exact Nat.lt_succ_self _
  | setLocalDescription => cases hw
  | setRemoteDescription =>
    obtain ⟨-, hw⟩ := Option.ite_none_right_eq_some.mp hw
    cases hw
    exact Nat.lt_succ_self _
  | setLocalDescriptionInternal description =>
    rcases error with _ | error
    · cases hw
      exact Nat.lt_succ_self _
    · simp only [run] at hw
      split at hw
      · cases hw
      · cases hw
        exact Nat.lt_succ_self _

theorem Continuation.remaining_effect_lt (w : Continuation E) (peerConnection : Bool)
    (sdp : Option RTCSessionDescription) (error : Option E) (caller : PromiseBuilder) :
    ∀ w' ∈ (w.effect isCancelledError peerConnection sdp error caller).next,
      w'.remaining < w.remaining := by
  cases w with
  | block b => exact b.remaining_run_lt peerConnection caller
  | completionHandler handler => exact handler.remaining_run_lt caller sdp error
  | catchBlock e => exact nofun

end

namespace PeerConnectionClient
variable {E : Type*} {isCancelledError : E → Bool} {s s' u : PeerConnectionClient E} {n : ℕ}
  {w : Continuation E} {r r' : Negotiation E} {next : Option (Continuation E)}

/-- One thing is still to run for a call at most, and it fits how far the call has come. -/
structure Steady (s : PeerConnectionClient E) : Prop where
  nodup : (s.continuations.map Prod.fst).Nodup
  fits : ∀ p ∈ s.continuations, ∃ r, s.negotiations[p.1]? = some r ∧ p.2.Fits r

/-- A continuation has run, and has left another one or nothing. -/
structure Advances (s s' : PeerConnectionClient E) (n : ℕ) (w : Continuation E)
    (rest : List (ℕ × Continuation E)) (r' : Negotiation E) (next : Option (Continuation E)) :
    Prop where
  before : s.continuations.Perm ((n, w) :: rest)
  after : s'.continuations.Perm (next.toList.map (n, ·) ++ rest)
  negotiations : s'.negotiations = s.negotiations.set n r'

variable {rest : List (ℕ × Continuation E)}

theorem continuations_submit (s : PeerConnectionClient E) (n : ℕ)
    (next : Option (Continuation E)) :
    (s.submit n next).continuations.Perm (next.toList.map (n, ·) ++ s.continuations) := by
  rcases next with _ | ⟨block⟩ | ⟨handler⟩ | ⟨error⟩
  · exact .refl _
  · simp only [submit, continuations, Option.toList_some, List.map_cons, List.map_nil,
      List.reduceOption_append, List.map_append, List.append_assoc, List.reduceOption_singleton,
      List.singleton_append]
    exact List.perm_middle
  · simp only [submit, continuations, Option.toList_some, List.map_cons, List.map_nil,
      List.map_append, List.append_assoc, List.singleton_append]
    rw [← List.append_assoc, ← List.append_assoc]
    exact List.perm_middle
  · simp only [submit, continuations, Option.toList_some, List.map_cons, List.map_nil,
      List.map_append, List.append_assoc, List.singleton_append]
    rw [← List.append_assoc, ← List.append_assoc, ← List.append_assoc]
    exact List.perm_append_singleton _ _

theorem negotiations_submit (s : PeerConnectionClient E) (n : ℕ)
    (next : Option (Continuation E)) : (s.submit n next).negotiations = s.negotiations := by
  rcases next with _ | ⟨block⟩ | ⟨handler⟩ | ⟨error⟩ <;> rfl

theorem perform_eq {completions : List (WebRTCOperation × Option E)}
    {effect : PromiseBuilder → Effect E} (h : s.negotiations[n]? = some r) :
    s.perform n completions effect =
      { s with negotiations := s.negotiations.set n (r.after completions (effect r.builder)) }.submit
        n (effect r.builder).next := by
  rw [perform, h]
  rfl

/-- Where one continuation is taken and its effect takes place. -/
theorem advances_perform (completions : List (WebRTCOperation × Option E))
    (effect : PromiseBuilder → Effect E) (hbefore : s.continuations.Perm ((n, w) :: rest))
    (hrest : u.continuations = rest) (hsame : u.negotiations = s.negotiations)
    (hr : s.negotiations[n]? = some r) :
    Advances s (u.perform n completions effect) n w rest (r.after completions (effect r.builder))
      (effect r.builder).next := by
  rw [perform_eq (hsame ▸ hr)]
  refine ⟨hbefore, ?_, ?_⟩
  · rw [← hrest]
    exact continuations_submit _ n _
  · rw [negotiations_submit, hsame]

theorem Advances.notMem (h : Advances s s' n w rest r' next) (hs : s.Steady) :
    n ∉ rest.map Prod.fst :=
  (List.nodup_cons.mp ((h.before.map Prod.fst).nodup_iff.mp hs.nodup)).1

theorem Advances.awaited (h : Advances s s' n w rest r' next) (m : ℕ) :
    m ∈ s'.continuations.map Prod.fst ↔ (m = n ∧ next.isSome = true) ∨ m ∈ rest.map Prod.fst := by
  rw [(h.after.map Prod.fst).mem_iff]
  cases next with
  | none => simp
  | some w' => simp

theorem Advances.steady (h : Advances s s' n w rest r' next) (hs : s.Steady)
    (hr : s.negotiations[n]? = some r) (hfits : ∀ w' ∈ next, w'.Fits r') : s'.Steady := by
  have hlength : n < s.negotiations.length := (List.getElem?_eq_some_iff.mp hr).1
  have hrest : ∀ p ∈ rest, p.1 ≠ n := by
    rintro p hp rfl
    exact h.notMem hs (List.mem_map_of_mem hp)
  constructor
  · have hnodup := (List.nodup_cons.mp ((h.before.map Prod.fst).nodup_iff.mp hs.nodup)).2
    rw [(h.after.map Prod.fst).nodup_iff]
    cases next with
    | none => exact hnodup
    | some w' => exact List.nodup_cons.mpr ⟨h.notMem hs, hnodup⟩
  · intro p hp
    rw [h.negotiations]
    rcases List.mem_append.mp (h.after.mem_iff.mp hp) with hp | hp
    · obtain ⟨w', hw', rfl⟩ := List.mem_map.mp hp
      exact ⟨r', List.getElem?_set_self hlength, hfits w' (Option.mem_toList.mp hw')⟩
    · obtain ⟨r'', hr'', hp'⟩ := hs.fits p (h.before.mem_iff.mpr (List.mem_cons_of_mem _ hp))
      exact ⟨r'', by rw [List.getElem?_set_ne (hrest p hp).symm, hr''], hp'⟩

/-- The promises of the other calls are as they were. -/
theorem Advances.promisesKept_iff_kept (h : Advances s s' n w rest r' next) (hs : s.Steady)
    (hr : s.negotiations[n]? = some r) (hkept : s.PromisesKept) :
    s'.PromisesKept ↔ r'.Kept (next.isSome = true) := by
  have hlength : n < s.negotiations.length := (List.getElem?_eq_some_iff.mp hr).1
  have hself : n ∈ s'.continuations.map Prod.fst ↔ next.isSome = true := by
    rw [h.awaited]
    exact ⟨fun hn => hn.elim And.right fun hn => absurd hn (h.notMem hs), fun hn => .inl ⟨rfl, hn⟩⟩
  constructor
  · intro hafter
    have hnow : s'.negotiations[n]? = some r' := by
      rw [h.negotiations, List.getElem?_set_self hlength]
    exact (Negotiation.Kept.congr hself).mp (hafter n r' hnow)
  · intro hafter m negotiation hm
    rw [h.negotiations] at hm
    by_cases hne : m = n
    · subst hne
      rw [List.getElem?_set_self hlength] at hm
      obtain rfl := Option.some.inj hm
      exact (Negotiation.Kept.congr hself).mpr hafter
    · rw [List.getElem?_set_ne (Ne.symm hne)] at hm
      refine (Negotiation.Kept.congr ?_).mp (hkept m negotiation hm)
      rw [h.awaited, (h.before.map Prod.fst).mem_iff, List.map_cons, List.mem_cons]
      simp [hne]

theorem perm_eraseIdx {α : Type*} {l : List α} {i : ℕ} {a : α} (h : l[i]? = some a) :
    l.Perm (a :: l.eraseIdx i) := by
  obtain ⟨hlength, rfl⟩ := List.getElem?_eq_some_iff.mp h
  exact (List.getElem_cons_eraseIdx_perm hlength).symm

/-- Main asks for something. The other events work it off. -/
def Event.asks : Event E → Bool
  | .request _ | .terminate => true
  | .runBlock | .complete _ _ _ | .runCatch _ => false

def terminations (s : PeerConnectionClient E) : ℕ := s.signalingQueue.countP (·.isNone)

/-- How many continuations and terminations can still run for what was asked for. -/
def remaining (s : PeerConnectionClient E) : ℕ :=
  (s.continuations.map (·.2.remaining)).sum + s.terminations

/-- A step makes a call, ends the connection or asks for that, or runs one continuation. -/
theorem step_cases {e : Event E} (hstep : s.step isCancelledError e = some s') :
    (∃ request : Request, e.asks = true ∧
        s'.negotiations = s.negotiations ++ [{ builder := request.builder }] ∧
        s'.continuations.Perm
          ((s.negotiations.length, .block request.block) :: s.continuations) ∧
        s'.terminations = s.terminations ∧ s.CompletionReported isCancelledError e) ∨
      (s'.negotiations = s.negotiations ∧ s'.continuations = s.continuations ∧
        s'.terminations + (if e.asks then 0 else 1) = s.terminations + (if e.asks then 1 else 0) ∧
        s.CompletionReported isCancelledError e) ∨
      ∃ n w u sdp error, e.asks = false ∧ s.continuations.Perm ((n, w) :: continuations u) ∧
        u.negotiations = s.negotiations ∧ u.terminations = s.terminations ∧
        s' = u.perform n (w.completed error)
          (fun caller => w.effect isCancelledError s.peerConnection sdp error caller) ∧
        (s.CompletionReported isCancelledError e ↔ w.Reports isCancelledError error) := by
  cases e with
  | request request =>
    obtain ⟨-, hstep⟩ := Option.ite_none_left_eq_some.mp hstep
    obtain rfl := Option.some.inj hstep
    refine .inl ⟨request, rfl, rfl, continuations_submit s _ (some (.block request.block)), ?_,
      trivial⟩
    simp [terminations, List.countP_append]
  | terminate =>
    obtain ⟨-, hstep⟩ := Option.ite_none_left_eq_some.mp hstep
    obtain rfl := Option.some.inj hstep
    refine .inr (.inl ⟨rfl, ?_, ?_, trivial⟩)
    · simp [continuations, List.reduceOption_append]
    · simp [terminations, Event.asks, List.countP_append]
  | runBlock =>
    simp only [step] at hstep
    split at hstep
    case h_1 => cases hstep
    case h_2 later hqueue =>
      obtain ⟨-, hstep⟩ := Option.ite_none_right_eq_some.mp hstep
      obtain rfl := Option.some.inj hstep
      refine .inr (.inl ⟨rfl, ?_, ?_, trivial⟩)
      · simp [continuations, hqueue]
      · simp [terminations, Event.asks, hqueue]
    case h_3 n block later hqueue =>
      refine .inr (.inr ⟨n, .block block, { s with signalingQueue := later }, none, none, rfl, ?_,
        rfl, ?_, (Option.some.inj hstep).symm, Iff.rfl⟩)
      · simp [continuations, hqueue]
      · simp [terminations, hqueue]
  | complete i sdp error =>
    obtain ⟨⟨n, handler⟩, hi, hstep⟩ := Option.map_eq_some_iff.mp hstep
    refine .inr (.inr ⟨n, .completionHandler handler,
      { s with completionHandlers := s.completionHandlers.eraseIdx i }, sdp, error, rfl, ?_, rfl,
      rfl, hstep.symm, ?_⟩)
    · have hperm := (perm_eraseIdx hi).map fun p =>
        ((p.1, .completionHandler p.2) : ℕ × Continuation E)
      exact ((hperm.append_left _).trans List.perm_middle).append_right _
    · simp [CompletionReported, hi, Continuation.Reports]
  | runCatch i =>
    obtain ⟨-, hstep⟩ := Option.ite_none_left_eq_some.mp hstep
    obtain ⟨⟨n, error⟩, hi, hstep⟩ := Option.map_eq_some_iff.mp hstep
    refine .inr (.inr ⟨n, .catchBlock error,
      { s with catchBlocks := s.catchBlocks.eraseIdx i }, none, none, rfl, ?_, rfl, rfl,
      hstep.symm, Iff.rfl⟩)
    have hperm := (perm_eraseIdx hi).map fun p => ((p.1, .catchBlock p.2) : ℕ × Continuation E)
    exact (hperm.append_left _).trans List.perm_middle

theorem fits_block (request : Request) :
    (Request.block request : SignalingBlock E).Fits { builder := request.builder } := by
  cases request with
  | createOffer => exact rfl
  | setLocalSessionDescription sessionDescription => exact rfl
  | setRemoteSessionDescription sessionDescription => exact .inl rfl
  | negotiateSessionDescription remoteDescription => exact .inr rfl

theorem Steady.lt_length (h : s.Steady) {p : ℕ × Continuation E} (hp : p ∈ s.continuations) :
    p.1 < s.negotiations.length := by
  obtain ⟨r, hr, -⟩ := h.fits p hp
  exact (List.getElem?_eq_some_iff.mp hr).1

/-- A new call has promises of its own. -/
theorem steady_of_request {request : Request} (hs : s.Steady)
    (hnegotiations : s'.negotiations = s.negotiations ++ [{ builder := request.builder }])
    (hcontinuations : s'.continuations.Perm
      ((s.negotiations.length, .block request.block) :: s.continuations)) : s'.Steady := by
  constructor
  · rw [(hcontinuations.map Prod.fst).nodup_iff]
    refine List.nodup_cons.mpr ⟨?_, hs.nodup⟩
    intro hmem
    obtain ⟨p, hp, heq⟩ := List.mem_map.mp hmem
    exact Nat.lt_irrefl _ (heq ▸ hs.lt_length hp)
  · intro p hp
    rw [hnegotiations]
    rcases List.mem_cons.mp (hcontinuations.mem_iff.mp hp) with rfl | hp
    · exact ⟨_, List.getElem?_concat_length, fits_block request⟩
    · obtain ⟨r, hr, hfits⟩ := hs.fits p hp
      exact ⟨r, (List.getElem?_append_left (hs.lt_length hp)).trans hr, hfits⟩

theorem promisesKept_of_request {request : Request} (hkept : s.PromisesKept)
    (hnegotiations : s'.negotiations = s.negotiations ++ [{ builder := request.builder }])
    (hcontinuations : s'.continuations.Perm
      ((s.negotiations.length, .block request.block) :: s.continuations)) : s'.PromisesKept := by
  intro m negotiation hm
  rw [hnegotiations] at hm
  have hawaited : m ∈ s'.continuations.map Prod.fst ↔
      m = s.negotiations.length ∨ m ∈ s.continuations.map Prod.fst := by
    rw [(hcontinuations.map Prod.fst).mem_iff]
    exact List.mem_cons
  by_cases hlt : m < s.negotiations.length
  · rw [List.getElem?_append_left hlt] at hm
    refine (Negotiation.Kept.congr ?_).mpr (hkept m negotiation hm)
    rw [hawaited]
    exact or_iff_right (Nat.ne_of_lt hlt)
  · rw [List.getElem?_append_right (Nat.not_lt.mp hlt)] at hm
    obtain ⟨hindex, rfl⟩ := List.getElem?_eq_some_iff.mp hm
    rw [List.length_singleton] at hindex
    rw [List.getElem_singleton]
    exact ⟨.nil, nofun, fun hnot => absurd (hawaited.mpr (.inl (by omega))) hnot⟩

/-- A step keeps the promises if what WebRTC completes is reported, and otherwise breaks one. -/
theorem step_spec {e : Event E} (hs : s.Steady) (hkept : s.PromisesKept)
    (hstep : s.step isCancelledError e = some s') :
    s'.Steady ∧ (s'.PromisesKept ↔ s.CompletionReported isCancelledError e) := by
  rcases step_cases hstep with ⟨request, -, hnegotiations, hcontinuations, -, hreported⟩ |
    ⟨hnegotiations, hcontinuations, -, hreported⟩ |
    ⟨n, w, u, sdp, error, -, hbefore, hsame, -, rfl, hreported⟩
  · exact ⟨steady_of_request hs hnegotiations hcontinuations,
      iff_of_true (promisesKept_of_request hkept hnegotiations hcontinuations) hreported⟩
  · refine ⟨⟨hcontinuations ▸ hs.nodup, ?_⟩, iff_of_true ?_ hreported⟩
    · rw [hcontinuations, hnegotiations]
      exact hs.fits
    · unfold PromisesKept
      rw [hcontinuations, hnegotiations]
      exact hkept
  · have hmem : (n, w) ∈ s.continuations := hbefore.mem_iff.mpr List.mem_cons_self
    obtain ⟨r, hr, hfits⟩ := hs.fits (n, w) hmem
    have hawaited : r.Kept True :=
      (Negotiation.Kept.congr (iff_true_intro (List.mem_map_of_mem hmem))).mp (hkept n r hr)
    have hadvances := advances_perform (w.completed error)
      (fun caller => w.effect isCancelledError s.peerConnection sdp error caller)
      hbefore rfl hsame hr
    obtain ⟨hnext, hafter⟩ :=
      Continuation.effect_spec isCancelledError hfits hawaited s.peerConnection sdp error
    exact ⟨hadvances.steady hs hr hnext,
      (hadvances.promisesKept_iff_kept hs hr hkept).trans (hafter.trans hreported.symm)⟩

theorem steady_init : (machine isCancelledError).init.Steady := ⟨.nil, nofun⟩

theorem promisesKept_init : (machine isCancelledError).init.PromisesKept := by
  intro n negotiation hn
  cases hn

/-- The promises of all calls are kept, in every state, as long as every error of a description that
is set for a promise of its own is missing, and no description of an answer is cancelled. -/
theorem promisesKept_iff {tr : History (PeerConnectionClient E) (Event E)}
    (h : (machine isCancelledError).Run tr) :
    Machine.Always (fun tr => ((machine isCancelledError).last tr).PromisesKept) tr ↔
      Machine.Guarded (fun tr e =>
        ((machine isCancelledError).last tr).CompletionReported isCancelledError e) tr := by
  refine h.always_iff_guarded_of_guarded promisesKept_init ?_
  intro tr e s hrun hguarded hkept hstep
  have hboth : ((machine isCancelledError).last tr).Steady ∧
      ((machine isCancelledError).last tr).PromisesKept := by
    refine hrun.of_guarded (P := fun tr => ((machine isCancelledError).last tr).Steady ∧
      ((machine isCancelledError).last tr).PromisesKept) ⟨steady_init, promisesKept_init⟩ ?_ hguarded
    intro tr e s _ hboth hstep hguard
    obtain ⟨hsteady, hiff⟩ := step_spec hboth.1 hboth.2 hstep
    exact ⟨hsteady, hiff.mpr hguard⟩
  exact (step_spec hboth.1 hkept hstep).2

/-- WebRTC does not take the remote description. -/
def refusedRemoteDescription : List (Event Bool) :=
  [.request (.negotiateSessionDescription ⟨.offer, "v=0".toList⟩), .runBlock,
    .complete 0 none (some false)]

/-- The promise is fulfilled, and the negotiation goes on to the answer. -/
theorem not_promisesKept : ∃ tr, (machine (E := Bool) id).exec refusedRemoteDescription = some tr ∧
    (((machine id).last tr).negotiations.map fun r => (r.completions, r.settlements)) =
      [([(.setRemoteDescription, some false)], [(.setRemoteSessionDescription, .fulfilled none)])] ∧
    ¬ Machine.Always (fun tr => ((machine id).last tr).PromisesKept) tr := by
  have hexec : ((machine (E := Bool) id).exec refusedRemoteDescription).map (fun tr =>
      decide ((((machine id).last tr).negotiations.map fun r => (r.completions, r.settlements)) =
        [([(.setRemoteDescription, some false)],
          [(.setRemoteSessionDescription, .fulfilled none)])])) = some true := by decide +kernel
  obtain ⟨tr, htr, hlast⟩ := Option.map_eq_some_iff.mp hexec
  replace hlast := of_decide_eq_true hlast
  refine ⟨tr, htr, hlast, ?_⟩
  intro h
  obtain ⟨r, hr, hsame⟩ := List.map_eq_singleton_iff.mp hlast
  obtain ⟨hcompletions, hsettlements⟩ := Prod.mk.inj hsame
  have hkept := h.last 0 r (by rw [hr]; rfl)
  have hmem := hkept.fulfilled (.setRemoteSessionDescription, .fulfilled none)
    (hsettlements ▸ List.mem_singleton_self _) rfl .setRemoteDescription List.mem_cons_self
  rw [hcompletions] at hmem
  cases List.mem_singleton.mp hmem

/-- WebRTC does not take the local description of the answer, which the main thread rejects. -/
def refusedAnswer : List (Event Bool) :=
  [.request (.negotiateSessionDescription ⟨.offer, "v=0".toList⟩), .runBlock, .complete 0 none none,
    .runBlock, .complete 0 (some ⟨.answer, "v=0".toList⟩) none, .runBlock,
    .complete 0 none (some false), .runCatch 0]

theorem promisesKept_of_refusedAnswer :
    ∃ tr, (machine (E := Bool) id).exec refusedAnswer = some tr ∧
      Machine.Always (fun tr => ((machine id).last tr).PromisesKept) tr := by
  have hexec : ((machine (E := Bool) id).exec refusedAnswer).map (fun tr =>
      decide (Machine.Guarded (fun tr e => ((machine id).last tr).CompletionReported id e) tr)) =
      some true := by decide +kernel
  obtain ⟨tr, htr, hguarded⟩ := Option.map_eq_some_iff.mp hexec
  exact ⟨tr, htr, (promisesKept_iff (Machine.run_of_exec htr)).mpr (of_decide_eq_true hguarded)⟩

/-! Promises are not awaited forever: what a call asks for comes to an end. -/

theorem remaining_of_perm {p : ℕ × Continuation E}
    (hbefore : s.continuations.Perm (p :: u.continuations))
    (hterminations : u.terminations = s.terminations) :
    s.remaining = p.2.remaining + u.remaining := by
  rw [remaining, remaining, (hbefore.map _).sum_eq, List.map_cons, List.sum_cons, hterminations]
  omega

theorem remaining_submit (s : PeerConnectionClient E) (n : ℕ)
    (next : Option (Continuation E)) :
    (s.submit n next).remaining = next.elim 0 Continuation.remaining + s.remaining := by
  cases next with
  | none => exact (Nat.zero_add _).symm
  | some w =>
    refine remaining_of_perm (continuations_submit s n (some w)) ?_
    rcases w with ⟨block⟩ | ⟨handler⟩ | ⟨error⟩
    · simp [submit, terminations, List.countP_append]
    · rfl
    · rfl

theorem remaining_perform_lt {completions : List (WebRTCOperation × Option E)}
    {effect : PromiseBuilder → Effect E} {k : ℕ} (hk : 0 < k)
    (hnext : ∀ caller, ∀ w ∈ (effect caller).next, w.remaining < k) :
    (s.perform n completions effect).remaining < k + s.remaining := by
  unfold perform
  split
  · omega
  · rename_i negotiation _
    rw [remaining_submit]
    have hless : (effect negotiation.builder).next.elim 0 Continuation.remaining < k := by
      cases hcase : (effect negotiation.builder).next with
      | none => exact hk
      | some w => exact hnext _ w hcase
    exact Nat.add_lt_add_right hless _

theorem remaining_block_le (request : Request) :
    (Continuation.block (Request.block request) : Continuation E).remaining ≤ 7 := by
  cases request <;> simp [Request.block, Continuation.remaining]

/-- A call takes seven continuations at most. -/
theorem remaining_step {e : Event E} (hstep : s.step isCancelledError e = some s') :
    s'.remaining + (if e.asks then 0 else 1) ≤ s.remaining + if e.asks then 7 else 0 := by
  rcases step_cases hstep with ⟨request, hasks, -, hcontinuations, hterminations, -⟩ |
    ⟨-, hcontinuations, hterminations, -⟩ |
    ⟨n, w, u, sdp, error, hasks, hbefore, -, hterminations, rfl, -⟩
  · have hblock := remaining_block_le (E := E) request
    rw [remaining_of_perm hcontinuations hterminations.symm, hasks]
    simp only [if_true]
    omega
  · rw [remaining, remaining, hcontinuations]
    cases hasks : e.asks with
    | false =>
      simp only [hasks, Bool.false_eq_true, if_false] at hterminations ⊢
      omega
    | true =>
      simp only [hasks, if_true] at hterminations ⊢
      omega
  · have hless : (u.perform n (w.completed error) fun caller =>
        w.effect isCancelledError s.peerConnection sdp error caller).remaining <
          w.remaining + u.remaining :=
      remaining_perform_lt w.remaining_pos (w.remaining_effect_lt s.peerConnection sdp error)
    rw [remaining_of_perm hbefore hterminations, hasks]
    simp only [Bool.false_eq_true, if_false]
    omega

/-- In a run there are seven times as many continuations and terminations as calls at most, so that
no promise is awaited forever. -/
theorem countP_not_asks_le {tr : History (PeerConnectionClient E) (Event E)}
    (h : (machine isCancelledError).Run tr) :
    tr.countP (fun p => !p.1.asks) + ((machine isCancelledError).last tr).remaining ≤
      7 * tr.countP (·.1.asks) := by
  induction tr with
  | nil => exact Nat.le_refl 0
  | cons p tr ih =>
    have hstep := remaining_step h.2
    have hbefore := ih h.1
    rw [List.countP_cons, List.countP_cons, Machine.last_cons]
    cases hasks : p.1.asks with
    | false =>
      simp only [hasks, Bool.false_eq_true, Bool.not_false, if_false, if_true] at hstep ⊢
      omega
    | true =>
      simp only [hasks, Bool.false_eq_true, Bool.not_true, if_false, if_true] at hstep ⊢
      omega

end PeerConnectionClient

end SignalIOS.Call.PeerConnection
