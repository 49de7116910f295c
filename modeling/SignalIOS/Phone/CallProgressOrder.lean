import SignalIOS.Phone.CallController
import SignalIOS.Util.ObservableWatchers

/-! The progress of a call goes forward only, up to its termination. -/
namespace SignalIOS.Phone
open SignalIOS.Lib

theorem CallProgressType.rawValue_le_terminated (type : CallProgressType) :
    type.rawValue ≤ CallProgressType.terminated.rawValue := by
  cases type <;> decide

theorem CallProgressType.eq_terminated {type : CallProgressType}
    (h : CallProgressType.terminated.rawValue ≤ type.rawValue) : type = .terminated := by
  cases type with
  | terminated => rfl
  | _ => exact absurd h (by decide)

namespace CallController
variable {I C T : Type*}

/-- The actions that a controller submits. There is one termination at most, and the value is
sealed behind it. -/
inductive Disciplined : Bool → List (QueuedAction CallProgress C) → Prop
  | nil : Disciplined false []
  | watch {terminated : Bool} {actions : List (QueuedAction CallProgress C)} (callback : C)
    (h : Disciplined terminated actions) : Disciplined terminated (actions ++ [.watch callback])
  | unwatch {terminated : Bool} {actions : List (QueuedAction CallProgress C)} (callback : C)
    (h : Disciplined terminated actions) : Disciplined terminated (actions ++ [.unwatch callback])
  | advance {terminated : Bool} {actions : List (QueuedAction CallProgress C)}
    {type : CallProgressType} (address : ℕ) (htype : type ≠ .terminated)
    (h : Disciplined terminated actions) :
    Disciplined terminated (actions ++ [.adjustValue (advance type address)])
  | terminate {actions : List (QueuedAction CallProgress C)} (address : ℕ)
    (h : Disciplined false actions) :
    Disciplined true (actions ++ [.adjustValue (CallController.advance .terminated address)])
  | sealValue {actions : List (QueuedAction CallProgress C)} (h : Disciplined true actions) :
    Disciplined true (actions ++ [.sealValue])

/-- What watchers see of a call. -/
structure Forward (seen : List (Sighting CallProgress)) : Prop where
  nondecreasing : seen.Pairwise fun earlier later =>
    earlier.value.type.rawValue ≤ later.value.type.rawValue
  /-- Behind the termination the callback is called only for another registration of it. -/
  terminatedLast : seen.Pairwise fun earlier later =>
    earlier.value.type = .terminated → later.onRegistration = true ∧ later.value = earlier.value

theorem Forward.earlier {seen seen' : List (Sighting CallProgress)} (h : Forward seen')
    (hinitial : seen <+: seen') : Forward seen :=
  ⟨h.nondecreasing.sublist hinitial.sublist, h.terminatedLast.sublist hinitial.sublist⟩

/-- The value is the latest that anyone has seen, and a termination is seen once. -/
structure UpTo (now : CallProgress) (seen : List (Sighting CallProgress)) : Prop
    extends Forward seen where
  le : ∀ x ∈ seen, x.value.type.rawValue ≤ now.type.rawValue
  eq : ∀ x ∈ seen, x.value.type = .terminated → x.value = now

namespace UpTo
variable {now : CallProgress} {seen : List (Sighting CallProgress)}

theorem nil : UpTo now [] :=
  ⟨⟨List.Pairwise.nil, List.Pairwise.nil⟩, fun _ h => absurd h List.not_mem_nil,
    fun _ h => absurd h List.not_mem_nil⟩

/-- A registration shows the current value. -/
theorem register (h : UpTo now seen) : UpTo now (seen ++ [⟨now, true⟩]) := by
  constructor
  case toForward =>
    constructor
    · apply List.pairwise_append.mpr
      refine ⟨h.nondecreasing, List.pairwise_singleton _ _, ?_⟩
      intro x hx y hy
      obtain rfl := List.mem_singleton.mp hy
      exact h.le x hx
    · apply List.pairwise_append.mpr
      refine ⟨h.terminatedLast, List.pairwise_singleton _ _, ?_⟩
      intro x hx y hy hterminated
      obtain rfl := List.mem_singleton.mp hy
      exact ⟨rfl, (h.eq x hx hterminated).symm⟩
  case le =>
    intro x hx
    rcases List.mem_append.mp hx with hx | hx
    · exact h.le x hx
    · obtain rfl := List.mem_singleton.mp hx
      exact Nat.le_refl _
  case eq =>
    intro x hx hterminated
    rcases List.mem_append.mp hx with hx | hx
    · exact h.eq x hx hterminated
    · obtain rfl := List.mem_singleton.mp hx
      rfl

/-- A change goes forward, from a value that is no termination. -/
theorem change (h : UpTo now seen) {newValue : CallProgress} (hnow : now.type ≠ .terminated)
    (hle : now.type.rawValue ≤ newValue.type.rawValue) {notified : List (Sighting CallProgress)}
    (hnotified : notified = [⟨newValue, false⟩] ∨ notified = []) :
    UpTo newValue (seen ++ notified) := by
  have hunseen (x : Sighting CallProgress) (hx : x ∈ seen) : x.value.type ≠ .terminated := by
    intro hterminated
    rw [h.eq x hx hterminated] at hterminated
    exact hnow hterminated
  have hmem (x : Sighting CallProgress) (hx : x ∈ notified) : x = ⟨newValue, false⟩ := by
    rcases hnotified with rfl | rfl
    · exact List.mem_singleton.mp hx
    · cases hx
  have hsingle (R : Sighting CallProgress → Sighting CallProgress → Prop) : notified.Pairwise R := by
    rcases hnotified with rfl | rfl
    · exact List.pairwise_singleton _ _
    · exact List.Pairwise.nil
  constructor
  case toForward =>
    constructor
    · apply List.pairwise_append.mpr
      refine ⟨h.nondecreasing, hsingle _, ?_⟩
      intro x hx y hy
      rw [hmem y hy]
      exact (h.le x hx).trans hle
    · apply List.pairwise_append.mpr
      refine ⟨h.terminatedLast, hsingle _, ?_⟩
      intro x hx y hy hterminated
      exact absurd hterminated (hunseen x hx)
  case le =>
    intro x hx
    rcases List.mem_append.mp hx with hx | hx
    · exact (h.le x hx).trans hle
    · rw [hmem x hx]
  case eq =>
    intro x hx hterminated
    rcases List.mem_append.mp hx with hx | hx
    · exact absurd hterminated (hunseen x hx)
    · rw [hmem x hx]

end UpTo

variable [DecidableEq C]

/-- The value that the actions lead to, when they are performed one after the other. -/
abbrev performed (actions : List (QueuedAction CallProgress C)) : SequentialValue CallProgress C :=
  .performAll { currentValue := ⟨0, .connecting⟩ } actions

/-- What holds of it, once the termination has been submitted, or before. -/
structure Orderly (terminated : Bool) (s : SequentialValue CallProgress C) : Prop where
  upTo : ∀ callback, UpTo s.currentValue (s.seen callback)
  isTerminated : terminated = true ↔ s.currentValue.type = .terminated
  isSealed : s.sealed = true → terminated = true

namespace Orderly
variable {terminated : Bool} {s : SequentialValue CallProgress C}

/-- A new value, behind one that is no termination. -/
theorem assignValue (h : Orderly terminated s) {newValue : CallProgress}
    (hnow : s.currentValue.type ≠ .terminated)
    (hle : s.currentValue.type.rawValue ≤ newValue.type.rawValue) {terminated' : Bool}
    (hterminated : terminated' = true ↔ newValue.type = .terminated) :
    Orderly terminated' (s.assignValue newValue) := by
  have hunsealed : ¬ s.sealed = true := fun hsealed =>
    hnow (h.isTerminated.mp (h.isSealed hsealed))
  unfold SequentialValue.assignValue
  split
  case isTrue hsame =>
    rw [hsame] at hterminated
    exact ⟨h.upTo, hterminated, fun hsealed => absurd hsealed hunsealed⟩
  case isFalse =>
    refine ⟨fun callback => ?_, hterminated, fun hsealed => absurd hsealed hunsealed⟩
    apply (h.upTo callback).change hnow hle
    split
    · exact .inl rfl
    · exact .inr rfl

/-- An adjustment that keeps the value. -/
theorem keep (h : Orderly terminated s) {newValue : CallProgress}
    (hsame : newValue = s.currentValue) : Orderly terminated (s.assignValue newValue) := by
  unfold SequentialValue.assignValue
  rw [if_pos hsame]
  exact h

theorem advance (h : Orderly terminated s) {type : CallProgressType} (address : ℕ)
    (htype : type ≠ .terminated) :
    Orderly terminated (s.perform (.adjustValue (CallController.advance type address))) := by
  show Orderly terminated (s.assignValue (CallController.advance type address s.currentValue))
  unfold CallController.advance
  split
  case isTrue => exact h.keep rfl
  case isFalse hle =>
    have hnow : s.currentValue.type ≠ .terminated := by
      intro hterminated
      rw [hterminated] at hle
      exact htype (CallProgressType.eq_terminated (Nat.le_of_not_lt hle))
    apply h.assignValue hnow (Nat.le_of_not_lt hle)
    constructor
    · exact fun hterminated => absurd (h.isTerminated.mp hterminated) hnow
    · exact fun hterminated => absurd hterminated htype

theorem terminate (h : Orderly false s) (address : ℕ) :
    Orderly true (s.perform (.adjustValue (CallController.advance .terminated address))) := by
  have hnow : s.currentValue.type ≠ .terminated := fun hterminated =>
    Bool.false_ne_true (h.isTerminated.mpr hterminated)
  have hle : s.currentValue.type.rawValue ≤ CallProgressType.terminated.rawValue :=
    CallProgressType.rawValue_le_terminated _
  show Orderly true (s.assignValue (CallController.advance .terminated address s.currentValue))
  unfold CallController.advance
  rw [if_neg (Nat.not_lt.mpr hle)]
  exact h.assignValue hnow hle ⟨fun _ => rfl, fun _ => rfl⟩

end Orderly

theorem Disciplined.orderly {terminated : Bool} {actions : List (QueuedAction CallProgress C)}
    (h : Disciplined terminated actions) : Orderly terminated (performed actions) := by
  induction h with
  | nil =>
    refine ⟨fun _ => UpTo.nil, ?_, fun hsealed => by cases hsealed⟩
    constructor <;> intro h <;> cases h
  | watch callback h ih =>
    rw [performed, SequentialValue.performAll_append]
    refine ⟨fun c => ?_, ih.isTerminated, ih.isSealed⟩
    show UpTo _ (_ ++ if c = callback then _ else _)
    split
    · exact (ih.upTo c).register
    · rw [List.append_nil]
      exact ih.upTo c
  | unwatch callback h ih =>
    rw [performed, SequentialValue.performAll_append]
    exact ⟨ih.upTo, ih.isTerminated, ih.isSealed⟩
  | advance address htype h ih =>
    rw [performed, SequentialValue.performAll_append]
    exact ih.advance address htype
  | terminate address h ih =>
    rw [performed, SequentialValue.performAll_append]
    exact ih.terminate address
  | sealValue h ih =>
    rw [performed, SequentialValue.performAll_append]
    exact ⟨ih.upTo, ih.isTerminated, fun _ => rfl⟩

/-- A sealed value is a termination, which no advance changes. -/
theorem Disciplined.neverRaises {terminated : Bool} {actions : List (QueuedAction CallProgress C)}
    (h : Disciplined terminated actions) :
    SequentialValue.NeverRaises { currentValue := ⟨0, .connecting⟩ } actions := by
  induction h with
  | nil => exact fun before action after hsplit => by simp at hsplit
  | watch callback h ih => exact ih.append_singleton id
  | unwatch callback h ih => exact ih.append_singleton id
  | @advance terminated actions type address htype h ih =>
    apply ih.append_singleton
    rintro ⟨hsealed, hchanges⟩
    have hnow := h.orderly.isTerminated.mp (h.orderly.isSealed hsealed)
    have hlt : type.rawValue < (performed actions).currentValue.type.rawValue := by
      rw [hnow]
      cases type with
      | terminated => exact absurd rfl htype
      | _ => decide
    exact hchanges (if_pos hlt)
  | terminate address h ih =>
    apply ih.append_singleton
    rintro ⟨hsealed, -⟩
    exact Bool.false_ne_true (h.orderly.isSealed hsealed)
  | sealValue h ih => exact ih.append_singleton id

/-- The calls that have nothing to do with a termination that counts. -/
inductive Fresh : List (CallStep I) → Prop
  | returned : Fresh []
  | advance {type : CallProgressType} (htype : type ≠ .terminated) :
    Fresh [.unrestrictedAdvanceCallProgressTo type]
  | denyAndTerminate : Fresh [.denyAndTerminate]
  | acceptCall : Fresh [.acceptCall]
  | setShortAuthenticationString (sas : String) :
    Fresh [.setShortAuthenticationString sas, .unrestrictedAdvanceCallProgressTo .talking]
  | rejectionOrRemoteHangup (failureInfo relatedInfo : Option I) :
    Fresh [.rejectionOrRemoteHangup failureInfo relatedInfo]
  | terminate (t : CallTermination I) : Fresh (terminate t)

/-- What the call that has set the termination has left to do, before and behind the submission of
the last advance. -/
inductive Terminating (t : CallTermination I) : Bool → List (CallStep I) → Prop
  | advance : Terminating t false [.unrestrictedAdvanceCallProgressTo .terminated,
      .failAcceptedOrDenied t, .cancelCanceller, .failShortAuthenticationString t, .sealProgress]
  | failAcceptedOrDenied : Terminating t true [.failAcceptedOrDenied t, .cancelCanceller,
      .failShortAuthenticationString t, .sealProgress]
  | cancelCanceller : Terminating t true [.cancelCanceller, .failShortAuthenticationString t,
      .sealProgress]
  | failShortAuthenticationString :
    Terminating t true [.failShortAuthenticationString t, .sealProgress]
  | sealProgress : Terminating t true [.sealProgress]
  | returned : Terminating t true []

theorem Method.fresh_steps (method : Method I) : Fresh method.steps := by
  cases method with
  | advanceCallProgressTo type =>
    dsimp only [steps]
    split
    case isTrue hlt =>
      apply Fresh.advance
      rintro rfl
      exact absurd hlt (by decide)
    case isFalse => exact .returned
  | hangupOrDenyCall => exact .denyAndTerminate
  | acceptCall => exact .acceptCall
  | advanceCallProgressToConversingWithShortAuthenticationString sas =>
    exact .setShortAuthenticationString sas
  | terminateWithRejectionOrRemoteHangup failureInfo relatedInfo =>
    exact .rejectionOrRemoteHangup failureInfo relatedInfo
  | terminateWithReason t => exact .terminate t
  | backgroundTimeExpired => exact .terminate _

/-- At most one call terminates, and only if there is a termination. -/
inductive Calls : Option (CallTermination I) → Bool → List (List (CallStep I)) → Prop
  | running {inProgress : List (List (CallStep I))} (h : ∀ p ∈ inProgress, Fresh p) :
    Calls none false inProgress
  | terminating {inProgress : List (List (CallStep I))} {t : CallTermination I} {terminated : Bool}
    (i : ℕ) (later : List (CallStep I)) (hi : inProgress[i]? = some later)
    (hlater : Terminating t terminated later)
    (h : ∀ j p, j ≠ i → inProgress[j]? = some p → Fresh p) :
    Calls (some t) terminated inProgress

namespace Calls
variable {termination : Option (CallTermination I)} {terminated : Bool}
  {inProgress : List (List (CallStep I))} {first : CallStep I} {later : List (CallStep I)} {i : ℕ}

theorem call (h : Calls termination terminated inProgress) {p : List (CallStep I)} (hp : Fresh p) :
    Calls termination terminated (inProgress ++ [p]) := by
  cases h with
  | running h =>
    apply Calls.running
    intro q hq
    rcases List.mem_append.mp hq with hq | hq
    · exact h q hq
    · rwa [List.mem_singleton.mp hq]
  | terminating i later hi hlater h =>
    have hlt := (List.getElem?_eq_some_iff.mp hi).1
    refine .terminating i later (by rwa [List.getElem?_append_left hlt]) hlater fun j q hj hq => ?_
    rcases Nat.lt_or_ge j inProgress.length with hjlt | hjge
    · rw [List.getElem?_append_left hjlt] at hq
      exact h j q hj hq
    · rw [List.getElem?_append_right hjge, List.getElem?_singleton] at hq
      split at hq
      · rwa [← Option.some.inj hq]
      · cases hq

theorem getElem?_set_cases {p q : List (CallStep I)} {j : ℕ}
    (h : (inProgress.set i p)[j]? = some q) : (j = i ∧ q = p) ∨ (j ≠ i ∧ inProgress[j]? = some q) := by
  by_cases hj : j = i
  · subst hj
    rw [List.getElem?_set_self' ] at h
    obtain ⟨_, -, rfl⟩ := Option.map_eq_some_iff.mp h
    exact .inl ⟨rfl, rfl⟩
  · rw [List.getElem?_set_ne (Ne.symm hj)] at h
    exact .inr ⟨hj, h⟩

/-- A call that is fresh goes on, as one that is. -/
theorem set_fresh (h : Calls termination terminated inProgress)
    (hi : inProgress[i]? = some (first :: later)) (hfresh : Fresh (first :: later))
    {p : List (CallStep I)} (hp : Fresh p) : Calls termination terminated (inProgress.set i p) := by
  cases h with
  | running h =>
    apply Calls.running
    intro q hq
    rcases List.mem_or_eq_of_mem_set hq with hq | rfl
    · exact h q hq
    · exact hp
  | terminating k rest hk hrest h =>
    have hne : k ≠ i := by
      rintro rfl
      obtain rfl := Option.some.inj (hi.symm.trans hk)
      cases hrest <;> cases hfresh
    refine .terminating k rest (by rwa [List.getElem?_set_ne hne.symm]) hrest fun j q hj hq => ?_
    rcases getElem?_set_cases hq with ⟨-, rfl⟩ | ⟨-, hq⟩
    · exact hp
    · exact h j q hj hq

/-- The call that terminates goes on. -/
theorem set_terminating {t : CallTermination I} (h : Calls (some t) terminated inProgress)
    (hi : inProgress[i]? = some (first :: later)) (hnot : ¬ Fresh (first :: later))
    {terminated' : Bool} {p : List (CallStep I)} (hp : Terminating t terminated' p) :
    Calls (some t) terminated' (inProgress.set i p) := by
  cases h with
  | terminating k rest hk hrest h =>
    have heq : k = i := by
      by_contra hne
      exact hnot (h i _ (Ne.symm hne) hi)
    subst heq
    have hlt := (List.getElem?_eq_some_iff.mp hi).1
    refine .terminating k p (List.getElem?_set_self hlt) hp fun j q hj hq => ?_
    rcases getElem?_set_cases hq with ⟨hj', -⟩ | ⟨-, hq⟩
    · exact absurd hj' hj
    · exact h j q hj hq

/-- The first call to set the termination is the one that terminates. -/
theorem set_termination {t : CallTermination I} (h : Calls none terminated inProgress)
    (hi : inProgress[i]? = some (first :: later)) {p : List (CallStep I)}
    (hp : Terminating t false p) : Calls (some t) false (inProgress.set i p) := by
  cases h with
  | running h =>
    have hlt := (List.getElem?_eq_some_iff.mp hi).1
    refine .terminating i p (List.getElem?_set_self hlt) hp fun j q hj hq => ?_
    rcases getElem?_set_cases hq with ⟨hj', -⟩ | ⟨-, hq⟩
    · exact absurd hj' hj
    · exact h q (List.mem_of_getElem? hq)

/-- What a call that is not fresh has left to do. -/
theorem terminating_of_notFresh (h : Calls termination terminated inProgress)
    (hi : inProgress[i]? = some (first :: later)) (hnot : ¬ Fresh (first :: later)) :
    ∃ t, termination = some t ∧ Terminating t terminated (first :: later) := by
  cases h with
  | running h => exact absurd (h _ (List.mem_of_getElem? hi)) hnot
  | @terminating _ t _ k rest hk hrest h =>
    have heq : k = i := by
      by_contra hne
      exact hnot (h i _ (Ne.symm hne) hi)
    subst heq
    obtain rfl := Option.some.inj (hi.symm.trans hk)
    exact ⟨t, rfl, hrest⟩

end Calls

/-- What the calls in progress and the actions submitted so far are like. -/
structure Steady (terminated : Bool) (s : CallController I C T) : Prop where
  firstReason : s.termination = s.terminations.head?
  calls : Calls s.termination terminated s.inProgress
  disciplined : Disciplined terminated s.progress.submitted

variable [DecidableEq T] {s s' : CallController I C T} {terminated : Bool}

omit [DecidableEq C] in
/-- The first termination is kept, and the call that has set it terminates. -/
theorem Steady.setTermination (h : Steady terminated s) {i : ℕ} {t : CallTermination I}
    {later : List (CallStep I)} (hi : s.inProgress[i]? = some (.setTermination t :: later))
    (hlater : later = (terminate t).tail)
    (hset : ∀ {p : List (CallStep I)}, Fresh p →
      Calls s.termination terminated (s.inProgress.set i p)) :
    ∃ terminated', Steady terminated' { (s.execute later (.setTermination t)).1 with
      inProgress := (s.execute later (.setTermination t)).1.inProgress.set i
        (s.execute later (.setTermination t)).2 } := by
  have hcalls := h.calls
  have hfirst := h.firstReason
  have hkept := @hset _ .returned
  unfold CallController.execute trySet
  cases htermination : s.termination with
  | none =>
    rw [htermination] at hcalls hfirst
    have hempty : s.terminations = [] := List.head?_eq_none_iff.mp hfirst.symm
    cases hcalls with
    | running hfresh =>
      refine ⟨false, ?_, ?_, h.disciplined⟩
      · dsimp only
        rw [hempty]
        rfl
      · subst hlater
        exact (Calls.running hfresh).set_termination hi .advance
  | some t' =>
    rw [htermination] at hfirst hkept
    refine ⟨terminated, ?_, hkept, h.disciplined⟩
    dsimp only
    rw [List.head?_append, ← hfirst]
    rfl

omit [DecidableEq C] in
theorem Steady.execute (h : Steady terminated s) {i : ℕ} {first : CallStep I}
    {later : List (CallStep I)} (hi : s.inProgress[i]? = some (first :: later)) :
    ∃ terminated', Steady terminated' { (s.execute later first).1 with
      inProgress := (s.execute later first).1.inProgress.set i (s.execute later first).2 } := by
  by_cases hfresh : Fresh (first :: later)
  · have hset {p : List (CallStep I)} (hp : Fresh p) :
        Calls s.termination terminated (s.inProgress.set i p) := h.calls.set_fresh hi hfresh hp
    generalize hp : first :: later = p at hfresh
    cases hfresh with
    | returned => cases hp
    | advance htype =>
      obtain ⟨rfl, rfl⟩ := List.cons.inj hp
      refine ⟨terminated, h.firstReason, hset .returned, ?_⟩
      show Disciplined terminated (s.progress.queueRun _).submitted
      rw [ObservableValue.submitted_queueRun]
      exact .advance _ htype h.disciplined
    | denyAndTerminate =>
      obtain ⟨rfl, rfl⟩ := List.cons.inj hp
      exact ⟨terminated, h.firstReason, hset (.terminate _), h.disciplined⟩
    | acceptCall =>
      obtain ⟨rfl, rfl⟩ := List.cons.inj hp
      exact ⟨terminated, h.firstReason, hset .returned, h.disciplined⟩
    | setShortAuthenticationString sas =>
      obtain ⟨rfl, rfl⟩ := List.cons.inj hp
      exact ⟨terminated, h.firstReason, hset (.advance (by decide)), h.disciplined⟩
    | rejectionOrRemoteHangup failureInfo relatedInfo =>
      obtain ⟨rfl, rfl⟩ := List.cons.inj hp
      exact ⟨terminated, h.firstReason, hset (.terminate _), h.disciplined⟩
    | terminate t =>
      obtain ⟨rfl, rfl⟩ := List.cons.inj hp
      exact h.setTermination hi rfl hset
  · obtain ⟨t, htermination, hterminating⟩ := h.calls.terminating_of_notFresh hi hfresh
    have hset {terminated' : Bool} {p : List (CallStep I)} (hp : Terminating t terminated' p) :
        Calls s.termination terminated' (s.inProgress.set i p) := by
      have hcalls := h.calls
      rw [htermination] at hcalls ⊢
      exact hcalls.set_terminating hi hfresh hp
    generalize hp : first :: later = p at hterminating
    cases hterminating with
    | advance =>
      obtain ⟨rfl, rfl⟩ := List.cons.inj hp
      refine ⟨true, h.firstReason, hset .failAcceptedOrDenied, ?_⟩
      show Disciplined true (s.progress.queueRun _).submitted
      rw [ObservableValue.submitted_queueRun]
      exact .terminate _ h.disciplined
    | failAcceptedOrDenied =>
      obtain ⟨rfl, rfl⟩ := List.cons.inj hp
      exact ⟨true, h.firstReason, hset .cancelCanceller, h.disciplined⟩
    | cancelCanceller =>
      obtain ⟨rfl, rfl⟩ := List.cons.inj hp
      exact ⟨true, h.firstReason, hset .failShortAuthenticationString, h.disciplined⟩
    | failShortAuthenticationString =>
      obtain ⟨rfl, rfl⟩ := List.cons.inj hp
      exact ⟨true, h.firstReason, hset .sealProgress, h.disciplined⟩
    | sealProgress =>
      obtain ⟨rfl, rfl⟩ := List.cons.inj hp
      refine ⟨true, h.firstReason, hset .returned, ?_⟩
      show Disciplined true (s.progress.queueRun _).submitted
      rw [ObservableValue.submitted_queueRun]
      exact .sealValue h.disciplined
    | returned => cases hp

theorem Steady.step (h : Steady terminated s) {e : Event I C T} (hstep : s.step e = some s') :
    ∃ terminated', Steady terminated' s' := by
  cases e with
  | call method =>
    obtain rfl := Option.some.inj hstep
    exact ⟨terminated, h.firstReason, h.calls.call method.fresh_steps, h.disciplined⟩
  | execute i =>
    simp only [CallController.step] at hstep
    split at hstep
    case h_2 => cases hstep
    case h_1 first later hi =>
      obtain rfl := Option.some.inj hstep
      exact h.execute hi
  | progress e =>
    simp only [CallController.step] at hstep
    split at hstep
    case isTrue => cases hstep
    case isFalse hkeeps =>
      obtain ⟨progress, hprogress, rfl⟩ := Option.map_eq_some_iff.mp hstep
      refine ⟨terminated, h.firstReason, h.calls, ?_⟩
      dsimp only
      rcases ObservableValue.submitted_step hprogress with heq | ⟨action, hsubmits, heq⟩ <;> rw [heq]
      · exact h.disciplined
      · cases e with
        | watchLatestValue callback token =>
          obtain rfl : action = .watch callback := hsubmits
          exact .watch _ h.disciplined
        | whenCancelledDo i =>
          obtain ⟨callback, rfl⟩ := hsubmits
          exact .unwatch _ h.disciplined
        | runCancelHandler i =>
          obtain ⟨callback, rfl⟩ := hsubmits
          exact .unwatch _ h.disciplined
        | updateValue value => exact absurd rfl hkeeps
        | adjustValue adjustment => exact absurd rfl hkeeps
        | sealValue => exact absurd rfl hkeeps
        | _ => exact hsubmits.elim

/-- The progress moves by steps of the observable value. -/
theorem progress_step {e : Event I C T} (hstep : s.step e = some s') :
    s'.progress = s.progress ∨ ∃ e', s.progress.step e' = some s'.progress := by
  cases e with
  | call method =>
    obtain rfl := Option.some.inj hstep
    exact .inl rfl
  | execute i =>
    simp only [CallController.step] at hstep
    split at hstep
    case h_2 => cases hstep
    case h_1 first later hi =>
      obtain rfl := Option.some.inj hstep
      cases first with
      | unrestrictedAdvanceCallProgressTo type => exact .inr ⟨.adjustValue _, rfl⟩
      | cancelCanceller => exact .inr ⟨.cancel _, rfl⟩
      | sealProgress => exact .inr ⟨.sealValue, rfl⟩
      | _ => exact .inl rfl
  | progress e =>
    simp only [CallController.step] at hstep
    split at hstep
    case isTrue => cases hstep
    case isFalse hkeeps =>
      obtain ⟨progress, hprogress, rfl⟩ := Option.map_eq_some_iff.mp hstep
      exact .inr ⟨e, hprogress⟩

theorem steady_init (canceller : T) :
    Steady false (machine (I := I) (C := C) canceller).init :=
  ⟨rfl, .running fun _ h => absurd h List.not_mem_nil, .nil⟩

theorem steady_of_run {canceller : T} {tr : History (CallController I C T) (Event I C T)}
    (h : (machine canceller).Run tr) :
    ∃ terminated, Steady terminated ((machine canceller).last tr) :=
  h.state_invariant (I := fun s => ∃ terminated, Steady terminated s)
    ⟨false, steady_init canceller⟩ fun _ _ _ ⟨_, hI⟩ hstep => hI.step hstep

theorem serial_of_run {canceller : T} {tr : History (CallController I C T) (Event I C T)}
    (h : (machine canceller).Run tr) :
    ObservableValue.Serial ⟨0, .connecting⟩ ((machine canceller).last tr).progress := by
  induction tr with
  | nil => exact ObservableValue.serial_init _
  | cons p tr ih =>
    obtain ⟨terminated, hsteady⟩ := steady_of_run h
    obtain ⟨hrun, hstep⟩ := h
    rcases progress_step hstep with heq | ⟨e, he⟩
    · rw [Machine.last_cons, heq]
      exact ih hrun
    · exact (ih hrun).step he hsteady.disciplined.neverRaises

/-- What is promised about the progress of a call. -/
structure ProgressInOrder (s : CallController I C T) : Prop where
  forward : ∀ callback, Forward (s.progress.seen callback)
  firstReason : s.termination = s.terminations.head?
  neverRaises : s.progress.raised = false

/-- In whatever order the methods of the controller are called, and the progress is watched,
within callbacks and on other threads. -/
theorem progressInOrder_of_run {canceller : T}
    {tr : History (CallController I C T) (Event I C T)} (h : (machine canceller).Run tr) :
    ProgressInOrder ((machine canceller).last tr) := by
  obtain ⟨terminated, hsteady⟩ := steady_of_run h
  have hserial := serial_of_run h
  constructor
  case forward =>
    intro callback
    exact (hsteady.disciplined.orderly.upTo callback).earlier (hserial.seen_prefix callback)
  case firstReason => exact hsteady.firstReason
  case neverRaises => exact hserial.raised

/-- A watcher hangs up while it is called, and another termination and an advance come behind. -/
def hangupWhileWatching : List (Event ℕ ℕ ℕ) :=
  [.progress (.watchLatestValue 1 none), .progress (.runAction 0), .call .hangupOrDenyCall,
    .execute 0, .execute 0, .execute 0, .call (.advanceCallProgressTo .ringing), .execute 1,
    .call (.terminateWithReason ⟨.hangupRemote, none, none⟩), .execute 2,
    .progress (.callbackReturns 0), .progress (.tryDequeue 0), .progress (.runAction 0),
    .progress (.adjustmentReturns 0), .progress (.callNext 0 1), .progress (.callbackReturns 0),
    .progress (.tryDequeue 0), .execute 0, .execute 0, .execute 0, .execute 0,
    .progress (.runAction 0), .progress (.adjustmentReturns 0), .progress (.tryDequeue 0),
    .progress (.runAction 0), .progress (.tryDequeue 0)]

theorem progressInOrder_hangupWhileWatching : ∃ tr,
    (machine 0).exec hangupWhileWatching = some tr ∧
    (((machine 0).last tr).progress.seen 1).map (·.value.type) = [.connecting, .terminated] ∧
    ((machine 0).last tr).termination = some ⟨.rejectedLocal, none, none⟩ ∧
    ProgressInOrder ((machine 0).last tr) := by
  have hexec : ((machine 0).exec hangupWhileWatching).map (fun tr =>
      ((((machine 0).last tr).progress.seen 1).map (·.value.type),
        ((machine 0).last tr).termination)) =
      some ([.connecting, .terminated], some ⟨.rejectedLocal, none, none⟩) := by decide
  obtain ⟨tr, htr, hresult⟩ := Option.map_eq_some_iff.mp hexec
  obtain ⟨hseen, htermination⟩ := Prod.mk.inj hresult
  exact ⟨tr, htr, hseen, htermination, progressInOrder_of_run (Machine.run_of_exec htr)⟩

end CallController
end SignalIOS.Phone
