import Mathlib.Logic.Function.Basic
import SignalIOS.Util.ObservableValue

/-! What the watchers of an observable value see: what they would see if its actions were performed
one after the other. -/
namespace SignalIOS
open SignalIOS.Lib

/-- An observable value whose actions are performed at once. -/
structure SequentialValue (V C : Type*) where
  currentValue : V
  sealed : Bool := false
  watching : Finset C := ∅
  /-- What each callback has been called with. -/
  seen : C → List (Sighting V) := fun _ => []

namespace SequentialValue
variable {V C : Type*} [DecidableEq V] [DecidableEq C] {s : SequentialValue V C}

/-- All who watch see a value that is new. -/
def assignValue (s : SequentialValue V C) (newValue : V) : SequentialValue V C :=
  if newValue = s.currentValue then s
  else { s with
    currentValue := newValue
    seen := fun c => s.seen c ++ if c ∈ s.watching then [⟨newValue, false⟩] else [] }

def perform (s : SequentialValue V C) : QueuedAction V C → SequentialValue V C
  | .watch callback => { s with
      watching := if s.sealed then s.watching else insert callback s.watching
      seen := fun c => s.seen c ++ if c = callback then [⟨s.currentValue, true⟩] else [] }
  | .unwatch callback => { s with watching := s.watching.erase callback }
  | .updateValue value => s.assignValue value
  | .adjustValue adjustment => s.assignValue (adjustment s.currentValue)
  | .sealValue => { s with sealed := true, watching := ∅ }

def performAll (s : SequentialValue V C) (actions : List (QueuedAction V C)) :
    SequentialValue V C :=
  actions.foldl perform s

/-- The action would change a value that is sealed. -/
def Raises (s : SequentialValue V C) : QueuedAction V C → Prop
  | .updateValue value => s.sealed = true ∧ value ≠ s.currentValue
  | .adjustValue adjustment => s.sealed = true ∧ adjustment s.currentValue ≠ s.currentValue
  | _ => False

/-- None of the actions, performed one after the other, raises. -/
def NeverRaises (s : SequentialValue V C) (actions : List (QueuedAction V C)) : Prop :=
  ∀ before action after, actions = before ++ action :: after →
    ¬ (s.performAll before).Raises action

@[simp] theorem performAll_nil : s.performAll [] = s := rfl

@[simp] theorem performAll_append (actions actions' : List (QueuedAction V C)) :
    s.performAll (actions ++ actions') = (s.performAll actions).performAll actions' :=
  List.foldl_append

@[simp] theorem performAll_singleton (action : QueuedAction V C) :
    s.performAll [action] = s.perform action := rfl

theorem NeverRaises.of_append {actions actions' : List (QueuedAction V C)}
    (h : s.NeverRaises (actions ++ actions')) : s.NeverRaises actions := by
  rintro before action after rfl
  exact h before action (after ++ actions') (by simp)

theorem NeverRaises.append_singleton {actions : List (QueuedAction V C)} {action : QueuedAction V C}
    (h : s.NeverRaises actions) (haction : ¬ (s.performAll actions).Raises action) :
    s.NeverRaises (actions ++ [action]) := by
  intro before action' after hsplit
  rcases List.eq_nil_or_concat after with rfl | ⟨after, last, rfl⟩
  · obtain ⟨rfl, hlast⟩ := List.append_inj' hsplit rfl
    rwa [← (List.cons.inj hlast).1]
  · rw [List.concat_eq_append, ← List.cons_append, ← List.append_assoc] at hsplit
    exact h before action' after (List.append_inj' hsplit rfl).1

/-- What has been seen stays seen. -/
theorem seen_perform (action : QueuedAction V C) (c : C) :
    s.seen c <+: (s.perform action).seen c := by
  have hassign (newValue : V) : s.seen c <+: (s.assignValue newValue).seen c := by
    unfold assignValue
    split
    · exact List.prefix_refl _
    · exact List.prefix_append _ _
  cases action with
  | watch callback => exact List.prefix_append _ _
  | unwatch callback => exact List.prefix_refl _
  | updateValue value => exact hassign value
  | adjustValue adjustment => exact hassign _
  | sealValue => exact List.prefix_refl _

@[simp] theorem sealed_assignValue (newValue : V) : (s.assignValue newValue).sealed = s.sealed := by
  unfold assignValue
  split <;> rfl

theorem sealed_perform {action : QueuedAction V C} (h : action ≠ .sealValue) :
    (s.perform action).sealed = s.sealed := by
  cases action with
  | watch callback => rfl
  | unwatch callback => rfl
  | updateValue value => exact sealed_assignValue value
  | adjustValue adjustment => exact sealed_assignValue _
  | sealValue => exact absurd rfl h

theorem sealed_performAll {actions : List (QueuedAction V C)} (hs : s.sealed = false)
    (h : QueuedAction.sealValue ∉ actions) : (s.performAll actions).sealed = false := by
  induction actions generalizing s with
  | nil => exact hs
  | cons action actions ih =>
    rw [List.mem_cons, not_or] at h
    apply ih _ h.2
    rw [sealed_perform (Ne.symm h.1)]
    exact hs

theorem seen_performAll (actions : List (QueuedAction V C)) (c : C) :
    s.seen c <+: (s.performAll actions).seen c := by
  induction actions generalizing s with
  | nil => exact List.prefix_refl _
  | cons action actions ih => exact (seen_perform action c).trans ih

/-- The values that the actions change to. -/
def changes (s : SequentialValue V C) : List (QueuedAction V C) → List V
  | [] => []
  | action :: actions =>
    let later := changes (s.perform action) actions
    if (s.perform action).currentValue = s.currentValue then later
    else (s.perform action).currentValue :: later

/-- Who watches sees all changes, until it is removed. -/
theorem seen_of_watching {actions : List (QueuedAction V C)} {c : C} (hs : c ∈ s.watching)
    (hwatch : .watch c ∉ actions) (hunwatch : .unwatch c ∉ actions)
    (hseal : .sealValue ∉ actions) :
    (s.performAll actions).seen c = s.seen c ++ (s.changes actions).map (⟨·, false⟩) := by
  induction actions generalizing s with
  | nil => exact (List.append_nil _).symm
  | cons action actions ih =>
    rw [List.mem_cons, not_or] at hwatch hunwatch hseal
    have hassign (newValue : V) : c ∈ (s.assignValue newValue).watching ∧
        (s.assignValue newValue).seen c = s.seen c ++
          if (s.assignValue newValue).currentValue = s.currentValue then []
          else [⟨(s.assignValue newValue).currentValue, false⟩] := by
      unfold assignValue
      split
      · simp [hs]
      · simp_all
    have hperform : c ∈ (s.perform action).watching ∧ (s.perform action).seen c = s.seen c ++
        if (s.perform action).currentValue = s.currentValue then []
        else [⟨(s.perform action).currentValue, false⟩] := by
      cases action with
      | watch callback =>
        have hne : c ≠ callback := fun heq => hwatch.1 (congrArg _ heq)
        refine ⟨?_, by simp [perform, hne]⟩
        dsimp only [perform]
        split
        · exact hs
        · exact Finset.mem_insert_of_mem hs
      | unwatch callback =>
        have hne : c ≠ callback := fun heq => hunwatch.1 (congrArg _ heq)
        exact ⟨Finset.mem_erase.mpr ⟨hne, hs⟩, by simp [perform]⟩
      | updateValue value => exact hassign value
      | adjustValue adjustment => exact hassign _
      | sealValue => exact absurd rfl hseal.1
    have hlater := ih hperform.1 hwatch.2 hunwatch.2 hseal.2
    show ((s.perform action).performAll actions).seen c = _
    rw [hlater, hperform.2, changes]
    split <;> simp

/-- Who does not watch sees nothing. -/
theorem seen_of_notWatching {actions : List (QueuedAction V C)} {c : C} (hs : c ∉ s.watching)
    (hwatch : .watch c ∉ actions) : (s.performAll actions).seen c = s.seen c := by
  induction actions generalizing s with
  | nil => rfl
  | cons action actions ih =>
    rw [List.mem_cons, not_or] at hwatch
    have hassign (newValue : V) : c ∉ (s.assignValue newValue).watching ∧
        (s.assignValue newValue).seen c = s.seen c := by
      unfold assignValue
      split
      case isTrue => exact ⟨hs, rfl⟩
      case isFalse => exact ⟨hs, by simp [hs]⟩
    have hperform : c ∉ (s.perform action).watching ∧ (s.perform action).seen c = s.seen c := by
      cases action with
      | watch callback =>
        have hne : c ≠ callback := fun heq => hwatch.1 (congrArg _ heq)
        refine ⟨?_, by simp [perform, hne]⟩
        dsimp only [perform]
        split
        · exact hs
        · exact fun hmem => (Finset.mem_insert.mp hmem).elim hne hs
      | unwatch callback => exact ⟨fun hmem => hs (Finset.mem_of_mem_erase hmem), rfl⟩
      | updateValue value => exact hassign value
      | adjustValue adjustment => exact hassign _
      | sealValue => exact ⟨Finset.notMem_empty c, rfl⟩
    exact (ih hperform.1 hwatch.2).trans hperform.2

/-- The value at the registration, all changes until the removal, and nothing behind it. -/
theorem seen_of_watcher {before during after : List (QueuedAction V C)} {c : C}
    (hs : s.seen c = []) (hnew : c ∉ s.watching) (hsealed : s.sealed = false)
    (hbefore : .watch c ∉ before) (hduring : .watch c ∉ during) (hkept : .unwatch c ∉ during)
    (hafter : .watch c ∉ after) (hseal : .sealValue ∉ before ++ during) :
    (s.performAll (before ++ .watch c :: during ++ .unwatch c :: after)).seen c =
      ⟨(s.performAll before).currentValue, true⟩ ::
        ((s.performAll before).perform (.watch c) |>.changes during).map (⟨·, false⟩) := by
  rw [List.mem_append, not_or] at hseal
  have hregistered : c ∈ ((s.performAll before).perform (.watch c)).watching := by
    have hunsealed := sealed_performAll hsealed hseal.1
    dsimp only [perform]
    rw [if_neg (by rw [hunsealed]; exact Bool.false_ne_true)]
    exact Finset.mem_insert_self _ _
  have hseen : ((s.performAll before).perform (.watch c)).seen c =
      [⟨(s.performAll before).currentValue, true⟩] := by
    dsimp only [perform]
    rw [if_pos rfl, seen_of_notWatching hnew hbefore, hs]
    rfl
  have hremoved : ∀ s' : SequentialValue V C,
      c ∉ (s'.perform (.unwatch c)).watching := fun _ => Finset.notMem_erase c _
  have hsplit : s.performAll (before ++ .watch c :: during ++ .unwatch c :: after) =
      ((((s.performAll before).perform (.watch c)).performAll during).perform
        (.unwatch c)).performAll after := by
    rw [performAll_append, performAll_append]
    rfl
  rw [hsplit, seen_of_notWatching (hremoved _) hafter]
  show (((s.performAll before).perform (.watch c)).performAll during).seen c = _
  rw [seen_of_watching hregistered hduring hkept hseal.2, hseen]
  rfl

/-- A value that is never sealed does not raise. -/
theorem neverRaises_of_notSealed {value : V} {actions : List (QueuedAction V C)}
    (h : QueuedAction.sealValue ∉ actions) :
    NeverRaises { currentValue := value } actions := by
  rintro before action after rfl hraises
  have hunsealed : (performAll { currentValue := value } before).sealed = false :=
    sealed_performAll rfl fun hmem => h (List.mem_append_left _ hmem)
  cases action with
  | updateValue value => exact Bool.false_ne_true (hunsealed.symm.trans hraises.1)
  | adjustValue adjustment => exact Bool.false_ne_true (hunsealed.symm.trans hraises.1)
  | watch callback => exact hraises
  | unwatch callback => exact hraises
  | sealValue => exact hraises

end SequentialValue

namespace ObservableValue
variable {V C T : Type*} [DecidableEq C] {s s' : ObservableValue V C T}

/-- The value as its watchers know it. -/
def sequential (s : ObservableValue V C T) : SequentialValue V C :=
  ⟨s.currentValue, s.sealed, s.callbacks.getD ∅, s.seen⟩

@[simp] theorem sequential_seen : s.sequential.seen = s.seen := rfl

@[simp] theorem sequential_currentValue : s.sequential.currentValue = s.currentValue := rfl

variable [DecidableEq V]

/-- How far a loop is with its action: `before` has performed all earlier ones, `now` is what there
is now. -/
def Progress (before now : SequentialValue V C) : RunningAction V C → Prop
  | ⟨_, .dequeued⟩ => now = before
  | ⟨action, .registering⟩ => (∃ callback, action = .watch callback) ∧
      now = { before with seen := (before.perform action).seen }
  | ⟨action, .adjusting oldValue⟩ => (∃ adjustment, action = .adjustValue adjustment) ∧
      oldValue = before.currentValue ∧ now = before
  | ⟨action, .notifying _ remaining⟩ =>
      (∀ value, action = .updateValue value → value = now.currentValue) ∧
      (∀ c, before.seen c <+: now.seen c) ∧
      before.perform action = { now with
        seen := fun c => now.seen c ++ if c ∈ remaining then [⟨now.currentValue, false⟩] else [] }
  | ⟨action, .returned⟩ => before.perform action = now

/-- At most one action runs, and it runs when all earlier ones have been performed. -/
structure Serial (value : V) (s : ObservableValue V C T) : Prop where
  submitted : s.submitted = s.finished ++ s.running.map (·.action) ++ s.queuedActionsToRun
  callbacks : s.callbacks.isNone = s.sealed
  raised : s.raised = false
  running :
    (s.running = [] ∧ s.isRunningActions = false ∧ s.queuedActionsToRun = [] ∧
      s.sequential = .performAll { currentValue := value } s.finished) ∨
    ∃ r, s.running = [r] ∧ s.isRunningActions = true ∧
      Progress (.performAll { currentValue := value } s.finished) s.sequential r

/-- The two may differ in the value, in what is said about it, and in nothing that is to be run. -/
structure SameActions (s s' : ObservableValue V C T) : Prop where
  running : s'.running = s.running
  isRunningActions : s'.isRunningActions = s.isRunningActions
  submitted : s'.submitted = s.submitted
  finished : s'.finished = s.finished
  queuedActionsToRun : s'.queuedActionsToRun = s.queuedActionsToRun
  raised : s'.raised = s.raised

omit [DecidableEq C] [DecidableEq V] in
theorem SameActions.rfl : SameActions s s := ⟨Eq.refl _, Eq.refl _, Eq.refl _, Eq.refl _, Eq.refl _,
  Eq.refl _⟩

/-- The two differ at most in who is to watch until when, which no loop looks at. -/
structure SameLoops (s s' : ObservableValue V C T) : Prop extends SameActions s s' where
  currentValue : s'.currentValue = s.currentValue
  callbacks : s'.callbacks = s.callbacks
  sealed : s'.sealed = s.sealed
  calls : s'.calls = s.calls

omit [DecidableEq C] [DecidableEq V] in
theorem SameLoops.rfl : SameLoops s s := ⟨.rfl, Eq.refl _, Eq.refl _, Eq.refl _, Eq.refl _⟩

omit [DecidableEq V] in
theorem SameLoops.sequential_eq (h : SameLoops s s') : s'.sequential = s.sequential := by
  unfold sequential seen
  rw [h.currentValue, h.callbacks, h.sealed, h.calls]

omit [DecidableEq V] in
theorem sequential_callBack (s : ObservableValue V C T) (callback : C) (v : V)
    (onRegistration : Bool) : (s.callBack callback v onRegistration).sequential =
      { s.sequential with
        seen := fun c => s.seen c ++ if c = callback then [⟨v, onRegistration⟩] else [] } := by
  unfold sequential callBack seen
  congr 1
  funext c
  rw [List.filterMap_append]
  by_cases hc : c = callback
  · simp [hc]
  · simp [hc, Ne.symm hc]

omit [DecidableEq V] in
theorem getD_map_erase (callbacks : Option (Finset C)) (callback : C) :
    (callbacks.map fun callbacks : Finset C => callbacks.erase callback).getD ∅ =
      (callbacks.getD ∅).erase callback := by
  cases callbacks with
  | none => exact (Finset.erase_eq_of_notMem (Finset.notMem_empty _)).symm
  | some callbacks => rfl

/-- With nothing left to do, the action has been performed. -/
theorem Progress.perform_eq {before now : SequentialValue V C} {r : RunningAction V C}
    (h : Progress before now r) (hover : r.phase.isOver = true) :
    before.perform r.action = now := by
  obtain ⟨action, phase⟩ := r
  cases phase with
  | dequeued => cases hover
  | registering => cases hover
  | adjusting oldValue => cases hover
  | returned => exact h
  | notifying called remaining =>
    cases called with
    | some callback => cases hover
    | none =>
      obtain rfl : remaining = ∅ := of_decide_eq_true hover
      obtain ⟨-, -, hperform⟩ := h
      rw [hperform]
      simp only [Finset.notMem_empty, if_false, List.append_nil]

namespace Serial
variable {value : V}

theorem congr (h : Serial value s) (hs' : SameLoops s s') : Serial value s' := by
  constructor
  case submitted => rw [hs'.submitted, hs'.finished, hs'.running, hs'.queuedActionsToRun, h.submitted]
  case callbacks => rw [hs'.callbacks, hs'.sealed, h.callbacks]
  case raised => exact hs'.raised.trans h.raised
  case running =>
    rw [hs'.running, hs'.isRunningActions, hs'.queuedActionsToRun, hs'.finished, hs'.sequential_eq]
    exact h.running

/-- Another action is queued, or run if none is running. -/
theorem queueRun (h : Serial value s) (action : QueuedAction V C) :
    Serial value (s.queueRun action) := by
  unfold ObservableValue.queueRun
  rcases h.running with ⟨hrunning, hidle, hqueued, hseq⟩ | ⟨r, hrunning, hbusy, hprogress⟩
  · rw [if_neg (by rw [hidle]; exact Bool.false_ne_true)]
    constructor
    case submitted =>
      dsimp only
      rw [h.submitted, hrunning, hqueued]
      simp
    case callbacks => exact h.callbacks
    case raised => exact h.raised
    case running =>
      refine .inr ⟨⟨action, .dequeued⟩, ?_, rfl, hseq⟩
      dsimp only
      rw [hrunning]
      rfl
  · rw [if_pos hbusy]
    constructor
    case submitted =>
      dsimp only
      rw [h.submitted, List.append_assoc]
    case callbacks => exact h.callbacks
    case raised => exact h.raised
    case running => exact .inr ⟨r, hrunning, hbusy, hprogress⟩

/-- The loop `i` is the only one. -/
theorem running_eq (h : Serial value s) {i : ℕ} {r : RunningAction V C}
    (hr : s.running[i]? = some r) : s.running = [r] ∧ i = 0 ∧ s.isRunningActions = true ∧
      Progress (.performAll { currentValue := value } s.finished) s.sequential r := by
  rcases h.running with ⟨hrunning, -, -, -⟩ | ⟨r', hrunning, hbusy, hprogress⟩
  · rw [hrunning] at hr
    cases hr
  · rw [hrunning, List.getElem?_singleton] at hr
    split at hr
    case isTrue hi =>
      obtain rfl := Option.some.inj hr
      exact ⟨hrunning, hi, hbusy, hprogress⟩
    case isFalse => cases hr

/-- The loop goes on with its action. -/
theorem setPhase (h : Serial value s) {r : RunningAction V C} (hrunning : s.running = [r])
    (hbusy : s.isRunningActions = true) (hs' : SameActions s s')
    (hcallbacks : s'.callbacks.isNone = s'.sealed) {phase : ActionPhase V C}
    (hprogress : Progress (.performAll { currentValue := value } s.finished) s'.sequential
      ⟨r.action, phase⟩) : Serial value (s'.setPhase 0 phase) := by
  have hset : (s'.setPhase 0 phase).running = [⟨r.action, phase⟩] := by
    unfold ObservableValue.setPhase
    dsimp only
    rw [hs'.running, hrunning]
    rfl
  constructor
  case submitted =>
    have hsubmitted := h.submitted
    rw [hrunning] at hsubmitted
    rw [hset]
    show s'.submitted = s'.finished ++ _ ++ s'.queuedActionsToRun
    rw [hs'.submitted, hs'.finished, hs'.queuedActionsToRun]
    exact hsubmitted
  case callbacks => exact hcallbacks
  case raised => exact hs'.raised.trans h.raised
  case running =>
    refine .inr ⟨_, hset, hs'.isRunningActions.trans hbusy, ?_⟩
    show Progress (.performAll _ s'.finished) s'.sequential _
    rw [hs'.finished]
    exact hprogress

/-- The value changes, unless it is the same: it is not sealed then. -/
theorem assignValue (h : Serial value s) {r : RunningAction V C} (hrunning : s.running = [r])
    (hbusy : s.isRunningActions = true)
    (hbefore : s.sequential = .performAll { currentValue := value } s.finished) {newValue : V}
    (hperform : s.sequential.perform r.action = s.sequential.assignValue newValue)
    (hvalue : ∀ v, r.action = .updateValue v → v = newValue)
    (hraises : ¬ (s.sealed = true ∧ newValue ≠ s.currentValue)) :
    Serial value (s.assignValue 0 s.currentValue newValue) := by
  unfold ObservableValue.assignValue
  split
  case isTrue hsame =>
    apply h.setPhase hrunning hbusy .rfl h.callbacks
    show SequentialValue.perform _ _ = _
    rw [← hbefore, hperform]
    exact if_pos hsame
  case isFalse hnew =>
    rw [if_neg fun hsealed => hraises ⟨hsealed, hnew⟩]
    apply h.setPhase hrunning hbusy (by constructor <;> rfl) (by exact h.callbacks)
    refine ⟨hvalue, ?_, ?_⟩
    · intro c
      rw [← hbefore]
      exact List.prefix_refl _
    · rw [← hbefore, hperform]
      exact if_neg hnew

/-- An action is begun. -/
theorem runAction (h : Serial value s) {i : ℕ} (hstep : s.runAction i = some s')
    (hraises : SequentialValue.NeverRaises { currentValue := value } s.submitted) :
    Serial value s' := by
  unfold ObservableValue.runAction at hstep
  split at hstep
  case h_2 => cases hstep
  case h_1 action hr =>
    obtain ⟨hrunning, rfl, hbusy, hprogress⟩ := h.running_eq hr
    have hbefore : s.sequential = .performAll { currentValue := value } s.finished := hprogress
    have hnotRaises : ¬ s.sequential.Raises action := by
      rw [hbefore]
      apply hraises s.finished action s.queuedActionsToRun
      rw [h.submitted, hrunning]
      simp
    cases action with
    | watch callback =>
      obtain rfl := Option.some.inj hstep
      apply h.setPhase hrunning hbusy (by constructor <;> rfl) (by exact h.callbacks)
      refine ⟨⟨callback, rfl⟩, ?_⟩
      rw [← hbefore, sequential_callBack]
      rfl
    | unwatch callback =>
      obtain rfl := Option.some.inj hstep
      apply h.setPhase hrunning hbusy (by constructor <;> rfl)
      · show (s.callbacks.map _).isNone = s.sealed
        rw [← h.callbacks]
        exact Option.isNone_map
      · show SequentialValue.perform _ _ = _
        rw [← hbefore]
        unfold sequential SequentialValue.perform
        dsimp only
        rw [getD_map_erase]
        rfl
    | updateValue newValue =>
      obtain rfl := Option.some.inj hstep
      exact h.assignValue hrunning hbusy hbefore rfl
        (fun v hv => (QueuedAction.updateValue.inj hv).symm) hnotRaises
    | adjustValue adjustment =>
      obtain rfl := Option.some.inj hstep
      apply h.setPhase hrunning hbusy .rfl h.callbacks
      exact ⟨⟨adjustment, rfl⟩, congrArg SequentialValue.currentValue hbefore, hbefore⟩
    | sealValue =>
      obtain rfl := Option.some.inj hstep
      apply h.setPhase hrunning hbusy (by constructor <;> rfl) (by rfl)
      show SequentialValue.perform _ _ = _
      rw [← hbefore]
      rfl

theorem adjustmentReturns (h : Serial value s) {i : ℕ} (hstep : s.adjustmentReturns i = some s')
    (hraises : SequentialValue.NeverRaises { currentValue := value } s.submitted) :
    Serial value s' := by
  unfold ObservableValue.adjustmentReturns at hstep
  split at hstep
  case h_2 => cases hstep
  case h_1 adjustment oldValue hr =>
    obtain ⟨hrunning, rfl, hbusy, -, hold, hbefore⟩ := h.running_eq hr
    obtain rfl : oldValue = s.currentValue :=
      hold.trans (congrArg SequentialValue.currentValue hbefore.symm)
    obtain rfl := Option.some.inj hstep
    have hnotRaises : ¬ s.sequential.Raises (.adjustValue adjustment) := by
      rw [hbefore]
      apply hraises s.finished _ s.queuedActionsToRun
      rw [h.submitted, hrunning]
      simp
    apply h.assignValue hrunning hbusy hbefore rfl _ hnotRaises
    intro v hv
    cases hv

/-- A callback is called that the action has not called yet. -/
theorem callNext (h : Serial value s) {i : ℕ} {callback : C}
    (hstep : s.callNext i callback = some s') : Serial value s' := by
  unfold ObservableValue.callNext at hstep
  split at hstep
  case h_2 => cases hstep
  case h_1 action remaining hr =>
    split at hstep
    case isFalse => cases hstep
    case isTrue hmem =>
      obtain ⟨hrunning, rfl, hbusy, hvalue, hinitial, hperform⟩ := h.running_eq hr
      obtain rfl := Option.some.inj hstep
      have hpassed : s.passedValue action = s.currentValue := by
        cases action with
        | updateValue v => exact hvalue v rfl
        | _ => rfl
      apply h.setPhase hrunning hbusy (by constructor <;> rfl) (by exact h.callbacks)
      rw [hpassed, sequential_callBack]
      refine ⟨hvalue, fun c => (hinitial c).trans (List.prefix_append _ _), ?_⟩
      rw [hperform]
      congr 1
      funext c
      rw [List.append_assoc]
      by_cases hc : c = callback
      · simp [hc, hmem]
      · simp [hc]

/-- The callback that has been called is added to those that watch, if any do, or the next one is
to be called. -/
theorem callbackReturns (h : Serial value s) {i : ℕ} (hstep : s.callbackReturns i = some s') :
    Serial value s' := by
  unfold ObservableValue.callbackReturns at hstep
  split at hstep
  case h_1 callback hr =>
    obtain ⟨hrunning, rfl, hbusy, -, hnow⟩ := h.running_eq hr
    obtain rfl := Option.some.inj hstep
    apply h.setPhase hrunning hbusy (by constructor <;> rfl)
    · show (s.callbacks.map _).isNone = s.sealed
      rw [← h.callbacks]
      exact Option.isNone_map
    · have hperform : (SequentialValue.performAll { currentValue := value } s.finished).perform
          (.watch callback) = { s.sequential with
            watching := if s.sequential.sealed then s.sequential.watching
              else insert callback s.sequential.watching } := by
        rw [hnow]
        rfl
      show SequentialValue.perform _ _ = _
      rw [hperform]
      have hsealed := h.callbacks
      unfold sequential
      dsimp only
      rw [← hsealed]
      cases s.callbacks with
      | none => rfl
      | some callbacks => rfl
  case h_2 called remaining hr =>
    obtain ⟨hrunning, rfl, hbusy, hprogress⟩ := h.running_eq hr
    obtain rfl := Option.some.inj hstep
    exact h.setPhase hrunning hbusy .rfl h.callbacks hprogress
  case h_3 => cases hstep

/-- The next action is taken when all earlier ones have been performed. -/
theorem tryDequeue (h : Serial value s) {i : ℕ} (hstep : s.tryDequeue i = some s') :
    Serial value s' := by
  unfold ObservableValue.tryDequeue at hstep
  split at hstep
  case h_2 => cases hstep
  case h_1 r hr =>
    obtain ⟨hrunning, rfl, hbusy, hprogress⟩ := h.running_eq hr
    split at hstep
    case isFalse => cases hstep
    case isTrue hover =>
      have hperform := hprogress.perform_eq hover
      have hsubmitted := h.submitted
      rw [hrunning] at hsubmitted
      split at hstep
      case h_1 hqueued =>
        obtain rfl := Option.some.inj hstep
        rw [hqueued] at hsubmitted
        constructor
        case submitted =>
          dsimp only
          rw [hsubmitted, hrunning, hqueued]
          simp
        case callbacks => exact h.callbacks
        case raised => exact h.raised
        case running =>
          refine .inl ⟨?_, rfl, hqueued, ?_⟩
          · dsimp only
            rw [hrunning]
            rfl
          · rw [SequentialValue.performAll_append, SequentialValue.performAll_singleton, hperform]
            rfl
      case h_2 action actions hqueued =>
        obtain rfl := Option.some.inj hstep
        rw [hqueued] at hsubmitted
        constructor
        case submitted =>
          dsimp only
          rw [hsubmitted, hrunning]
          simp
        case callbacks => exact h.callbacks
        case raised => exact h.raised
        case running =>
          refine .inr ⟨⟨action, .dequeued⟩, ?_, hbusy, ?_⟩
          · dsimp only
            rw [hrunning]
            rfl
          · show _ = SequentialValue.performAll _ (s.finished ++ [r.action])
            rw [SequentialValue.performAll_append, SequentialValue.performAll_singleton, hperform]
            rfl

end Serial

omit [DecidableEq C] [DecidableEq V] in
theorem submitted_queueRun (action : QueuedAction V C) :
    (s.queueRun action).submitted = s.submitted ++ [action] := by
  unfold queueRun
  split <;> rfl

/-- The actions that an event may submit. -/
def Event.Submits : Event V C T → QueuedAction V C → Prop
  | .updateValue value, action => action = .updateValue value
  | .adjustValue adjustment, action => action = .adjustValue adjustment
  | .sealValue, action => action = .sealValue
  | .watchLatestValue callback _, action => action = .watch callback
  | .whenCancelledDo _, action => ∃ callback, action = .unwatch callback
  | .runCancelHandler _, action => ∃ callback, action = .unwatch callback
  | _, _ => False

/-- Nothing has been submitted, nobody has begun to watch, and nothing has been cancelled. -/
structure SameWatchers (s s' : ObservableValue V C T) : Prop where
  submitted : s'.submitted = s.submitted
  watchCalls : s'.watchCalls = s.watchCalls
  beforeWhenCancelledDo : s'.beforeWhenCancelledDo = s.beforeWhenCancelledDo
  cancelHandlers : s'.cancelHandlers = s.cancelHandlers
  cancelHandlersToRun : s'.cancelHandlersToRun = s.cancelHandlersToRun
  cancelledTokens : s'.cancelledTokens = s.cancelledTokens

omit [DecidableEq C] in
theorem sameWatchers_assignValue (i : ℕ) (oldValue newValue : V) :
    SameWatchers s (s.assignValue i oldValue newValue) := by
  unfold assignValue
  split
  · constructor <;> rfl
  · split <;> constructor <;> rfl

/-- What the loops of `queueRun` do. -/
def Event.IsOfLoop : Event V C T → Prop
  | .runAction _ | .adjustmentReturns _ | .callNext _ _ | .callbackReturns _ | .tryDequeue _ => True
  | _ => False

variable [DecidableEq T]

theorem sameWatchers_step {e : Event V C T} (he : e.IsOfLoop) (h : s.step e = some s') :
    SameWatchers s s' := by
  cases e with
  | runAction i =>
    simp only [step, runAction] at h
    split at h
    case h_2 => cases h
    case h_1 action hr =>
      cases action with
      | updateValue value =>
        obtain rfl := Option.some.inj h
        exact sameWatchers_assignValue _ _ _
      | _ =>
        obtain rfl := Option.some.inj h
        constructor <;> rfl
  | adjustmentReturns i =>
    simp only [step, adjustmentReturns] at h
    split at h
    case h_2 => cases h
    case h_1 =>
      obtain rfl := Option.some.inj h
      exact sameWatchers_assignValue _ _ _
  | callNext i callback =>
    simp only [step, callNext] at h
    split at h
    case h_2 => cases h
    case h_1 =>
      split at h
      case isFalse => cases h
      case isTrue =>
        obtain rfl := Option.some.inj h
        constructor <;> rfl
  | callbackReturns i =>
    simp only [step, callbackReturns] at h
    split at h
    case h_3 => cases h
    all_goals
      obtain rfl := Option.some.inj h
      constructor <;> rfl
  | tryDequeue i =>
    simp only [step, tryDequeue] at h
    split at h
    case h_2 => cases h
    case h_1 =>
      split at h
      case isFalse => cases h
      case isTrue =>
        split at h <;> obtain rfl := Option.some.inj h <;> constructor <;> rfl
  | _ => exact he.elim

/-- Whoever is not in a loop submits one action, or none. -/
theorem step_cases {e : Event V C T} (h : s.step e = some s') : e.IsOfLoop ∨
    ∃ u, SameLoops s u ∧ (s' = u ∨ ∃ action, e.Submits action ∧ s' = u.queueRun action) := by
  have hstays {u : ObservableValue V C T} (hu : some u = some s') (hsame : SameLoops s u) :
      e.IsOfLoop ∨ ∃ u, SameLoops s u ∧
        (s' = u ∨ ∃ action, e.Submits action ∧ s' = u.queueRun action) :=
    .inr ⟨u, hsame, .inl (Option.some.inj hu).symm⟩
  have hqueues {u : ObservableValue V C T} {action : QueuedAction V C}
      (hu : some (u.queueRun action) = some s') (hsubmits : e.Submits action)
      (hsame : SameLoops s u) : e.IsOfLoop ∨ ∃ u, SameLoops s u ∧
        (s' = u ∨ ∃ action, e.Submits action ∧ s' = u.queueRun action) :=
    .inr ⟨u, hsame, .inr ⟨action, hsubmits, (Option.some.inj hu).symm⟩⟩
  cases e with
  | updateValue value => exact hqueues h rfl .rfl
  | adjustValue adjustment => exact hqueues h rfl .rfl
  | sealValue => exact hqueues h rfl .rfl
  | watchLatestValue callback token =>
    simp only [step, watchLatestValue] at h
    split at h
    case isTrue => exact hstays h .rfl
    case isFalse =>
      let call : WatchCall C T := ⟨s.submitted.length, callback, token⟩
      let u : ObservableValue V C T := { s with
        watchCalls := s.watchCalls ++ [call]
        beforeWhenCancelledDo := s.beforeWhenCancelledDo ++ [call] }
      have hqueued : u.queueRun (.watch callback) = { s.queueRun (.watch callback) with
          watchCalls := s.watchCalls ++ [call]
          beforeWhenCancelledDo := s.beforeWhenCancelledDo ++ [call] } := by
        unfold queueRun
        split <;> rfl
      exact hqueues ((congrArg some hqueued).trans h) rfl
        ⟨⟨rfl, rfl, rfl, rfl, rfl, rfl⟩, rfl, rfl, rfl, rfl⟩
  | whenCancelledDo i =>
    simp only [step, whenCancelledDo] at h
    split at h
    case h_2 => cases h
    case h_1 call hcall =>
      split at h
      case h_1 => exact hstays h ⟨⟨rfl, rfl, rfl, rfl, rfl, rfl⟩, rfl, rfl, rfl, rfl⟩
      case h_2 token htoken =>
        split at h
        · exact hqueues h ⟨call.callback, rfl⟩
            ⟨⟨rfl, rfl, rfl, rfl, rfl, rfl⟩, rfl, rfl, rfl, rfl⟩
        · exact hstays h ⟨⟨rfl, rfl, rfl, rfl, rfl, rfl⟩, rfl, rfl, rfl, rfl⟩
  | cancel token => exact hstays h ⟨⟨rfl, rfl, rfl, rfl, rfl, rfl⟩, rfl, rfl, rfl, rfl⟩
  | runCancelHandler i =>
    simp only [step, runCancelHandler] at h
    split at h
    case h_2 => cases h
    case h_1 call hcall =>
      exact hqueues h ⟨call.callback, rfl⟩
        ⟨⟨rfl, rfl, rfl, rfl, rfl, rfl⟩, rfl, rfl, rfl, rfl⟩
  | _ => exact .inl trivial

theorem submitted_step {e : Event V C T} (h : s.step e = some s') :
    s'.submitted = s.submitted ∨
      ∃ action, e.Submits action ∧ s'.submitted = s.submitted ++ [action] := by
  rcases step_cases h with hloop | ⟨u, hsame, rfl | ⟨action, hsubmits, rfl⟩⟩
  · exact .inl (sameWatchers_step hloop h).submitted
  · exact .inl hsame.submitted
  · exact .inr ⟨action, hsubmits, by rw [submitted_queueRun, hsame.submitted]⟩

/-- As long as no action raises, actions run one at a time. -/
theorem Serial.step {value : V} (h : Serial value s) {e : Event V C T}
    (hstep : s.step e = some s')
    (hraises : SequentialValue.NeverRaises { currentValue := value } s'.submitted) :
    Serial value s' := by
  have hbefore : SequentialValue.NeverRaises { currentValue := value } s.submitted := by
    rcases submitted_step hstep with heq | ⟨action, -, heq⟩ <;> rw [heq] at hraises
    · exact hraises
    · exact hraises.of_append
  rcases step_cases hstep with hloop | ⟨u, hsame, rfl | ⟨action, -, rfl⟩⟩
  · cases e with
    | runAction i => exact h.runAction hstep hbefore
    | adjustmentReturns i => exact h.adjustmentReturns hstep hbefore
    | callNext i callback => exact h.callNext hstep
    | callbackReturns i => exact h.callbackReturns hstep
    | tryDequeue i => exact h.tryDequeue hstep
    | _ => exact hloop.elim
  · exact h.congr hsame
  · exact (h.congr hsame).queueRun action

theorem serial_init (value : V) : Serial value (machine (C := C) (T := T) value).init :=
  ⟨rfl, rfl, rfl, .inl ⟨rfl, rfl, rfl, rfl⟩⟩

/-- Along a run whose actions, performed in the order of their submission, do not raise. -/
theorem serial_of_run {value : V} {tr : History (ObservableValue V C T) (Event V C T)}
    (h : (machine value).Run tr)
    (hraises : SequentialValue.NeverRaises { currentValue := value }
      ((machine value).last tr).submitted) :
    Serial value ((machine value).last tr) := by
  induction tr with
  | nil => exact serial_init value
  | cons p tr ih =>
    obtain ⟨hrun, hstep⟩ := h
    have hbefore : SequentialValue.NeverRaises { currentValue := value }
        ((machine value).last tr).submitted := by
      rcases submitted_step hstep with heq | ⟨action, -, heq⟩ <;>
        rw [Machine.last_cons, heq] at hraises
      · exact hraises
      · exact hraises.of_append
    exact (ih hrun hbefore).step hstep hraises

end ObservableValue
end SignalIOS
