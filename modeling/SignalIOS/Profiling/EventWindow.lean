import Mathlib.Algebra.Order.Ring.Rat
import Mathlib.Data.Multiset.Filter
import Mathlib.Tactic.Linarith
import SignalIOS.Util.PriorityQueueRuns

/-! `EventWindow`: the events of a moving window, of which the expired ones are removed for good. -/
namespace SignalIOS.Profiling
open SignalIOS.Lib

/-- `[NSNumber compare:]` -/
def compareNumbers (a b : ℚ) : ℤ := if a < b then -1 else if a = b then 0 else 1

/-- The last window ended at `-INFINITY` where there has been none. -/
structure EventWindow where
  windowDuration : ℚ
  events : PriorityQueue ℚ
  lastWindowEnding : Option ℚ

def eventWindowWithWindowDuration (windowDuration : ℚ) : Throws EventWindow := do
  owsRequire (windowDuration ≥ 0)
  return {
    windowDuration
    events := PriorityQueue.priorityQueueAscendingWithComparator fun a b => .ok (compareNumbers a b)
    lastWindowEnding := none }

/-- A message to the queue of events. -/
def tellEvents {α : Type} (message : Method Exception (PriorityQueue ℚ) α) :
    Method Exception EventWindow α :=
  Method.onPart EventWindow.events (fun w events => { w with events }) message

def addEventAtTime (eventTime : ℚ) : Method Exception EventWindow Unit :=
  tellEvents (PriorityQueue.enqueue eventTime)

/-- The loop that removes what is too early. It ends after as many rounds as there are events, as
none are left then. -/
def removeEventsBefore (startOfWindowTime : ℚ) : ℕ → Method Exception (PriorityQueue ℚ) Unit
  | 0 => return
  | rounds + 1 => do
    if (← get).count > 0 then
      if (← PriorityQueue.peek) < startOfWindowTime then
        let _ ← PriorityQueue.dequeue
        removeEventsBefore startOfWindowTime rounds

def countAfterRemovingEventsBeforeWindowEndingAt (endOfWindowTime : ℚ) :
    Method Exception EventWindow ℕ := do
  let w ← get
  requireState (∀ last ∈ w.lastWindowEnding, endOfWindowTime ≥ last - 3 / 100)
  modify fun w => { w with lastWindowEnding := some endOfWindowTime }
  let startOfWindowTime := endOfWindowTime - w.windowDuration
  tellEvents (removeEventsBefore startOfWindowTime w.events.count)
  return (← get).events.count

inductive Message
  | addEventAtTime (eventTime : ℚ)
  | countAfterRemovingEventsBeforeWindowEndingAt (endOfWindowTime : ℚ)

/-- The number that the message returns, if it is one that returns any. -/
def send : Message → Method Exception EventWindow (Option ℕ)
  | .addEventAtTime eventTime => do
    addEventAtTime eventTime
    return none
  | .countAfterRemovingEventsBeforeWindowEndingAt endOfWindowTime => do
    return some (← countAfterRemovingEventsBeforeWindowEndingAt endOfWindowTime)

def eventTime? : Message → Option ℚ
  | .addEventAtTime eventTime => some eventTime
  | .countAfterRemovingEventsBeforeWindowEndingAt _ => none

def endOfWindowTime? : Message → Option ℚ
  | .addEventAtTime _ => none
  | .countAfterRemovingEventsBeforeWindowEndingAt endOfWindowTime => some endOfWindowTime

section
variable {q : PriorityQueue ℚ} {w : EventWindow} {start duration : ℚ} {added : Multiset ℚ}

theorem ordersBy_compareNumbers :
    PriorityQueue.OrdersBy (fun a b => .ok (compareNumbers a b)) (· ≤ · : ℚ → ℚ → Prop) := by
  constructor
  · intro a b _ _
    refine ⟨compareNumbers a b, rfl, ?_⟩
    unfold compareNumbers
    rcases lt_trichotomy a b with hlt | heq | hgt
    · have hge : ¬ b ≤ a := not_le.mpr hlt
      simp [hlt, hlt.le, hge]
    · simp [heq]
    · have hle : ¬ a ≤ b := not_le.mpr hgt
      simp [not_lt.mpr hgt.le, ne_of_gt hgt, hgt.le, hle]
  · intro a b c
    exact le_trans

/-- The loop removes just what is before the start. -/
theorem run_removeEventsBefore (start : ℚ) (rounds : ℕ) (h : PriorityQueue.Invariant (· ≤ ·) q)
    (hrounds : q.count = rounds) :
    ∃ q', (removeEventsBefore start rounds).run.run q = (.ok (), q') ∧
      PriorityQueue.Invariant (· ≤ ·) q' ∧ q'.bag = q.bag.filter (start ≤ ·) := by
  induction rounds generalizing q with
  | zero =>
    have hempty : ¬ 0 < q.items.size := by
      rw [PriorityQueue.count] at hrounds
      omega
    refine ⟨q, rfl, h, ?_⟩
    rw [PriorityQueue.bag_eq_zero hempty, Multiset.filter_zero]
  | succ rounds ih =>
    have h0 : 0 < q.items.size := by
      rw [PriorityQueue.count] at hrounds
      omega
    have hfirst := h.isFirst h0
    by_cases hearly : q.items[0] < start
    · have hcount : q.count > 0 := h0
      obtain ⟨a, q', hrun, hinv, hleast, hbag⟩ := PriorityQueue.dequeue_spec h h0
      have ha : ¬ start ≤ a :=
        not_le.mpr (lt_of_le_of_lt (hleast.first _ hfirst.mem) hearly)
      have hcount' : q'.count = rounds := by
        have hcard := congrArg Multiset.card hbag
        rw [Multiset.card_cons, PriorityQueue.card_bag, PriorityQueue.card_bag] at hcard
        omega
      obtain ⟨q'', hrun', hinv', hbag'⟩ := ih hinv hcount'
      refine ⟨q'', ?_, hinv', ?_⟩
      · rw [removeEventsBefore, Method.run_bind, Method.run_get]
        simp only [if_pos hcount, Method.run_bind, PriorityQueue.run_peek h0, if_pos hearly, hrun,
          hrun']
      · rw [hbag', hbag, Multiset.filter_cons_of_neg _ ha]
    · have hcount : q.count > 0 := h0
      refine ⟨q, ?_, h, ?_⟩
      · rw [removeEventsBefore, Method.run_bind, Method.run_get]
        simp only [if_pos hcount, Method.run_bind, PriorityQueue.run_peek h0, if_neg hearly]
        rfl
      · symm
        apply Multiset.filter_eq_self.mpr
        intro t ht
        exact le_trans (not_lt.mp hearly) (hfirst.first t ht)

/-- What a window that was sent messages knows of the events that were added. Those it has
removed were before the start of the last window. -/
structure Remembers (duration : ℚ) (added : Multiset ℚ) (w : EventWindow) : Prop where
  windowDuration : w.windowDuration = duration
  events : PriorityQueue.Invariant (· ≤ ·) w.events
  removed : ∃ removed : Multiset ℚ, added = removed + w.events.bag ∧
    ∀ t ∈ removed, ∃ last, w.lastWindowEnding = some last ∧ t < last - duration

theorem addEventAtTime_spec (h : Remembers duration added w) (t : ℚ) :
    ∃ w', (send (.addEventAtTime t)).run.run w = (.ok none, w') ∧
      Remembers duration (t ::ₘ added) w' ∧ w'.lastWindowEnding = w.lastWindowEnding := by
  obtain ⟨events, hrun, hinv, hbag⟩ := PriorityQueue.enqueue_spec h.events t
  obtain ⟨removed, hadded, hremoved⟩ := h.removed
  refine ⟨{ w with events }, ?_, ⟨h.windowDuration, hinv, removed, ?_, hremoved⟩, rfl⟩
  · rw [send, addEventAtTime, tellEvents, Method.run_bind, Method.run_onPart, hrun]
    rfl
  · rw [hadded, hbag, Multiset.add_cons]

/-- A window that ends no earlier than the last one counts all the events added in it. -/
theorem count_spec (h : Remembers duration added w) {e : ℚ}
    (hlast : ∀ last ∈ w.lastWindowEnding, last ≤ e) :
    ∃ w', (send (.countAfterRemovingEventsBeforeWindowEndingAt e)).run.run w =
        (.ok (some (added.countP (e - duration ≤ ·))), w') ∧
      Remembers duration added w' ∧ w'.lastWindowEnding = some e := by
  obtain rfl := h.windowDuration
  have hstate : ∀ last ∈ w.lastWindowEnding, e ≥ last - 3 / 100 := by
    intro last hmem
    linarith [hlast last hmem]
  obtain ⟨events, hrun, hinv, hbag⟩ := run_removeEventsBefore (e - w.windowDuration)
    w.events.count h.events rfl
  obtain ⟨removed, hadded, hremoved⟩ := h.removed
  have hearly : ∀ t ∈ removed, t < e - w.windowDuration := by
    intro t ht
    obtain ⟨last, hending, hlt⟩ := hremoved t ht
    have hle := hlast last hending
    linarith
  have hcount : events.count = added.countP (e - w.windowDuration ≤ ·) := by
    have hnone : removed.countP (e - w.windowDuration ≤ ·) = 0 := by
      apply Multiset.countP_eq_zero.mpr
      intro t ht
      exact not_le.mpr (hearly t ht)
    rw [← PriorityQueue.card_bag, hbag, ← Multiset.countP_eq_card_filter, hadded,
      Multiset.countP_add, hnone, Nat.zero_add]
  let w' : EventWindow := { w with events, lastWindowEnding := some e }
  refine ⟨w', ?_, ⟨rfl, hinv, ?_⟩, rfl⟩
  · rw [send, countAfterRemovingEventsBeforeWindowEndingAt]
    simp only [Method.run_bind, Method.run_get, Method.run_lift, Method.run_modify, requireState,
      if_pos hstate, tellEvents, Method.run_onPart, hrun, Method.run_pure, hcount]
    rfl
  · refine ⟨removed + w.events.bag.filter (¬ e - w.windowDuration ≤ ·), ?_, ?_⟩
    · rw [hadded, hbag, Multiset.add_assoc, Multiset.add_comm (w.events.bag.filter _),
        Multiset.filter_add_not]
    · intro t ht
      refine ⟨e, rfl, ?_⟩
      rcases Multiset.mem_add.mp ht with ht | ht
      · exact hearly t ht
      · exact not_le.mp (Multiset.mem_filter.mp ht).2

/-- The counts of a whole run. `added` is what was added before it. -/
theorem runAll_send (messages : List Message) (h : Remembers duration added w)
    (hlast : ∀ last ∈ w.lastWindowEnding, ∀ e ∈ messages.filterMap endOfWindowTime?, last ≤ e)
    (hends : (messages.filterMap endOfWindowTime?).Pairwise (· ≤ ·)) :
    ∀ earlier e later,
      messages = earlier ++ .countAfterRemovingEventsBeforeWindowEndingAt e :: later →
        (Method.runAll (messages.map send) w).1[earlier.length]? =
          some (.ok (some ((added + (earlier.filterMap eventTime? : Multiset ℚ)).countP
            (e - duration ≤ ·)))) := by
  induction messages generalizing w added with
  | nil =>
    intro earlier e later heq
    cases earlier <;> cases heq
  | cons message messages ih =>
    intro earlier e later heq
    rw [List.map_cons, Method.runAll_cons]
    cases earlier with
    | nil =>
      obtain ⟨rfl, rfl⟩ := List.cons.inj heq
      obtain ⟨w', hrun, -, -⟩ := count_spec h fun last hmem => hlast last hmem e
        (List.mem_cons_self)
      have hnothing : added + (([] : List Message).filterMap eventTime? : Multiset ℚ) = added :=
        Multiset.add_zero added
      rw [hrun, hnothing]
      rfl
    | cons message' earlier =>
      obtain ⟨rfl, htail⟩ := List.cons.inj heq
      cases message with
      | addEventAtTime t =>
        obtain ⟨w', hrun, hw', hending⟩ := addEventAtTime_spec h t
        have hsum : added + ((Message.addEventAtTime t :: earlier).filterMap eventTime? :
            Multiset ℚ) = t ::ₘ added + (earlier.filterMap eventTime? : Multiset ℚ) := by
          have hcons : (Message.addEventAtTime t :: earlier).filterMap eventTime? =
              t :: earlier.filterMap eventTime? := rfl
          rw [hcons, ← Multiset.cons_coe, Multiset.add_cons, Multiset.cons_add]
        rw [hrun, hsum]
        exact ih hw' (hending ▸ hlast) hends earlier e later htail
      | countAfterRemovingEventsBeforeWindowEndingAt e' =>
        have hnow : ∀ last ∈ w.lastWindowEnding, last ≤ e' := fun last hmem =>
          hlast last hmem e' List.mem_cons_self
        obtain ⟨hfirst, hends'⟩ := List.pairwise_cons.mp hends
        obtain ⟨w', hrun, hw', hending⟩ := count_spec h hnow
        rw [hrun]
        have hlater : ∀ last ∈ w'.lastWindowEnding, ∀ e ∈ messages.filterMap endOfWindowTime?,
            last ≤ e := by
          intro last hmem
          rw [hending] at hmem
          obtain rfl := Option.some.inj hmem
          exact hfirst
        exact ih hw' hlater hends' earlier e later htail

/-- Events are added in any order, and windows end one after the other. Each of them counts the
events, of all that were added before, that are not before its start. -/
theorem eventWindow_spec (hwindow : eventWindowWithWindowDuration duration = .ok w)
    (messages : List Message) (hends : (messages.filterMap endOfWindowTime?).Pairwise (· ≤ ·)) :
    ∀ earlier e later,
      messages = earlier ++ .countAfterRemovingEventsBeforeWindowEndingAt e :: later →
        (Method.runAll (messages.map send) w).1[earlier.length]? =
          some (.ok (some ((earlier.filterMap eventTime?).countP (e - duration ≤ ·)))) := by
  obtain ⟨_, -, hpure⟩ := Throws.bind_eq_ok.mp hwindow
  obtain rfl := Throws.pure_eq_ok.mp hpure
  have hstart : Remembers duration 0 {
      windowDuration := duration
      events := PriorityQueue.priorityQueueAscendingWithComparator fun a b =>
        .ok (compareNumbers a b)
      lastWindowEnding := none } := by
    refine ⟨rfl, ordersBy_compareNumbers.invariant_empty, 0, rfl, ?_⟩
    intro t ht
    exact absurd ht (Multiset.notMem_zero t)
  have hnone : ∀ last ∈ (none : Option ℚ), ∀ e ∈ messages.filterMap endOfWindowTime?,
      last ≤ e := by
    intro last hmem
    cases hmem
  intro earlier e later heq
  have hcounts := runAll_send messages hstart hnone hends earlier e later heq
  rwa [Multiset.zero_add, Multiset.coe_countP] at hcounts

/-- Two windows of five seconds. One event is added late, and one expires between them. -/
theorem eventWindow_spec_sample :
    ∃ w, eventWindowWithWindowDuration 5 = .ok w ∧
      (Method.runAll (([.addEventAtTime 6, .addEventAtTime 4,
        .countAfterRemovingEventsBeforeWindowEndingAt 8,
        .countAfterRemovingEventsBeforeWindowEndingAt 10] : List Message).map send) w).1[3]? =
          some (.ok (some 1)) := by
  have hwindow : eventWindowWithWindowDuration 5 = .ok {
      windowDuration := 5
      events := PriorityQueue.priorityQueueAscendingWithComparator fun a b =>
        .ok (compareNumbers a b)
      lastWindowEnding := none } := rfl
  have hcount := eventWindow_spec hwindow [.addEventAtTime 6, .addEventAtTime 4,
    .countAfterRemovingEventsBeforeWindowEndingAt 8,
    .countAfterRemovingEventsBeforeWindowEndingAt 10] (by decide +kernel)
    [.addEventAtTime 6, .addEventAtTime 4, .countAfterRemovingEventsBeforeWindowEndingAt 8] 10 []
    rfl
  have hone : (([.addEventAtTime 6, .addEventAtTime 4,
      .countAfterRemovingEventsBeforeWindowEndingAt 8] : List Message).filterMap
        eventTime?).countP ((10 : ℚ) - 5 ≤ ·) = 1 := by decide +kernel
  rw [hone] at hcount
  exact ⟨_, hwindow, hcount⟩

end

end SignalIOS.Profiling
