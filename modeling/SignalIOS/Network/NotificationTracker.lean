import Mathlib.Data.List.Nodup
import SignalIOS.Lib.Methods
import SignalIOS.Util.CodeUnits
import SignalIOS.Util.CryptoTools

/-! `NotificationTracker`: the hashes of the last notifications, by which repeated ones are
told from new ones. -/
namespace SignalIOS.Network
open SignalIOS.Lib

section RecentHistory
variable {α : Type} [DecidableEq α] {limit : ℕ} {a : α} {seen : List α}

/-- Of the items that were seen, newest first, those that were not among the last ones accepted
before them. -/
def accepted (limit : ℕ) : List α → List α
  | [] => []
  | a :: seen =>
    if a ∈ (accepted limit seen).take limit then accepted limit seen
    else a :: accepted limit seen

omit [DecidableEq α] in
theorem take_cons_take (limit : ℕ) (a : α) (l : List α) :
    (a :: l.take limit).take limit = (a :: l).take limit := by
  cases limit with
  | zero => rfl
  | succ limit => rw [List.take_succ_cons, List.take_succ_cons, List.take_take,
      Nat.min_eq_left (Nat.le_succ limit)]

/-- The last ones accepted are all that the next ones depend on. -/
theorem take_accepted_cons :
    (accepted limit (a :: seen)).take limit =
      if a ∈ (accepted limit seen).take limit then (accepted limit seen).take limit
      else (a :: (accepted limit seen).take limit).take limit := by
  rw [accepted, take_cons_take]
  split_ifs with h
  · rfl
  · rfl

theorem nodup_take_accepted (seen : List α) : ((accepted limit seen).take limit).Nodup := by
  induction seen with
  | nil =>
    rw [accepted, List.take_nil]
    exact List.nodup_nil
  | cons a seen ih =>
    rw [take_accepted_cons]
    split_ifs with h
    · exact ih
    · exact (List.nodup_cons.mpr ⟨h, ih⟩).sublist (List.take_sublist _ _)

end RecentHistory

/-- `NSInvalidArgumentException`, which is raised where `nil` is inserted in an array. -/
inductive InvalidArgument
  | nilObject
  deriving DecidableEq, Repr

structure NotificationTracker where
  witnessedNotifications : List NSData

/-- What a notification has for the key of its payload. -/
structure RemoteNotification where
  m : Option CodeUnits

def maxNotificationsToTrack : ℕ := 100

def notificationTracker : NotificationTracker where
  witnessedNotifications := []

/-- `while (MAX_NOTIFICATIONS_TO_TRACK < count) [_witnessedNotifications removeLastObject]` -/
def removeLastObjects (notifications : List NSData) : List NSData :=
  if maxNotificationsToTrack < notifications.length then
    removeLastObjects notifications.dropLast
  else notifications
termination_by notifications.length
decreasing_by
  rw [List.length_dropLast]
  omega

section
variable [CryptoTools]

/-- It is `nil` for a notification without a payload, and for one that has no encoding. -/
def getIdForNotification (notification : RemoteNotification) : Option NSData :=
  (notification.m.bind CodeUnits.characters).map fun text => text.encodedAsUtf8.hashWithSha256

def markNotificationAsProcessed (notification : RemoteNotification) :
    Method InvalidArgument NotificationTracker Unit :=
  match getIdForNotification notification with
  | none => throw .nilObject
  | some data => modify fun tracker =>
    { tracker with
      witnessedNotifications := removeLastObjects (data :: tracker.witnessedNotifications) }

def wasNotificationProcessed (notification : RemoteNotification) :
    Method InvalidArgument NotificationTracker Bool := do
  let tracker ← get
  return tracker.witnessedNotifications.any fun previousData =>
    getIdForNotification notification = some previousData

def shouldProcessNotification (notification : RemoteNotification) :
    Method InvalidArgument NotificationTracker Bool := do
  let should := !(← wasNotificationProcessed notification)
  if should then markNotificationAsProcessed notification
  return should

/-- A notification that carries a string as its payload. Like all texts of a push it has no unpaired
surrogates. -/
def carrying (payload : NSString) : RemoteNotification where
  m := some (CodeUnits.ofString payload)

/-- The hash of a payload. -/
def payloadHash (payload : NSString) : NSData := payload.encodedAsUtf8.hashWithSha256

variable {payload : NSString} {tracker : NotificationTracker}

omit [CryptoTools] in
theorem removeLastObjects_eq_take (notifications : List NSData) :
    removeLastObjects notifications = notifications.take maxNotificationsToTrack := by
  fun_induction removeLastObjects notifications with
  | case1 notifications hmore ih =>
    rw [ih, List.dropLast_eq_take, List.take_take, Nat.min_eq_left (by omega)]
  | case2 notifications hfew => rw [List.take_of_length_le (Nat.not_lt.mp hfew)]

theorem getIdForNotification_carrying (payload : NSString) :
    getIdForNotification (carrying payload) = some (payloadHash payload) := by
  have hcharacters : (carrying payload).m.bind CodeUnits.characters = some payload :=
    CodeUnits.characters_ofString payload
  rw [getIdForNotification, hcharacters]
  rfl

theorem run_wasNotificationProcessed :
    (wasNotificationProcessed (carrying payload)).run.run tracker =
      (.ok (decide (payloadHash payload ∈ tracker.witnessedNotifications)), tracker) := by
  have hany : (tracker.witnessedNotifications.any fun previousData =>
      getIdForNotification (carrying payload) = some previousData) =
        decide (payloadHash payload ∈ tracker.witnessedNotifications) := by
    rw [getIdForNotification_carrying, Bool.eq_iff_iff, List.any_eq_true, decide_eq_true_eq]
    simp
  rw [← hany]
  rfl

theorem run_markNotificationAsProcessed :
    (markNotificationAsProcessed (carrying payload)).run.run tracker =
      (.ok (), ⟨(payloadHash payload :: tracker.witnessedNotifications).take
        maxNotificationsToTrack⟩) := by
  rw [markNotificationAsProcessed, getIdForNotification_carrying, ← removeLastObjects_eq_take]
  rfl

/-- What is answered, and what is stored afterwards. -/
theorem run_shouldProcessNotification (payload : NSString) (tracker : NotificationTracker) :
    (shouldProcessNotification (carrying payload)).run.run tracker =
      (.ok (decide (payloadHash payload ∉ tracker.witnessedNotifications)),
        if payloadHash payload ∈ tracker.witnessedNotifications then tracker
        else ⟨(payloadHash payload :: tracker.witnessedNotifications).take
          maxNotificationsToTrack⟩) := by
  rw [shouldProcessNotification, Method.run_bind, run_wasNotificationProcessed]
  by_cases h : payloadHash payload ∈ tracker.witnessedNotifications
  · simp only [h, decide_true, not_true, decide_false, if_true]
    rfl
  · simp only [h, decide_false, not_false_iff, decide_true, if_false]
    rw [if_pos (by decide), Method.run_bind, run_markNotificationAsProcessed]
    rfl

/-- One notification keeps the stored hashes the last ones that were accepted. -/
theorem witnessedNotifications_shouldProcessNotification (payload : NSString) {seen : List NSData}
    (htracker : tracker.witnessedNotifications =
      (accepted maxNotificationsToTrack seen).take maxNotificationsToTrack) :
    ((shouldProcessNotification (carrying payload)).run.run tracker).2.witnessedNotifications =
      (accepted maxNotificationsToTrack (payloadHash payload :: seen)).take
        maxNotificationsToTrack := by
  rw [run_shouldProcessNotification, take_accepted_cons, ← htracker]
  split_ifs with h
  · rfl
  · rfl

theorem runAll_shouldProcessNotification (payloads : List NSString) {seen : List NSData}
    (htracker : tracker.witnessedNotifications =
      (accepted maxNotificationsToTrack seen).take maxNotificationsToTrack) :
    let outcome := Method.runAll
      (payloads.map fun payload => shouldProcessNotification (carrying payload)) tracker
    outcome.2.witnessedNotifications =
        (accepted maxNotificationsToTrack ((payloads.map payloadHash).reverse ++ seen)).take
          maxNotificationsToTrack ∧
      ∀ earlier payload later, payloads = earlier ++ payload :: later →
        outcome.1[earlier.length]? = some (.ok (decide (payloadHash payload ∉
          (accepted maxNotificationsToTrack ((earlier.map payloadHash).reverse ++ seen)).take
            maxNotificationsToTrack))) := by
  induction payloads generalizing seen tracker with
  | nil =>
    constructor
    · exact htracker
    · intro earlier payload later h
      cases earlier <;> cases h
  | cons first payloads ih =>
    obtain ⟨hstored, hanswers⟩ :=
      ih (witnessedNotifications_shouldProcessNotification first htracker)
    rw [List.map_cons, Method.runAll_cons]
    constructor
    · rw [hstored, List.map_cons, List.reverse_cons, List.append_assoc, List.singleton_append]
    · intro earlier payload later h
      cases earlier with
      | nil =>
        obtain ⟨rfl, rfl⟩ := List.cons.inj h
        have hanswer := congrArg Prod.fst (run_shouldProcessNotification first tracker)
        rw [List.map_nil, List.reverse_nil, List.nil_append, ← htracker]
        exact congrArg some hanswer
      | cons payload' earlier =>
        obtain ⟨rfl, htail⟩ := List.cons.inj h
        rw [List.map_cons, List.reverse_cons, List.append_assoc, List.singleton_append]
        exact hanswers earlier payload later htail

/-- A notification is to be processed just where the hash of its payload is not among the last
hundred accepted. These are what is stored, newest first and each of them once. -/
theorem shouldProcessNotification_spec (payloads : List NSString) :
    let outcome := Method.runAll
      (payloads.map fun payload => shouldProcessNotification (carrying payload))
      notificationTracker
    outcome.2.witnessedNotifications =
        (accepted maxNotificationsToTrack (payloads.map payloadHash).reverse).take
          maxNotificationsToTrack ∧
      outcome.2.witnessedNotifications.Nodup ∧
      outcome.2.witnessedNotifications.length ≤ maxNotificationsToTrack ∧
      ∀ earlier payload later, payloads = earlier ++ payload :: later →
        outcome.1[earlier.length]? = some (.ok (decide (payloadHash payload ∉
          (accepted maxNotificationsToTrack (earlier.map payloadHash).reverse).take
            maxNotificationsToTrack))) := by
  have hempty : notificationTracker.witnessedNotifications =
      (accepted maxNotificationsToTrack []).take maxNotificationsToTrack := rfl
  have hrun := runAll_shouldProcessNotification payloads hempty
  simp only [List.append_nil] at hrun
  obtain ⟨hstored, hanswers⟩ := hrun
  intro outcome
  have hnodup : outcome.2.witnessedNotifications.Nodup := by
    rw [hstored]
    exact nodup_take_accepted _
  have hlength : outcome.2.witnessedNotifications.length ≤ maxNotificationsToTrack := by
    rw [hstored]
    exact List.length_take_le _ _
  exact ⟨hstored, hnodup, hlength, hanswers⟩

end

end SignalIOS.Network
