import Mathlib.Data.List.Enum
import Mathlib.Data.List.Nodup
import Mathlib.Data.List.Perm.Subperm
import SignalIOS.Jobs.MessageFetcherJob

/-! What a fetch run hands to the message manager: every well-formed message once, after finitely
many page requests, as long as the server gets to know in time what was handed. -/
namespace SignalIOS.Jobs
open SignalIOS.Lib

section
variable {server : Server}

theorem mapM_eq_ite {α β : Type} (f : α → Option β) (l : List α) :
    l.mapM f = if ∀ a ∈ l, (f a).isSome then some (l.filterMap f) else none := by
  induction l with
  | nil => simp
  | cons a l ih =>
    cases ha : f a with
    | none => simp [ha]
    | some b =>
      rw [List.mapM_cons, ha, ih]
      by_cases hl : ∀ a ∈ l, (f a).isSome
      · have hall : ∀ a' ∈ a :: l, (f a').isSome := by simpa [ha] using hl
        rw [if_pos hl, if_pos hall, List.filterMap_cons, ha]
        rfl
      · have hall : ¬ ∀ a' ∈ a :: l, (f a').isSome := by simpa [ha] using hl
        rw [if_neg hl, if_neg hall]
        rfl

theorem foldl_deliver (l : List (ℕ × Envelope)) (s : FetchRun) :
    l.foldl FetchRun.deliver s = { s with
      handed := s.handed ++ l
      inFlight := s.inFlight ++ l.map fun delivery =>
        ⟨delivery.2.source, delivery.2.timestamp, delivery.1⟩ } := by
  induction l generalizing s with
  | nil => simp
  | cons delivery l ih => simp [ih, FetchRun.deliver]

theorem mem_page {message : QueuedMessage} {acknowledged : List ℕ}
    (h : message ∈ server.page acknowledged) : message.2 ∉ acknowledged := by
  have hunacknowledged := List.mem_filter.mp (List.mem_of_mem_take h)
  simpa using hunacknowledged.2

theorem page_eq_unacknowledged {acknowledged : List ℕ} (h : server.more acknowledged = false) :
    server.page acknowledged = server.unacknowledged acknowledged := by
  have hlength : ¬ server.pageSize < (server.unacknowledged acknowledged).length :=
    of_decide_eq_false h
  exact List.take_of_length_le (Nat.le_of_not_lt hlength)

end

section
variable [EnvelopeCoding]

/-- The well-formed messages of a page, by their places. -/
def deliveries (page : List QueuedMessage) : List (ℕ × Envelope) :=
  page.filterMap fun message => message.1.envelope?.map (message.2, ·)

namespace Server

/-- What a fetch run has to hand to the message manager. -/
def deliveries (server : Server) : List (ℕ × Envelope) := Jobs.deliveries server.messages.zipIdx

end Server

/-- What the answer to a page request and its failure have to meet: the acknowledgements of all that
was handed have arrived, the page can be read, and a page that is not the last one has a
well-formed message. What fails, or cannot be read, comes when everything was handed. -/
def Timely (server : Server) (s : FetchRun) : Event → Prop
  | .serve =>
    (∀ delivery ∈ s.handed, delivery.1 ∈ s.acknowledged) ∧
      ((∀ message ∈ server.page s.acknowledged, message.1.asDictionary?.isSome) ∨
        ∀ delivery ∈ server.deliveries, delivery ∈ s.handed) ∧
      (server.more s.acknowledged = true → deliveries (server.page s.acknowledged) ≠ [])
  | .fail => ∀ delivery ∈ server.deliveries, delivery ∈ s.handed
  | _ => True

instance (server : Server) (s : FetchRun) : ∀ e, Decidable (Timely server s e)
  | .serve => inferInstanceAs (Decidable (_ ∧ _ ∧ _))
  | .fail => inferInstanceAs (Decidable (∀ delivery ∈ server.deliveries, delivery ∈ s.handed))
  | .receive _ | .acknowledge _ | .acknowledgementFails _ => .isTrue trivial

/-- Nothing is handed twice, the number of page requests is bounded, and a run that is over has handed
everything. -/
def DeliversEachOnce (server : Server) (s : FetchRun) : Prop :=
  s.handed.Subperm server.deliveries ∧ s.requests ≤ server.deliveries.length + 1 ∧
    (s.fetch = .ended → s.handed.Perm server.deliveries)

/-- What is known where a fetch run waits, of what it has handed so far. -/
def Waits (server : Server) (handed : List (ℕ × Envelope)) : Fetch → Prop
  | .requested | .delegated => True
  | .answered page responseObject => ∃ more,
    responseObject = some (messagesResponse page more) ∧ page.Sublist server.messages.zipIdx ∧
      (∀ message ∈ page, ∀ envelope, (message.2, envelope) ∉ handed) ∧
      ((∀ message ∈ page, message.1.asDictionary?.isSome) ∨
        ∀ delivery ∈ server.deliveries, delivery ∈ handed) ∧
      (more = true → deliveries page ≠ []) ∧
      (more = false → ∀ delivery ∈ server.deliveries,
        delivery ∈ handed ∨ delivery ∈ deliveries page)
  | .ended => ∀ delivery ∈ server.deliveries, delivery ∈ handed

/-- A fetch run whose requests were all answered in time. -/
structure Delivering (server : Server) (s : FetchRun) : Prop where
  nodup : s.handed.Nodup
  subset : s.handed ⊆ server.deliveries
  acknowledged : ∀ place ∈ s.acknowledged, ∃ envelope, (place, envelope) ∈ s.handed
  inFlight : ∀ request ∈ s.inFlight, ∃ envelope, (request.place, envelope) ∈ s.handed
  requests : s.requests ≤ s.handed.length + 1
  waits : Waits server s.handed s.fetch

section
variable {page : List QueuedMessage} {message : QueuedMessage} {delivery : ℕ × Envelope}

theorem mem_deliveries :
    delivery ∈ deliveries page ↔
      ∃ message ∈ page, message.1.envelope? = some delivery.2 ∧ message.2 = delivery.1 := by
  obtain ⟨place, envelope⟩ := delivery
  rw [deliveries, List.mem_filterMap]
  constructor
  · rintro ⟨message, hmem, hdelivery⟩
    obtain ⟨envelope', henvelope, hpair⟩ := Option.map_eq_some_iff.mp hdelivery
    obtain ⟨hplace, rfl⟩ := Prod.mk.inj hpair
    exact ⟨message, hmem, henvelope, hplace⟩
  · rintro ⟨message, hmem, henvelope, hplace⟩
    have henvelope : message.1.envelope? = some envelope := henvelope
    have hplace : message.2 = place := hplace
    exact ⟨message, hmem, by rw [henvelope, ← hplace]; rfl⟩

/-- The places of a page are those of the envelopes that are read from it. -/
theorem places_zip_envelopes (page : List QueuedMessage) :
    (FetchRun.places page).zip (page.filterMap fun message => message.1.envelope?) =
      deliveries page := by
  induction page with
  | nil => rfl
  | cons message page ih =>
    cases henvelope : message.1.envelope? with
    | none => simpa [FetchRun.places, deliveries, henvelope] using ih
    | some envelope => simpa [FetchRun.places, deliveries, henvelope] using ih

/-- A page is read as a whole, or not at all. -/
theorem parseMessagesResponse_messagesResponse (page : List QueuedMessage) (more : Bool) :
    parseMessagesResponse (some (messagesResponse page more)) =
      if ∀ message ∈ page, message.1.asDictionary?.isSome then
        some (page.filterMap (fun message => message.1.envelope?), more) else none := by
  have hparse : parseMessagesResponse (some (messagesResponse page more)) =
      ((page.map Prod.fst).mapM JSON.asDictionary?).bind fun messageDicts =>
        some (messageDicts.filterMap buildEnvelope, more) := by
    cases more <;> rfl
  have hread : (∀ message ∈ page.map Prod.fst, (JSON.asDictionary? message).isSome) ↔
      ∀ message ∈ page, message.1.asDictionary?.isSome := List.forall_mem_map
  rw [hparse, mapM_eq_ite]
  by_cases hpage : ∀ message ∈ page, message.1.asDictionary?.isSome
  · have henvelopes : ((page.map Prod.fst).filterMap JSON.asDictionary?).filterMap buildEnvelope =
        page.filterMap fun message => message.1.envelope? := by
      rw [List.filterMap_filterMap, List.filterMap_map]
      rfl
    rw [if_pos hpage, if_pos (hread.mpr hpage), Option.bind_some, henvelopes]
  · rw [if_neg hpage, if_neg (fun h => hpage (hread.mp h))]
    rfl

end

section
variable {server : Server} {s s' : FetchRun} {e : Event}

theorem nodup_deliveries {page : List QueuedMessage}
    (hpage : page.Sublist server.messages.zipIdx) : (deliveries page).Nodup := by
  have hplaces : (server.messages.zipIdx.map Prod.snd).Nodup := by
    rw [List.zipIdx_map_snd]
    exact List.nodup_range'
  have hfirst : (deliveries page).map Prod.fst =
      page.filterMap fun message => message.1.envelope?.map fun _ => message.2 := by
    rw [deliveries, List.map_filterMap]
    congr 1
    funext message
    rw [Option.map_map]
    rfl
  have hpicked : ((deliveries page).map Prod.fst).Sublist (page.map Prod.snd) := by
    rw [hfirst]
    clear hfirst hpage
    induction page with
    | nil => exact List.Sublist.refl _
    | cons message page ih =>
      cases henvelope : message.1.envelope? with
      | none => simpa [henvelope] using ih.cons message.2
      | some envelope => simpa [henvelope] using ih
  have hnodup : ((deliveries page).map Prod.fst).Nodup :=
    ((hpicked.trans (hpage.map Prod.snd)).nodup hplaces)
  exact List.Nodup.of_map Prod.fst hnodup

/-- There is one envelope at each place of the queue. -/
theorem envelope_eq_of_mem {place : ℕ} {envelope envelope' : Envelope}
    (h : (place, envelope) ∈ server.deliveries) (h' : (place, envelope') ∈ server.deliveries) :
    envelope = envelope' := by
  obtain ⟨message, hmem, henvelope, hplace⟩ := mem_deliveries.mp h
  obtain ⟨message', hmem', henvelope', hplace'⟩ := mem_deliveries.mp h'
  have hget := List.mem_zipIdx_iff_getElem?.mp hmem
  have hget' := List.mem_zipIdx_iff_getElem?.mp hmem'
  have hplaces : message.2 = message'.2 := hplace.trans hplace'.symm
  rw [hplaces, hget'] at hget
  have hmessages : message'.1 = message.1 := Option.some.inj hget
  rw [hmessages, henvelope] at henvelope'
  exact Option.some.inj henvelope'

/-- The server answers in time. -/
theorem Delivering.serve (h : Delivering server s) (htimely : Timely server s .serve) :
    let page := server.page s.acknowledged
    let response := messagesResponse page (server.more s.acknowledged)
    Delivering server { s with fetch := .answered page (some response) } := by
  obtain ⟨hacknowledged, hreadable, hmore⟩ := htimely
  have hpage : (server.page s.acknowledged).Sublist server.messages.zipIdx :=
    (List.take_sublist ..).trans List.filter_sublist
  have hfresh : ∀ message ∈ server.page s.acknowledged, ∀ envelope,
      (message.2, envelope) ∉ s.handed := fun message hmem envelope hhanded =>
    mem_page hmem (hacknowledged _ hhanded)
  have hlast : server.more s.acknowledged = false → ∀ delivery ∈ server.deliveries,
      delivery ∈ s.handed ∨ delivery ∈ deliveries (server.page s.acknowledged) := by
    intro hnone delivery hdelivery
    obtain ⟨message, hmem, henvelope, hplace⟩ := mem_deliveries.mp hdelivery
    by_cases hknown : message.2 ∈ s.acknowledged
    · left
      obtain ⟨envelope, hhanded⟩ := h.acknowledged message.2 hknown
      rw [hplace] at hhanded
      have hsame : envelope = delivery.2 := envelope_eq_of_mem (h.subset hhanded) hdelivery
      rwa [hsame] at hhanded
    · right
      have hunacknowledged : message ∈ server.unacknowledged s.acknowledged :=
        List.mem_filter.mpr ⟨hmem, by simpa using hknown⟩
      rw [page_eq_unacknowledged hnone]
      exact mem_deliveries.mpr ⟨message, hunacknowledged, henvelope, hplace⟩
  exact { h with waits := ⟨_, rfl, hpage, hfresh, hreadable, hmore, hlast⟩ }

/-- The answer is handled: its envelopes are handed over, and where there are more the run goes
on. -/
theorem Delivering.receive (h : Delivering server s) {page : List QueuedMessage}
    {responseObject : Option JSON} (isCensored : Bool)
    (hfetch : s.fetch = .answered page responseObject) :
    Delivering server (s.receive page responseObject isCensored) := by
  have hwaits := h.waits
  rw [hfetch] at hwaits
  obtain ⟨more, rfl, hpage, hfresh, hreadable, hmore, hlast⟩ := hwaits
  rw [FetchRun.receive, parseMessagesResponse_messagesResponse]
  by_cases hread : ∀ message ∈ page, message.1.asDictionary?.isSome
  · rw [if_pos hread]
    simp only [places_zip_envelopes, foldl_deliver]
    have hdisjoint : s.handed.Disjoint (deliveries page) := by
      intro delivery hhanded hdelivery
      obtain ⟨message, hmem, -, hplace⟩ := mem_deliveries.mp hdelivery
      exact hfresh message hmem delivery.2 (by rw [hplace]; exact hhanded)
    have hnodup : (s.handed ++ deliveries page).Nodup :=
      List.nodup_append'.mpr ⟨h.nodup, nodup_deliveries hpage, hdisjoint⟩
    have hsubset : s.handed ++ deliveries page ⊆ server.deliveries :=
      List.append_subset.mpr ⟨h.subset, (hpage.filterMap _).subset⟩
    have hacknowledged : ∀ place ∈ s.acknowledged,
        ∃ envelope, (place, envelope) ∈ s.handed ++ deliveries page := by
      intro place hplace
      obtain ⟨envelope, hhanded⟩ := h.acknowledged place hplace
      exact ⟨envelope, List.mem_append_left _ hhanded⟩
    have hinFlight : ∀ request ∈ s.inFlight ++ (deliveries page).map fun delivery =>
        (⟨delivery.2.source, delivery.2.timestamp, delivery.1⟩ : Acknowledgement),
        ∃ envelope, (request.place, envelope) ∈ s.handed ++ deliveries page := by
      intro request hrequest
      rcases List.mem_append.mp hrequest with hbefore | hnew
      · obtain ⟨envelope, hhanded⟩ := h.inFlight request hbefore
        exact ⟨envelope, List.mem_append_left _ hhanded⟩
      · obtain ⟨delivery, hdelivery, rfl⟩ := List.mem_map.mp hnew
        exact ⟨delivery.2, List.mem_append_right _ hdelivery⟩
    have hlength : (s.handed ++ deliveries page).length =
        s.handed.length + (deliveries page).length := List.length_append
    have hrequests : s.requests ≤ (s.handed ++ deliveries page).length + 1 := by
      have := h.requests
      omega
    cases more with
    | true =>
      cases isCensored with
      | true =>
        have hsome : 0 < (deliveries page).length := List.length_pos_of_ne_nil (hmore rfl)
        have hfurther : s.requests + 1 ≤ (s.handed ++ deliveries page).length + 1 := by
          have := h.requests
          omega
        exact ⟨hnodup, hsubset, hacknowledged, hinFlight, hfurther, trivial⟩
      | false => exact ⟨hnodup, hsubset, hacknowledged, hinFlight, hrequests, trivial⟩
    | false =>
      have hall : ∀ delivery ∈ server.deliveries, delivery ∈ s.handed ++ deliveries page :=
        fun delivery hdelivery => List.mem_append.mpr (hlast rfl delivery hdelivery)
      exact ⟨hnodup, hsubset, hacknowledged, hinFlight, hrequests, hall⟩
  · rw [if_neg hread]
    exact { h with waits := hreadable.resolve_left hread }

/-- An acknowledgement is on its way no longer. -/
theorem Delivering.acknowledge (h : Delivering server s) {request : Acknowledgement}
    (hrequest : request ∈ s.inFlight) (arrives : Bool) :
    Delivering server { s with
      inFlight := s.inFlight.erase request
      acknowledged := if arrives then request.place :: s.acknowledged else s.acknowledged } := by
  have hinFlight : ∀ request' ∈ s.inFlight.erase request,
      ∃ envelope, (request'.place, envelope) ∈ s.handed := fun request' hrequest' =>
    h.inFlight request' (List.mem_of_mem_erase hrequest')
  cases arrives with
  | true =>
    have hacknowledged : ∀ place ∈ request.place :: s.acknowledged,
        ∃ envelope, (place, envelope) ∈ s.handed := by
      intro place hplace
      rcases List.mem_cons.mp hplace with rfl | hplace
      · exact h.inFlight request hrequest
      · exact h.acknowledged place hplace
    exact { h with acknowledged := hacknowledged, inFlight := hinFlight }
  | false => exact { h with inFlight := hinFlight }

theorem delivering_step (h : Delivering server s) (htimely : Timely server s e)
    (hstep : step server s e = some s') : Delivering server s' := by
  cases e with
  | serve =>
    simp only [step] at hstep
    split at hstep
    · obtain rfl := Option.some.inj hstep
      exact h.serve htimely
    · cases hstep
  | receive isCensored =>
    simp only [step] at hstep
    split at hstep
    · rename_i page responseObject hfetch
      obtain rfl := Option.some.inj hstep
      exact h.receive isCensored hfetch
    · cases hstep
  | fail =>
    simp only [step] at hstep
    split at hstep
    · obtain rfl := Option.some.inj hstep
      exact { h with waits := htimely }
    · cases hstep
  | acknowledge request =>
    simp only [step] at hstep
    split_ifs at hstep with hrequest
    obtain rfl := Option.some.inj hstep
    exact h.acknowledge hrequest true
  | acknowledgementFails request =>
    simp only [step] at hstep
    split_ifs at hstep with hrequest
    obtain rfl := Option.some.inj hstep
    exact h.acknowledge hrequest false

theorem delivering_init (server : Server) (isCensored : Bool) :
    Delivering server (machine server isCensored).init := by
  cases isCensored with
  | true => exact ⟨List.nodup_nil, List.nil_subset _, by simp [machine, FetchRun.runAsync],
      by simp [machine, FetchRun.runAsync], Nat.le_refl 1, trivial⟩
  | false => exact ⟨List.nodup_nil, List.nil_subset _, by simp [machine, FetchRun.runAsync],
      by simp [machine, FetchRun.runAsync], Nat.zero_le 1, trivial⟩

theorem Delivering.deliversEachOnce (h : Delivering server s) : DeliversEachOnce server s := by
  have hsubperm : s.handed.Subperm server.deliveries := h.nodup.subperm h.subset
  have hlength : s.handed.length ≤ server.deliveries.length := hsubperm.length_le
  have hrequests : s.requests ≤ server.deliveries.length + 1 := by
    have := h.requests
    omega
  refine ⟨hsubperm, hrequests, fun hended => ?_⟩
  have hwaits := h.waits
  rw [hended] at hwaits
  exact hsubperm.antisymm ((nodup_deliveries (List.Sublist.refl _)).subperm hwaits)

/-- A run that is not over, and not delegated, goes on. -/
theorem isSome_step (server : Server) (s : FetchRun) :
    s.fetch = .ended ∨ s.fetch = .delegated ∨ (step server s .serve).isSome ∨
      ∀ isCensored, (step server s (.receive isCensored)).isSome := by
  cases hfetch : s.fetch with
  | requested => exact .inr (.inr (.inl (by simp [step, hfetch])))
  | answered page responseObject => exact .inr (.inr (.inr fun _ => by simp [step, hfetch]))
  | delegated => exact .inr (.inl rfl)
  | ended => exact .inl rfl

variable {isCensored : Bool} {tr : History FetchRun Event}

/-- Where the server answers every page request in time, a fetch run hands each well-formed message
of the queue to the message manager at most once, and has handed all of them when it is over. It
makes at most one page request more than there are such messages, and goes on until it is over or
delegated. -/
theorem messageFetcherJob_spec (hrun : (machine server isCensored).Run tr)
    (htimely : Machine.Guarded (fun tr e =>
      Timely server ((machine server isCensored).last tr) e) tr) :
    let s := (machine server isCensored).last tr
    DeliversEachOnce server s ∧
      (s.fetch = .ended ∨ s.fetch = .delegated ∨ (step server s .serve).isSome ∨
        ∀ isCensored, (step server s (.receive isCensored)).isSome) := by
  have hdelivering : Delivering server ((machine server isCensored).last tr) := by
    apply hrun.of_guarded (P := fun tr => Delivering server ((machine server isCensored).last tr))
      (delivering_init server isCensored) _ htimely
    intro tr e s' _ hbefore hstep hguard
    exact delivering_step hbefore hguard hstep
  exact ⟨hdelivering.deliversEachOnce, isSome_step server _⟩

end

end

section

/-- No text is read as base64: the samples have none. -/
local instance sampleCoding : EnvelopeCoding where
  isEnvelopeType type := [0, 1, 2, 3, 5].contains type
  dataFromBase64 _ := none

def sampleMessage (timestamp : ℚ) : JSON :=
  .dictionary [("type".toList, .number 1), ("timestamp".toList, .number timestamp),
    ("source".toList, .string "+15550100".toList), ("sourceDevice".toList, .number 1)]

/-- Two well-formed messages on a page each. -/
def sampleServer : Server := ⟨[sampleMessage 7, sampleMessage 8], 1⟩

/-- A well-formed message behind one that is not. -/
def blockedServer : Server := ⟨[.dictionary [], sampleMessage 7], 1⟩

def sampleRequest (timestamp : UInt64) (place : ℕ) : Acknowledgement :=
  ⟨"+15550100".toList, timestamp, place⟩

/-- Two pages, with the acknowledgement of the first one in time. -/
theorem messageFetcherJob_spec_sample :
    ∃ tr, (machine sampleServer true).Run tr ∧
      ((machine sampleServer true).last tr).handed.map Prod.fst = [0, 1] ∧
      DeliversEachOnce sampleServer ((machine sampleServer true).last tr) := by
  have hexec : ((machine sampleServer true).exec [.serve, .receive true,
      .acknowledge (sampleRequest 7 0), .serve, .receive true]).map (fun tr =>
        (((machine sampleServer true).last tr).handed.map Prod.fst,
          decide (Machine.Guarded (fun tr e =>
            Timely sampleServer ((machine sampleServer true).last tr) e) tr))) =
      some ([0, 1], true) := by
    decide +kernel
  obtain ⟨tr, htr, hfacts⟩ := Option.map_eq_some_iff.mp hexec
  obtain ⟨hhanded, htimely⟩ := Prod.mk.inj hfacts
  have hrun := Machine.run_of_exec htr
  exact ⟨tr, hrun, hhanded, (messageFetcherJob_spec hrun (of_decide_eq_true htimely)).1⟩

/-- The same page is served again and again, where none of its messages is acknowledged. -/
theorem exists_requests (n : ℕ) :
    ∃ tr, (machine blockedServer true).Run tr ∧
      (machine blockedServer true).last tr = ⟨[], [], .requested, n + 1, []⟩ := by
  induction n with
  | zero => exact ⟨[], trivial, rfl⟩
  | succ n ih =>
    obtain ⟨tr, hrun, hlast⟩ := ih
    let page : List QueuedMessage := [(.dictionary [], 0)]
    let served : FetchRun := ⟨[], [], .answered page (some (messagesResponse page true)), n + 1, []⟩
    have hserve : step blockedServer ⟨[], [], .requested, n + 1, []⟩ .serve = some served := rfl
    have hreceive : step blockedServer served (.receive true) =
        some ⟨[], [], .requested, n + 1 + 1, []⟩ := rfl
    refine ⟨(.receive true, ⟨[], [], .requested, n + 1 + 1, []⟩) :: (.serve, served) :: tr,
      ⟨⟨hrun, ?_⟩, hreceive⟩, rfl⟩
    rw [hlast]
    exact hserve

/-- A page that is served before the acknowledgement of the last one has arrived is handed over
twice. A page without well-formed messages is requested without bound. -/
theorem messageFetcherJob_repeats :
    (∃ tr, (machine sampleServer true).Run tr ∧
      ((machine sampleServer true).last tr).handed.map Prod.fst = [0, 0] ∧
      ¬ DeliversEachOnce sampleServer ((machine sampleServer true).last tr)) ∧
    ¬ ∃ bound, ∀ tr, (machine blockedServer true).Run tr →
      ((machine blockedServer true).last tr).requests ≤ bound := by
  constructor
  · have hexec : ((machine sampleServer true).exec [.serve, .receive true, .serve,
        .receive true]).map (fun tr => ((machine sampleServer true).last tr).handed.map Prod.fst) =
        some [0, 0] := by
      decide +kernel
    obtain ⟨tr, htr, hhanded⟩ := Option.map_eq_some_iff.mp hexec
    refine ⟨tr, Machine.run_of_exec htr, hhanded, fun hdelivers => ?_⟩
    have hplaces : sampleServer.deliveries.map Prod.fst = [0, 1] := by decide +kernel
    obtain ⟨l, hperm, hsublist⟩ := hdelivers.1
    have hnodup : (l.map Prod.fst).Nodup := by
      apply (hsublist.map Prod.fst).nodup
      rw [hplaces]
      decide
    have htwice : [0, 0].Nodup := by
      rw [← hhanded]
      exact (hperm.map Prod.fst).nodup_iff.mp hnodup
    exact absurd htwice (by decide)
  · rintro ⟨bound, hbound⟩
    obtain ⟨tr, hrun, hlast⟩ := exists_requests bound
    have hrequests := hbound tr hrun
    rw [hlast] at hrequests
    exact Nat.not_succ_le_self bound hrequests

end

end SignalIOS.Jobs
