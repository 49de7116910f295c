import SignalIOS.Http.HttpMessages
import SignalIOS.Lib.Runs
import SignalIOS.Util.Base64
import SignalIOS.Util.CryptoTools
import SignalIOS.Util.LongLongValue

/-! The counter of the one-time passwords, which its callers read and store in two accesses to the
database, and the requests that carry it. -/
namespace SignalIOS

section
variable [CryptoTools]

def CryptoTools.computeOtpWithPassword (password : NSString) (counter : Int64) : NSString :=
  ((NSString.ofInt64 counter).encodedAsUtf8.hmacWithSha1WithKey
    password.encodedAsUtf8).encodedAsBase64

namespace Http.HttpRequest

def computeOtpAuthorizationToken (localNumber : NSString) (counterValue : Int64)
    (password : NSString) : NSString :=
  let rawToken := localNumber ++ ":".toList ++
    CryptoTools.computeOtpWithPassword password counterValue ++ ":".toList ++ .ofInt64 counterValue
  "OTP ".toList ++ rawToken.encodedAsUtf8.encodedAsBase64

def httpRequestWithOtpAuthenticationAndMethod (method location : NSString)
    (optionalBody localNumber password : Option NSString) (counter : Int64) :
    Throws HttpRequest := do
  let password ← owsRequireNotNil password
  let localNumber ← owsRequireNotNil localNumber
  return httpRequestWithAuthentication method location optionalBody
    (computeOtpAuthorizationToken localNumber counter password)

omit [CryptoTools] in
/-- What follows the last colon. -/
theorem eq_of_append_colon {x x' text text' : NSString} (h : ':' ∉ text) (h' : ':' ∉ text')
    (heq : x ++ ':' :: text = x' ++ ':' :: text') : text = text' := by
  rcases List.append_eq_append_iff.mp heq with ⟨y, -, hy⟩ | ⟨y, -, hy⟩
  · cases y with
    | nil => exact (List.cons.inj hy).2
    | cons c y =>
      obtain ⟨-, rfl⟩ := List.cons.inj hy
      exact absurd (List.mem_append_right _ List.mem_cons_self) h
  · cases y with
    | nil => exact (List.cons.inj hy).2.symm
    | cons c y =>
      obtain ⟨-, rfl⟩ := List.cons.inj hy
      exact absurd (List.mem_append_right _ List.mem_cons_self) h'

/-- The counter can be read off the token. -/
theorem counter_of_computeOtpAuthorizationToken {localNumber localNumber' password password' :
    NSString} {counter counter' : Int64}
    (h : computeOtpAuthorizationToken localNumber counter password =
      computeOtpAuthorizationToken localNumber' counter' password') : counter = counter' := by
  have htoken := NSData.encodedAsBase64_inj (List.append_cancel_left h)
  have hraw := Except.ok.inj ((NSData.decodedAsUtf8_eq_ok.mpr htoken).symm.trans
    (NSData.decodedAsUtf8_eq_ok.mpr rfl))
  have hcolon : ∀ x text : NSString, x ++ ":".toList ++ text = x ++ ':' :: text := fun x text =>
    List.append_assoc x ":".toList text
  simp only [hcolon] at hraw
  have htext := eq_of_append_colon (NSString.notMem_ofInt64 _) (NSString.notMem_ofInt64 _) hraw
  rw [← NSString.longLongValue_ofInt64 counter, htext, NSString.longLongValue_ofInt64]

end Http.HttpRequest
end

namespace Http
open SignalIOS.Lib

/-- What a caller gives to the request that it needs a counter for. -/
structure OtpRequest where
  method : NSString
  location : NSString
  optionalBody : Option NSString := none
  localNumber : Option NSString
  password : Option NSString

/-- The storage of the keys, with the calls of `getAndIncrementOneTimeCounter`. -/
structure SignalKeyingStorage where
  /-- The string under `PASSWORD_COUNTER_KEY`. -/
  passwordCounter : Option NSString
  /-- What the calls that are still to store have read. -/
  oldCounters : List Int64 := []
  /-- What the calls have returned, the latest first. -/
  returned : List Int64 := []
  /-- The requests that have been made with these, the latest first. -/
  requests : List HttpRequest := []

namespace SignalKeyingStorage

/-- `nil` is read as 0. -/
def storedCounter (s : SignalKeyingStorage) : Int64 :=
  s.passwordCounter.elim 0 NSString.longLongValue

def incremented (oldCounter : Int64) : Int64 :=
  if oldCounter = Int64.maxValue then Int64.minValue else oldCounter + 1

inductive Event
  /-- A call begins and reads the counter. -/
  | read
  /-- One of the calls that have read stores the counter and returns. Its caller makes a request of
  it, but for `RPAPICall`, which makes a serializer for requests of another library. -/
  | store (i : ℕ) (request : Option OtpRequest)

section Calls
variable [CryptoTools]

def step (s : SignalKeyingStorage) : Event → Option SignalKeyingStorage
  | .read => some { s with oldCounters := s.oldCounters ++ [s.storedCounter] }
  | .store i request =>
    s.oldCounters[i]?.map fun oldCounter =>
      let newCounter := incremented oldCounter
      { passwordCounter := some (.ofInt64 newCounter)
        oldCounters := s.oldCounters.eraseIdx i
        returned := newCounter :: s.returned
        requests := match request with
          | some r =>
            match HttpRequest.httpRequestWithOtpAuthenticationAndMethod r.method r.location
                r.optionalBody r.localNumber r.password newCounter with
            | .ok httpRequest => httpRequest :: s.requests
            | .error _ => s.requests
          | none => s.requests }

def machine (passwordCounter : Option NSString) : Machine SignalKeyingStorage Event where
  init := { passwordCounter }
  step := step

/-- The authorization of the request is computed from the counter. -/
def Carries (request : HttpRequest) (counter : Int64) : Prop :=
  ∃ localNumber password, request.headers.lookup HttpRequest.authorizationKey =
    some (HttpRequest.computeOtpAuthorizationToken localNumber counter password)

/-- No counter is used twice, and below the largest one the stored counter counts the calls. -/
structure OneTime (initial : Int64) (s : SignalKeyingStorage) : Prop where
  returned : s.returned.Nodup
  stored : initial.toInt + s.returned.length ≤ Int64.maxValue.toInt →
    s.storedCounter.toInt = initial.toInt + s.returned.length
  requests : s.requests.Pairwise fun r r' => ∀ counter, ¬ (Carries r counter ∧ Carries r' counter)

end Calls

/-- A call that stores has read what is still stored, and there are counters left. -/
def StoresWhatItRead (s : SignalKeyingStorage) : Event → Prop
  | .read => True
  | .store i _ => ∀ oldCounter ∈ s.oldCounters[i]?,
      oldCounter = s.storedCounter ∧ s.returned.length < 2 ^ 64

instance (s : SignalKeyingStorage) : ∀ e, Decidable (StoresWhatItRead s e)
  | .read => .isTrue trivial
  | .store _ _ => Option.decidableForallMem _

/-- The counters that so many calls return one after the other, the latest first. -/
def countersFrom (initial : Int64) : ℕ → List Int64
  | 0 => []
  | n + 1 => Int64.ofInt (initial.toInt + (n + 1 : ℕ)) :: countersFrom initial n

/-- As long as calls store what they read, the counters are those of calls one after the other. -/
structure Steady [CryptoTools] (initial : Int64) (s : SignalKeyingStorage) : Prop where
  returned : s.returned = countersFrom initial s.returned.length
  stored : s.storedCounter = Int64.ofInt (initial.toInt + s.returned.length)
  oldCounters : ∀ oldCounter ∈ s.oldCounters, ∃ m ≤ s.returned.length,
    oldCounter = Int64.ofInt (initial.toInt + m)
  requests : List.SublistForall₂ Carries s.requests s.returned
  length_le : s.returned.length ≤ 2 ^ 64

variable {initial : Int64} {s s' : SignalKeyingStorage} {n : ℕ}

theorem incremented_ofInt (n : ℤ) : incremented (Int64.ofInt n) = Int64.ofInt (n + 1) := by
  rw [Int64.ofInt_add]
  unfold incremented
  split_ifs with hmax
  · rw [hmax]
    rfl
  · rfl

theorem ofInt_ne {a b : ℤ} (hlt : a < b) (hb : b < a + 2 ^ 64) : Int64.ofInt a ≠ Int64.ofInt b := by
  intro h
  have hmod := congrArg (fun n : Int64 => n.toInt % (Int64.size : ℕ)) h
  simp only [Int64.toInt_ofInt, Int.bmod_emod] at hmod
  rw [Int64.size] at hmod
  omega

theorem mem_countersFrom {counter : Int64} : counter ∈ countersFrom initial n ↔
    ∃ m < n, counter = Int64.ofInt (initial.toInt + (m + 1 : ℕ)) := by
  induction n with
  | zero => simp [countersFrom]
  | succ n ih =>
    rw [countersFrom, List.mem_cons, ih]
    constructor
    · rintro (rfl | ⟨m, hm, rfl⟩)
      · exact ⟨n, Nat.lt_succ_self n, rfl⟩
      · exact ⟨m, Nat.lt_succ_of_lt hm, rfl⟩
    · rintro ⟨m, hm, rfl⟩
      rcases Nat.lt_succ_iff_lt_or_eq.mp hm with hm | rfl
      · exact .inr ⟨m, hm, rfl⟩
      · exact .inl rfl

theorem nodup_countersFrom (hn : n ≤ 2 ^ 64) : (countersFrom initial n).Nodup := by
  induction n with
  | zero => exact List.nodup_nil
  | succ n ih =>
    refine List.nodup_cons.mpr ⟨?_, ih (by omega)⟩
    rw [mem_countersFrom]
    rintro ⟨m, hm, h⟩
    exact ofInt_ne (by omega) (by omega) h.symm

section Runs
variable [CryptoTools]

theorem Carries.unique {request : HttpRequest} {counter counter' : Int64}
    (h : Carries request counter) (h' : Carries request counter') : counter = counter' := by
  obtain ⟨localNumber, password, hlookup⟩ := h
  obtain ⟨localNumber', password', hlookup'⟩ := h'
  exact HttpRequest.counter_of_computeOtpAuthorizationToken
    (Option.some.inj (hlookup.symm.trans hlookup'))

theorem carries_of_otpAuthentication {r : OtpRequest} {counter : Int64} {request : HttpRequest}
    (h : HttpRequest.httpRequestWithOtpAuthenticationAndMethod r.method r.location r.optionalBody
      r.localNumber r.password counter = .ok request) : Carries request counter := by
  obtain ⟨password, -, h⟩ := Throws.bind_eq_ok.mp h
  obtain ⟨localNumber, -, h⟩ := Throws.bind_eq_ok.mp h
  obtain rfl := Except.ok.inj h
  exact ⟨localNumber, password, AList.lookup_insert _⟩

theorem exists_mem_of_sublistForall₂ {requests : List HttpRequest} {counters : List Int64}
    (h : List.SublistForall₂ Carries requests counters) {request : HttpRequest}
    (hrequest : request ∈ requests) : ∃ counter ∈ counters, Carries request counter := by
  induction h with
  | nil => cases hrequest
  | cons hcarries _ ih =>
    rcases List.mem_cons.mp hrequest with rfl | hrequest
    · exact ⟨_, List.mem_cons_self, hcarries⟩
    · obtain ⟨counter, hmem, hcarries⟩ := ih hrequest
      exact ⟨counter, List.mem_cons_of_mem _ hmem, hcarries⟩
  | cons_right _ ih =>
    obtain ⟨counter, hmem, hcarries⟩ := ih hrequest
    exact ⟨counter, List.mem_cons_of_mem _ hmem, hcarries⟩

/-- Requests of different counters share none. -/
theorem pairwise_of_sublistForall₂ {requests : List HttpRequest} {counters : List Int64}
    (h : List.SublistForall₂ Carries requests counters) (hnodup : counters.Nodup) :
    requests.Pairwise fun r r' => ∀ counter, ¬ (Carries r counter ∧ Carries r' counter) := by
  induction h with
  | nil => exact .nil
  | cons hcarries hlater ih =>
    obtain ⟨hnotMem, hnodup⟩ := List.nodup_cons.mp hnodup
    refine .cons ?_ (ih hnodup)
    rintro request hrequest counter ⟨hfirst, hsecond⟩
    obtain ⟨counter', hmem, hcarries'⟩ := exists_mem_of_sublistForall₂ hlater hrequest
    obtain rfl := hfirst.unique hcarries
    obtain rfl := hsecond.unique hcarries'
    exact hnotMem hmem
  | cons_right _ ih => exact ih (List.nodup_cons.mp hnodup).2

theorem Steady.oneTime (h : Steady initial s) : OneTime initial s := by
  have hnodup : s.returned.Nodup := h.returned ▸ nodup_countersFrom h.length_le
  refine ⟨hnodup, ?_, pairwise_of_sublistForall₂ h.requests hnodup⟩
  intro hmax
  have hlow := initial.le_toInt
  rw [Int64.toInt_maxValue] at hmax
  rw [h.stored, Int64.toInt_ofInt_of_le (by omega) (by omega)]

/-- What a call that stores leaves. -/
theorem step_store {i : ℕ} {request : Option OtpRequest}
    (hstep : s.step (.store i request) = some s') : ∃ oldCounter,
      s.oldCounters[i]? = some oldCounter ∧
      s'.passwordCounter = some (.ofInt64 (incremented oldCounter)) ∧
      s'.oldCounters = s.oldCounters.eraseIdx i ∧
      s'.returned = incremented oldCounter :: s.returned ∧
      (s'.requests = s.requests ∨ ∃ httpRequest, Carries httpRequest (incremented oldCounter) ∧
        s'.requests = httpRequest :: s.requests) := by
  obtain ⟨oldCounter, hi, rfl⟩ := Option.map_eq_some_iff.mp hstep
  refine ⟨oldCounter, hi, rfl, rfl, rfl, ?_⟩
  cases request with
  | none => exact .inl rfl
  | some r =>
    dsimp only
    split
    case h_1 httpRequest hmade => exact .inr ⟨httpRequest, carries_of_otpAuthentication hmade, rfl⟩
    case h_2 => exact .inl rfl

theorem Steady.step {e : Event} (h : Steady initial s) (hstep : s.step e = some s')
    (hguard : StoresWhatItRead s e) : Steady initial s' := by
  cases e with
  | read =>
    obtain rfl := Option.some.inj hstep
    refine ⟨h.returned, h.stored, ?_, h.requests, h.length_le⟩
    intro oldCounter hmem
    rcases List.mem_append.mp hmem with hmem | hmem
    · exact h.oldCounters oldCounter hmem
    · obtain rfl := List.mem_singleton.mp hmem
      exact ⟨s.returned.length, Nat.le_refl _, h.stored⟩
  | store i request =>
    obtain ⟨oldCounter, hi, hcounter, holdCounters, hreturned, hrequests⟩ := step_store hstep
    obtain ⟨hread, hleft⟩ := hguard oldCounter hi
    have hnew : incremented oldCounter =
        Int64.ofInt (initial.toInt + (s.returned.length + 1 : ℕ)) := by
      rw [hread, h.stored, incremented_ofInt, Int.add_assoc]
      rfl
    have hlength : s'.returned.length = s.returned.length + 1 := by
      rw [hreturned, List.length_cons]
    constructor
    case returned =>
      rw [hlength, hreturned, hnew, countersFrom, ← h.returned]
    case stored =>
      rw [hlength, ← hnew, storedCounter, hcounter]
      exact NSString.longLongValue_ofInt64 _
    case oldCounters =>
      intro old hold
      rw [holdCounters] at hold
      obtain ⟨m, hm, hold⟩ := h.oldCounters old (List.mem_of_mem_eraseIdx hold)
      exact ⟨m, by omega, hold⟩
    case requests =>
      rw [hreturned]
      rcases hrequests with hsame | ⟨httpRequest, hcarries, hmade⟩
      · rw [hsame]
        exact .cons_right h.requests
      · rw [hmade]
        exact .cons hcarries h.requests
    case length_le =>
      rw [hlength]
      exact hleft

/-- A call that has read an old counter, or comes after all counters have been used, returns one
that another call has returned. -/
theorem storesWhatItRead_of_nodup {e : Event} (h : Steady initial s) (hstep : s.step e = some s')
    (hnodup : s'.returned.Nodup) : StoresWhatItRead s e := by
  cases e with
  | read => trivial
  | store i request =>
    obtain ⟨oldCounter, hi, -, -, hreturned, -⟩ := step_store hstep
    intro old hold
    obtain rfl := Option.some.inj (hi.symm.trans hold)
    obtain ⟨m, hm, hread⟩ := h.oldCounters oldCounter (List.mem_of_getElem? hi)
    have hnew : incremented oldCounter = Int64.ofInt (initial.toInt + (m + 1 : ℕ)) := by
      rw [hread, incremented_ofInt, Int.add_assoc]
      rfl
    have hfresh : incremented oldCounter ∉ countersFrom initial s.returned.length := by
      rw [hreturned, List.nodup_cons] at hnodup
      exact h.returned ▸ hnodup.1
    have hlast : m = s.returned.length := by
      by_contra hne
      exact hfresh (mem_countersFrom.mpr ⟨m, by omega, hnew⟩)
    constructor
    · rw [hread, h.stored, hlast]
    · by_contra hmany
      refine hfresh (mem_countersFrom.mpr ⟨m - 2 ^ 64, by omega, ?_⟩)
      have hwrap : (initial.toInt + (m + 1 : ℕ) : ℤ) =
          initial.toInt + (m - 2 ^ 64 + 1 : ℕ) + 2 ^ 64 := by omega
      rw [hnew, hwrap, Int64.ofInt_add _ (2 ^ 64)]
      exact Int64.add_zero _

theorem steady_init (passwordCounter : Option NSString) :
    Steady (machine passwordCounter).init.storedCounter (machine passwordCounter).init where
  returned := rfl
  stored := by
    show _ = Int64.ofInt (_ + 0)
    rw [Int.add_zero, Int64.ofInt_toInt]
  oldCounters _ hmem := by cases hmem
  requests := .nil
  length_le := Nat.zero_le _

/-- No counter is used twice as long as no call stores between the two accesses of another one, and
there are counters left. -/
theorem oneTime_iff {passwordCounter : Option NSString} {tr : History SignalKeyingStorage Event}
    (h : (machine passwordCounter).Run tr) :
    Machine.Always (fun tr => OneTime (machine passwordCounter).init.storedCounter
        ((machine passwordCounter).last tr)) tr ↔
      Machine.Guarded (fun tr e => StoresWhatItRead ((machine passwordCounter).last tr) e) tr := by
  refine h.always_iff_guarded_of_guarded (steady_init _).oneTime ?_
  intro tr e s hrun hguarded _ hstep
  have hsteady : Steady (machine passwordCounter).init.storedCounter
      ((machine passwordCounter).last tr) :=
    hrun.of_guarded (P := fun tr => Steady _ ((machine passwordCounter).last tr)) (steady_init _)
      (fun _ _ _ _ hsteady hstep hguard => hsteady.step hstep hguard) hguarded
  constructor
  · exact fun hafter => storesWhatItRead_of_nodup hsteady hstep hafter.returned
  · exact fun hguard => (hsteady.step hstep hguard).oneTime

end Runs

section Sample

/-- An HMAC that has its key in front. -/
local instance otpCryptoTools : CryptoTools where
  sha256 data := data
  hmacSha256 key data := key ++ data
  hmacSha1 key data := key ++ data
  aesCfbEncrypt _ _ data := data
  aesCfbDecrypt _ _ data := data
  aesCtrEncrypt _ _ data := data
  aesCtrDecrypt _ _ data := data

def ringRequest : OtpRequest where
  method := "RING".toList
  location := "/session/1".toList
  localNumber := some "+19025555555".toList
  password := some "pw".toList

/-- Two calls one after the other. -/
theorem oneTime_inTurn : ∃ tr,
    (machine (some "2356".toList)).exec [.read, .store 0 ringRequest, .read, .store 0 none] =
      some tr ∧
    ((machine (some "2356".toList)).last tr).returned = [2358, 2357] ∧
    Machine.Always (fun tr => OneTime (machine (some "2356".toList)).init.storedCounter
      ((machine (some "2356".toList)).last tr)) tr := by
  have hexec : ((machine (some "2356".toList)).exec
      [.read, .store 0 ringRequest, .read, .store 0 none]).map (fun tr =>
        (((machine (some "2356".toList)).last tr).returned, decide (Machine.Guarded
          (fun tr e => StoresWhatItRead ((machine (some "2356".toList)).last tr) e) tr))) =
      some ([2358, 2357], true) := by
    decide +kernel
  obtain ⟨tr, htr, hboth⟩ := Option.map_eq_some_iff.mp hexec
  obtain ⟨hreturned, hguarded⟩ := Prod.mk.inj hboth
  exact ⟨tr, htr, hreturned,
    (oneTime_iff (Machine.run_of_exec htr)).mpr (of_decide_eq_true hguarded)⟩

/-- Two calls read before either of them stores. -/
theorem not_oneTime : ∃ tr,
    (machine (some "2356".toList)).exec
      [.read, .read, .store 0 ringRequest, .store 0 ringRequest] = some tr ∧
    ((machine (some "2356".toList)).last tr).returned = [2357, 2357] ∧
    ((machine (some "2356".toList)).last tr).storedCounter = 2357 ∧
    (∃ token, ((machine (some "2356".toList)).last tr).requests.map
      (fun r => r.headers.lookup HttpRequest.authorizationKey) = [some token, some token]) ∧
    ¬ OneTime (machine (some "2356".toList)).init.storedCounter
      ((machine (some "2356".toList)).last tr) := by
  have hexec : ((machine (some "2356".toList)).exec
      [.read, .read, .store 0 ringRequest, .store 0 ringRequest]).map (fun tr =>
        (((machine (some "2356".toList)).last tr).returned,
          ((machine (some "2356".toList)).last tr).storedCounter,
          ((machine (some "2356".toList)).last tr).requests.map
            (fun r => r.headers.lookup HttpRequest.authorizationKey))) =
      some ([2357, 2357], 2357, List.replicate 2
        (some (HttpRequest.computeOtpAuthorizationToken "+19025555555".toList 2357
          "pw".toList))) := rfl
  obtain ⟨tr, htr, hlast⟩ := Option.map_eq_some_iff.mp hexec
  simp only [Prod.mk.injEq] at hlast
  obtain ⟨hreturned, hstored, hrequests⟩ := hlast
  refine ⟨tr, htr, hreturned, hstored, ⟨_, hrequests⟩, fun honce => ?_⟩
  have hnodup := honce.returned
  rw [hreturned] at hnodup
  exact absurd hnodup (by decide)

end Sample

end SignalKeyingStorage
end Http
end SignalIOS
