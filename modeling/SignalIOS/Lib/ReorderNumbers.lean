import SignalIOS.Lib.ReorderBuffer

/-! Buffers of entries with unbounded numbers, and buffers that see images of these numbers. -/
namespace SignalIOS.Lib

/-- Entries that are numbered by integers. -/
def Sequencing.integers {ε : Type} (number : ε → ℤ) (ahead : ℤ) (spanLimit capacity : ℕ) :
    Sequencing ε ℤ where
  number
  distance a b := b - a
  next a := a + 1
  ahead
  spanLimit
  capacity

theorem Sequencing.integers_lawful {ε : Type} (number : ε → ℤ) {ahead : ℤ} {spanLimit capacity : ℕ}
    (hahead : 0 ≤ ahead) (hspanLimit : 0 < spanLimit) (hcapacity : 0 < capacity) :
    (integers number ahead spanLimit capacity).Lawful where
  distance_self a := Int.sub_self a
  distance_sub {a b c} _ _ _ := by
    show c - b = c - a - (b - a)
    omega
  distance_next {a b c} _ _ _ := by
    show c - (b + 1) = c - a - (b - a) - 1
    omega
  distance_inj {a b c} h := by
    have heq : b - a = c - a := h
    omega
  ahead := hahead
  capacity := hcapacity
  spanLimit := hspanLimit

namespace ReorderBuffer

section Ascending
variable {ε : Type} {number : ε → ℤ}

/-- Between two synchronizations, the entries are dequeued in the order of their numbers. The first
is not below `low`. -/
def AscendingFrom (number : ε → ℤ) : Option ℤ → List (Event ε) → Prop
  | _, [] => True
  | low, .dequeued entry :: events =>
    (∀ bound ∈ low, bound ≤ number entry) ∧ AscendingFrom number (some (number entry + 1)) events
  | _, .synchronized _ :: events => AscendingFrom number none events
  | low, .accepted _ :: events => AscendingFrom number low events
  | low, .discarded _ :: events => AscendingFrom number low events

theorem AscendingFrom.weaken {events : List (Event ε)} {low low' : Option ℤ}
    (h : AscendingFrom number low events) (hlow : ∀ bound' ∈ low', ∃ bound ∈ low, bound' ≤ bound) :
    AscendingFrom number low' events := by
  induction events generalizing low low' with
  | nil => trivial
  | cons event events ih =>
    cases event with
    | dequeued entry =>
      refine ⟨?_, h.2⟩
      intro bound' hbound'
      obtain ⟨bound, hbound, hle⟩ := hlow bound' hbound'
      exact Int.le_trans hle (h.1 bound hbound)
    | synchronized _ => exact h
    | accepted _ =>
      have hrest : AscendingFrom number low events := h
      exact ih hrest hlow
    | discarded _ =>
      have hrest : AscendingFrom number low events := h
      exact ih hrest hlow

/-- Once synchronized, whatever is dequeued later is not below the bound. -/
theorem AscendingFrom.bound_le {bound : ℤ} {events rest : List (Event ε)} {entry : ε}
    (h : AscendingFrom number (some bound) (events ++ .dequeued entry :: rest))
    (hevents : ∀ entries, .synchronized entries ∉ events) : bound ≤ number entry := by
  induction events generalizing bound with
  | nil => exact h.1 bound rfl
  | cons event events ih =>
    have hrest : ∀ entries, .synchronized entries ∉ events :=
      fun entries hmem => hevents entries (List.mem_cons_of_mem _ hmem)
    cases event with
    | dequeued first =>
      have hfirst : bound ≤ number first := h.1 bound rfl
      have hlater := ih h.2 hrest
      omega
    | synchronized entries => exact absurd (List.mem_cons_self ..) (hevents entries)
    | accepted _ => exact ih h hrest
    | discarded _ => exact ih h hrest

theorem AscendingFrom.lt {low : Option ℤ} {front between rest : List (Event ε)} {x y : ε}
    (h : AscendingFrom number low (front ++ .dequeued x :: between ++ .dequeued y :: rest))
    (hbetween : ∀ entries, .synchronized entries ∉ between) : number x < number y := by
  induction front generalizing low with
  | nil =>
    have hrest : AscendingFrom number (some (number x + 1)) (between ++ .dequeued y :: rest) := h.2
    have hle := hrest.bound_le hbetween
    omega
  | cons event front ih =>
    cases event with
    | dequeued _ => exact ih h.2
    | synchronized _ => exact ih h
    | accepted _ => exact ih h
    | discarded _ => exact ih h

/-- A run dequeues in the order of the numbers, from its head on. -/
theorem run_ascending {ahead : ℤ} {spanLimit capacity : ℕ}
    (hN : (Sequencing.integers number ahead spanLimit capacity).Lawful)
    {b : ReorderBuffer ε ℤ}
    (h : WellFormed (Sequencing.integers number ahead spanLimit capacity) b)
    (inputs : List (Input ε)) :
    AscendingFrom number (some b.head)
      (run (Sequencing.integers number ahead spanLimit capacity) b inputs).1.flatten := by
  induction inputs generalizing b with
  | nil => trivial
  | cons input inputs ih =>
    have hrest := ih (h.step hN input)
    rw [run, List.flatten_cons]
    cases input with
    | arrival entry =>
      rw [step] at hrest ⊢
      rcases arrive_cases _ b entry with ⟨-, harrive⟩ | ⟨-, -, harrive⟩ |
        ⟨-, hfits, queued, hqueued, hcase⟩
      · rw [harrive] at hrest ⊢
        exact hrest.weaken (by simp)
      · rw [harrive] at hrest ⊢
        exact hrest
      · obtain ⟨-, hwithin⟩ := insert_sorted hN h.sorted h.within hfits
        rw [← hqueued] at hwithin
        rcases hcase with ⟨-, harrive⟩ | ⟨first, second, rest, rfl, -, harrive⟩
        · rw [harrive] at hrest ⊢
          exact hrest
        · rw [harrive] at hrest ⊢
          have hsecond : 0 ≤ number second - b.head := (hwithin second (by simp)).1
          refine hrest.weaken ?_
          intro bound' hbound'
          obtain rfl := Option.some.inj hbound'
          refine ⟨number second, rfl, ?_⟩
          omega
    | request =>
      rw [step] at hrest ⊢
      rcases request_cases _ b with ⟨-, hrequest⟩ | ⟨-, -, hrequest⟩ |
        ⟨-, first, rest, hqueued, -, hrequest⟩
      · rw [hrequest] at hrest ⊢
        exact hrest
      · rw [hrequest] at hrest ⊢
        exact hrest
      · rw [hrequest] at hrest ⊢
        have hfirst : 0 ≤ number first - b.head := (h.within first (by simp [hqueued])).1
        refine ⟨?_, hrest⟩
        intro bound hbound
        obtain rfl := Option.some.inj hbound
        omega

end Ascending

section Images
variable {ε ε' ν ν' : Type}

/-- The entries of `N` are those of `M`, seen through `f`, and their numbers seen through `g`. Near
each other, the images of numbers have the distance of the numbers. -/
structure Images (M : Sequencing ε ν) (N : Sequencing ε' ν') (f : ε → ε') (g : ν → ν') : Prop where
  number : ∀ entry, N.number (f entry) = g (M.number entry)
  next : ∀ a, N.next (g a) = g (M.next a)
  distance : ∀ a b, 0 ≤ M.distance a b → M.distance a b ≤ M.ahead →
    N.distance (g a) (g b) = M.distance a b
  ahead : N.ahead = M.ahead
  spanLimit : N.spanLimit = M.spanLimit
  capacity : N.capacity = M.capacity

def Event.map (f : ε → ε') : Event ε → Event ε'
  | .accepted entry => .accepted (f entry)
  | .synchronized dropped => .synchronized (dropped.map f)
  | .discarded entry => .discarded (f entry)
  | .dequeued entry => .dequeued (f entry)

theorem accepted_map (f : ε → ε') (events : List (Event ε)) :
    accepted (events.map (Event.map f)) = (accepted events).map f := by
  rw [accepted, accepted, List.filterMap_map, List.map_filterMap]
  apply List.filterMap_congr
  intro event _
  cases event <;> rfl

theorem dequeued_map (f : ε → ε') (events : List (Event ε)) :
    dequeued (events.map (Event.map f)) = (dequeued events).map f := by
  rw [dequeued, dequeued, List.filterMap_map, List.map_filterMap]
  apply List.filterMap_congr
  intro event _
  cases event <;> rfl

def Input.map (f : ε → ε') : Input ε → Input ε'
  | .arrival entry => .arrival (f entry)
  | .request => .request

def map (f : ε → ε') (g : ν → ν') (b : ReorderBuffer ε ν) : ReorderBuffer ε' ν' :=
  ⟨g b.head, b.span, b.queued.map f⟩

/-- An entry whose image is near the image of the head is near the head. -/
def NearAsSeen (M : Sequencing ε ν) (N : Sequencing ε' ν') (g : ν → ν') (b : ReorderBuffer ε ν)
    (entry : ε) : Prop :=
  b.span ≤ M.spanLimit → 0 ≤ N.distance (g b.head) (g (M.number entry)) →
    N.distance (g b.head) (g (M.number entry)) ≤ N.ahead →
    0 ≤ M.distance b.head (M.number entry) ∧ M.distance b.head (M.number entry) ≤ M.ahead

variable {M : Sequencing ε ν} {N : Sequencing ε' ν'} {f : ε → ε'} {g : ν → ν'}
  {b : ReorderBuffer ε ν} {entry : ε}

theorem fits_map (hM : M.Lawful) (hN : Images M N f g) (h : WellFormed M b) {entry : ε}
    (hspan : b.span ≤ M.spanLimit) (hnear : NearAsSeen M N g b entry) :
    Fits N (b.map f g) (f entry) ↔ Fits M b entry := by
  have hdistance (x : ε) (hx : 0 ≤ M.distance b.head (M.number x) ∧
      M.distance b.head (M.number x) ≤ M.ahead) :
      N.distance (g b.head) (g (M.number x)) = M.distance b.head (M.number x) :=
    hN.distance _ _ hx.1 hx.2
  unfold Fits map
  simp only [hN.number, List.forall_mem_map]
  constructor
  · rintro ⟨hlow, hhigh, hnew⟩
    obtain ⟨hlow', hhigh'⟩ := hnear hspan hlow hhigh
    refine ⟨hlow', hhigh', ?_⟩
    intro x hx heq
    exact hnew x hx (congrArg g heq)
  · rintro ⟨hlow, hhigh, hnew⟩
    rw [hdistance entry ⟨hlow, hhigh⟩, hN.ahead]
    refine ⟨hlow, hhigh, ?_⟩
    intro x hx heq
    have hxdistance := hdistance x (h.within x hx)
    rw [heq, hdistance entry ⟨hlow, hhigh⟩] at hxdistance
    exact hnew x hx (hM.distance_inj hxdistance).symm

theorem orderedInsert_map (hN : Images M N f g) (h : WellFormed M b) {entry : ε}
    (hfits : Fits M b entry) :
    (b.queued.map f).orderedInsert (Before N (g b.head)) (f entry) =
      (b.queued.orderedInsert (Before M b.head) entry).map f := by
  have hentry : N.distance (g b.head) (N.number (f entry)) =
      M.distance b.head (M.number entry) := by
    rw [hN.number]
    exact hN.distance _ _ hfits.1 hfits.2.1
  have hqueued : ∀ x ∈ b.queued, N.distance (g b.head) (N.number (f x)) =
      M.distance b.head (M.number x) := by
    intro x hx
    rw [hN.number]
    exact hN.distance _ _ (h.within x hx).1 (h.within x hx).2
  refine (List.map_orderedInsert _ _ f b.queued entry ?_ ?_).symm
  · intro x hx
    rw [Before, Before, hentry, hqueued x hx]
  · intro x hx
    rw [Before, Before, hentry, hqueued x hx]

theorem request_map (hN : Images M N f g) (h : WellFormed M b) :
    request N (b.map f g) = ((request M b).1.map (Event.map f), (request M b).2.map f g) := by
  unfold request
  by_cases hspan : b.span > M.spanLimit
  · rw [if_pos hspan, if_pos (show (b.map f g).span > N.spanLimit from hN.spanLimit ▸ hspan)]
    rfl
  · rw [if_neg hspan, if_neg (show ¬ (b.map f g).span > N.spanLimit from hN.spanLimit ▸ hspan)]
    cases hqueued : b.queued with
    | nil =>
      have hmap : (b.map f g).queued = [] := congrArg (List.map f) hqueued
      rw [hmap]
      simp only [map, hqueued, List.map_nil]
    | cons first rest =>
      have hmap : (b.map f g).queued = f first :: rest.map f := congrArg (List.map f) hqueued
      have hfirst := h.within first (by simp [hqueued])
      have hdistance : N.distance (b.map f g).head (N.number (f first)) =
          M.distance b.head (M.number first) := by
        rw [hN.number]
        exact hN.distance _ _ hfirst.1 hfirst.2
      simp only [hmap, hdistance]
      by_cases hnear : M.distance b.head (M.number first) < b.span
      · rw [if_pos hnear,
          if_pos (show M.distance b.head (M.number first) < (b.map f g).span from hnear)]
        simp only [map, hN.number, hN.next, List.map_cons, List.map_nil, Event.map]
      · rw [if_neg hnear,
          if_neg (show ¬ M.distance b.head (M.number first) < (b.map f g).span from hnear)]
        simp only [map, hqueued, List.map_cons, List.map_nil]

variable [DecidableEq ν] [DecidableEq ν']

theorem arrive_map (hM : M.Lawful) (hN : Images M N f g) (h : WellFormed M b) {entry : ε}
    (hnear : NearAsSeen M N g b entry) :
    arrive N (b.map f g) (f entry) =
      ((arrive M b entry).1.map (Event.map f), (arrive M b entry).2.map f g) := by
  unfold arrive
  by_cases hspan : b.span > M.spanLimit
  · rw [if_pos hspan, if_pos (show (b.map f g).span > N.spanLimit from hN.spanLimit ▸ hspan)]
    simp only [map, hN.number, List.map_cons, List.map_nil, Event.map]
  · rw [if_neg hspan, if_neg (show ¬ (b.map f g).span > N.spanLimit from hN.spanLimit ▸ hspan)]
    have hiff := fits_map hM hN h (Nat.le_of_not_lt hspan) hnear
    by_cases hfits : Fits M b entry
    · rw [if_pos hfits, if_pos (hiff.mpr hfits)]
      have hinsert : (b.map f g).queued.orderedInsert (Before N (b.map f g).head) (f entry) =
          (b.queued.orderedInsert (Before M b.head) entry).map f := orderedInsert_map hN h hfits
      rw [hinsert]
      cases b.queued.orderedInsert (Before M b.head) entry with
      | nil => rfl
      | cons first queued =>
        cases queued with
        | nil => rfl
        | cons second rest =>
          simp only [List.map_cons, List.length_map, hN.capacity]
          by_cases hcapacity : rest.length + 2 ≤ M.capacity
          · rw [if_pos hcapacity, if_pos hcapacity]
            rfl
          · rw [if_neg hcapacity, if_neg hcapacity]
            simp only [map, hN.number, List.map_cons, List.map_nil, Event.map]
    · rw [if_neg hfits, if_neg (fun hfits' => hfits (hiff.mp hfits'))]
      rfl

/-- In every state of the run, an entry that arrives is near if its image is. -/
def NearAsSeenAlong (M : Sequencing ε ν) (N : Sequencing ε' ν') (g : ν → ν') :
    ReorderBuffer ε ν → List (Input ε) → Prop
  | _, [] => True
  | b, .arrival entry :: inputs =>
    NearAsSeen M N g b entry ∧ NearAsSeenAlong M N g (arrive M b entry).2 inputs
  | b, .request :: inputs => NearAsSeenAlong M N g (request M b).2 inputs

instance : Decidable (NearAsSeen M N g b entry) :=
  inferInstanceAs (Decidable (_ → _ → _ → _ ∧ _))

instance decidableNearAsSeenAlong : ∀ (b : ReorderBuffer ε ν) (inputs : List (Input ε)),
    Decidable (NearAsSeenAlong M N g b inputs)
  | _, [] => .isTrue trivial
  | b, .arrival entry :: inputs =>
    have := decidableNearAsSeenAlong (arrive M b entry).2 inputs
    inferInstanceAs (Decidable (NearAsSeen M N g b entry ∧ _))
  | b, .request :: inputs => decidableNearAsSeenAlong (request M b).2 inputs

/-- A buffer that sees images of the numbers does what the buffer does that sees the numbers. -/
theorem run_map (hM : M.Lawful) (hN : Images M N f g) (h : WellFormed M b)
    {inputs : List (Input ε)} (hnear : NearAsSeenAlong M N g b inputs) :
    run N (b.map f g) (inputs.map (Input.map f)) =
      ((run M b inputs).1.map (List.map (Event.map f)), (run M b inputs).2.map f g) := by
  induction inputs generalizing b with
  | nil => rfl
  | cons input inputs ih =>
    cases input with
    | arrival entry =>
      have hstep : step N (b.map f g) (Input.map f (.arrival entry)) =
          ((arrive M b entry).1.map (Event.map f), (arrive M b entry).2.map f g) :=
        arrive_map hM hN h hnear.1
      rw [List.map_cons, run, hstep, ih (h.arrive hM entry) hnear.2]
      rfl
    | request =>
      have hstep : step N (b.map f g) (Input.map f .request) =
          ((request M b).1.map (Event.map f), (request M b).2.map f g) := request_map hN h
      rw [List.map_cons, run, hstep, ih (h.request hM) hnear]
      rfl

end Images
end ReorderBuffer
end SignalIOS.Lib
