import SignalIOS.Lib.Runs
import SignalIOS.Util.NSString

/-! The database migrations of an installation, over its launches. -/
namespace SignalIOS.Migrations
open SignalIOS.Lib

/-- The `uniqueId` of a migration. -/
abbrev MigrationId := NSString

/-- A release of the program, with `allMigrations` in their order. -/
structure Release where
  currentVersion : NSString
  allMigrations : List MigrationId
  nodup : allMigrations.Nodup

/-- How far a launch has come in the loop over its migrations. -/
inductive UpdateCheck
  | assumeAllExistingMigrationsRun (rest : List MigrationId)
  | runAllOutstanding (rest : List MigrationId)
  | done

/-- A launched process: the migrations it has called `runUp` of, in this order, those whose
transactions are still to be executed, and those whose completion blocks are still to run. -/
structure Process where
  release : Release
  updateCheck : UpdateCheck
  submitted : List MigrationId
  pending : List MigrationId
  committed : List MigrationId

/-- What is kept on the device, and the process, if there is one. `saved` is the collection
`OWSDatabaseMigration`, `store` is what the transactions of the migrations work on. -/
structure Installation (Store : Type) where
  store : Store
  saved : List MigrationId
  lastRanVersion : Option NSString
  process : Option Process

inductive Event
  | launch (release : Release)
  | proceed
  | execute (migration : MigrationId)
  | complete (migration : MigrationId)
  | stop

def UpdateCheck.rest : UpdateCheck → List MigrationId
  | .assumeAllExistingMigrationsRun rest => rest
  | .runAllOutstanding rest => rest
  | .done => []

def performUpdateCheck (previousVersion : Option NSString) (release : Release) : Process where
  release := release
  updateCheck := match previousVersion with
    | none => .assumeAllExistingMigrationsRun release.allMigrations
    | some _ => .runAllOutstanding release.allMigrations
  submitted := []
  pending := []
  committed := []

/-- The transaction goes to a connection of its own, and waits there. -/
def Process.runUp (p : Process) (migration : MigrationId) : Process :=
  { p with submitted := p.submitted ++ [migration], pending := p.pending ++ [migration] }

namespace Installation
variable {Store : Type}

/-- `save` replaces the record that there may be under the `uniqueId`. -/
def save (s : Installation Store) (migration : MigrationId) : Installation Store :=
  { s with saved := s.saved.insert migration }

/-- One turn of the loop of the launch, or `setAndGetCurrentVersion` after the last one. -/
def proceed (s : Installation Store) (p : Process) : Option (Installation Store) :=
  match p.updateCheck with
  | .assumeAllExistingMigrationsRun (migration :: rest) => some { s.save migration with
      process := some { p with updateCheck := .assumeAllExistingMigrationsRun rest } }
  | .runAllOutstanding (migration :: rest) =>
    let next := { p with updateCheck := .runAllOutstanding rest }
    some { s with process := some (if migration ∈ s.saved then next else next.runUp migration) }
  | .assumeAllExistingMigrationsRun [] | .runAllOutstanding [] => some { s with
      lastRanVersion := some p.release.currentVersion
      process := some { p with updateCheck := .done } }
  | .done => none

/-- One event. The transactions that wait are executed in any order, each one as a whole or not
at all, and a process stops at any point. -/
def step (runUpWithTransaction : MigrationId → Store → Store) (s : Installation Store) :
    Event → Option (Installation Store)
  | .launch release =>
    if s.process.isSome then none
    else some { s with process := some (performUpdateCheck s.lastRanVersion release) }
  | .proceed => s.process.bind s.proceed
  | .execute migration => s.process.bind fun p =>
    if migration ∈ p.pending then
      some { s with
        store := runUpWithTransaction migration s.store
        process := some { p with
          pending := p.pending.erase migration, committed := p.committed ++ [migration] } }
    else none
  | .complete migration => s.process.bind fun p =>
    if migration ∈ p.committed then
      some { s.save migration with
        process := some { p with committed := p.committed.erase migration } }
    else none
  | .stop => s.process.map fun _ => { s with process := none }

end Installation

variable {Store : Type}

/-- The runs of an installation that no migration is recorded in yet. -/
def machine (runUpWithTransaction : MigrationId → Store → Store) (store : Store)
    (lastRanVersion : Option NSString) : Machine (Installation Store) Event where
  init := ⟨store, [], lastRanVersion, none⟩
  step := Installation.step runUpWithTransaction

def Executes (migration : MigrationId) (_ : Installation Store) (e : Event) : Prop :=
  e = .execute migration

/-- The launch of a new installation takes the migration as run. -/
def AssumesRun (migration : MigrationId) (s : Installation Store) (e : Event) : Prop :=
  e = .proceed ∧ ∃ p rest, s.process = some p ∧ s.lastRanVersion = none ∧
    p.updateCheck = .assumeAllExistingMigrationsRun (migration :: rest)

/-- The installation as the latest launch has found it. -/
def atLaunch (M : Machine (Installation Store) Event) :
    History (Installation Store) Event → Installation Store
  | [] => M.init
  | (.launch _, _) :: tr => M.last tr
  | _ :: tr => atLaunch M tr

/-- The migrations whose transactions were executed since the latest launch, the last one first. -/
def executedSinceLaunch : History (Installation Store) Event → List MigrationId
  | [] => []
  | (.launch _, _) :: _ => []
  | (.execute migration, _) :: tr => migration :: executedSinceLaunch tr
  | _ :: tr => executedSinceLaunch tr

/-- All whose transactions were executed, the last one first. -/
def executed (tr : History (Installation Store) Event) : List MigrationId :=
  tr.filterMap fun p => match p.1 with
    | .execute migration => some migration
    | _ => none

/-- The migrations of a release that an installation has no record of, in their order. -/
def outstanding (s : Installation Store) (migrations : List MigrationId) : List MigrationId :=
  migrations.filter (· ∉ s.saved)

/-- A process, by the installation `before` that it was launched on, the present one, and what
was executed since. -/
structure Launched (before s : Installation Store) (p : Process)
    (executed : List MigrationId) : Prop where
  kept : before.saved ⊆ s.saved
  split : p.submitted.Perm (p.pending ++ executed)
  committed : p.committed ⊆ executed
  completed : ∀ m ∈ executed, m ∈ p.committed ∨ m ∈ s.saved
  assumed : before.lastRanVersion = none → p.submitted = [] ∧
    (∀ m ∈ p.release.allMigrations, m ∈ p.updateCheck.rest ∨ m ∈ s.saved) ∧
    ∀ rest, p.updateCheck ≠ .runAllOutstanding rest
  submitted : before.lastRanVersion ≠ none →
    p.submitted ++ outstanding before p.updateCheck.rest =
        outstanding before p.release.allMigrations ∧
      (∀ m ∈ s.saved, m ∈ before.saved ∨ m ∈ executed) ∧
      ∀ rest, p.updateCheck ≠ .assumeAllExistingMigrationsRun rest
  version : p.updateCheck ≠ .done → s.lastRanVersion = before.lastRanVersion


section
variable {before s : Installation Store} {p : Process} {ex : List MigrationId} {m : MigrationId}

theorem mem_outstanding {migrations : List MigrationId} :
    m ∈ outstanding before migrations ↔ m ∈ migrations ∧ m ∉ before.saved := by
  simp [outstanding]

theorem outstanding_cons_of_mem {rest : List MigrationId} (h : m ∈ before.saved) :
    outstanding before (m :: rest) = outstanding before rest := by
  simp [outstanding, h]

theorem outstanding_cons_of_not_mem {rest : List MigrationId} (h : m ∉ before.saved) :
    outstanding before (m :: rest) = m :: outstanding before rest := by
  simp [outstanding, h]

theorem Launched.executed_subset (h : Launched before s p ex) : ex ⊆ p.submitted :=
  fun _ hm => h.split.mem_iff.mpr (List.mem_append_right _ hm)

/-- No migration is submitted twice, or comes up again in the loop. -/
theorem Launched.nodup (h : Launched before s p ex) :
    (p.submitted ++ outstanding before p.updateCheck.rest).Nodup ∨ p.submitted = [] := by
  by_cases hversion : before.lastRanVersion = none
  · exact .inr (h.assumed hversion).1
  · left
    rw [(h.submitted hversion).1]
    exact p.release.nodup.filter _

theorem Launched.nodup_submitted (h : Launched before s p ex) : p.submitted.Nodup := by
  rcases h.nodup with hnodup | hnone
  · exact (List.nodup_append.mp hnodup).1
  · rw [hnone]
    exact List.nodup_nil

theorem Launched.mem_saved (h : Launched before s p ex) (hm : m ∈ p.submitted)
    (hsaved : m ∈ s.saved) : m ∈ ex := by
  by_cases hversion : before.lastRanVersion = none
  · rw [(h.assumed hversion).1] at hm
    cases hm
  · have hall : m ∈ outstanding before p.release.allMigrations := by
      rw [← (h.submitted hversion).1]
      exact List.mem_append_left _ hm
    exact ((h.submitted hversion).2.1 m hsaved).resolve_left (mem_outstanding.mp hall).2

/-- A migration whose transaction waits is not recorded. -/
theorem Launched.pending_not_saved (h : Launched before s p ex) (hm : m ∈ p.pending) :
    m ∉ s.saved := by
  intro hsaved
  have hsplit : (p.pending ++ ex).Nodup := h.split.nodup_iff.mp h.nodup_submitted
  have hsubmitted : m ∈ p.submitted := h.split.mem_iff.mpr (List.mem_append_left _ hm)
  have hex : m ∈ ex := h.mem_saved hsubmitted hsaved
  exact (List.nodup_append.mp hsplit).2.2 m hm m hex rfl

/-- The launch that records what it does not run is the one of a new installation. -/
theorem Launched.newInstallation (h : Launched before s p ex) {rest : List MigrationId}
    (hcheck : p.updateCheck = .assumeAllExistingMigrationsRun rest) :
    before.lastRanVersion = none := by
  by_contra hversion
  exact (h.submitted hversion).2.2 rest hcheck

theorem Launched.lastRanVersion_eq_none (h : Launched before s p ex) {rest : List MigrationId}
    (hcheck : p.updateCheck = .assumeAllExistingMigrationsRun rest) :
    s.lastRanVersion = none := by
  rw [h.version (by rw [hcheck]; simp), h.newInstallation hcheck]

theorem Launched.lastRanVersion_ne_none (h : Launched before s p ex) {rest : List MigrationId}
    (hcheck : p.updateCheck = .runAllOutstanding rest) : before.lastRanVersion ≠ none :=
  fun hversion => (h.assumed hversion).2.2 rest hcheck

end

section
variable {s s' : Installation Store} {release : Release}

theorem launched_performUpdateCheck (s : Installation Store) (release : Release) :
    Launched s { s with process := some (performUpdateCheck s.lastRanVersion release) }
      (performUpdateCheck s.lastRanVersion release) [] where
  kept := List.Subset.refl _
  split := List.Perm.nil
  committed := List.Subset.refl _
  completed := fun m hm => absurd hm List.not_mem_nil
  assumed := fun hversion => by
    rw [hversion]
    exact ⟨rfl, fun m hm => .inl hm, fun rest h => by cases h⟩
  submitted := fun hversion => by
    obtain ⟨version, hsome⟩ := Option.ne_none_iff_exists'.mp hversion
    rw [hsome]
    exact ⟨rfl, fun m hm => .inl hm, fun rest h => by cases h⟩
  version := fun _ => rfl

variable {before : Installation Store} {p : Process} {ex : List MigrationId} {m : MigrationId}

/-- The loop of a launch has come to its end. -/
theorem Launched.proceed_done (h : Launched before s p ex) (hrest : p.updateCheck.rest = [])
    (hstep : some { s with
      lastRanVersion := some p.release.currentVersion
      process := some { p with updateCheck := .done } } = some s') :
    ∃ p', s'.process = some p' ∧ Launched before s' p' ex := by
  obtain rfl := Option.some.inj hstep
  refine ⟨_, rfl, ?_⟩
  exact { h with
    assumed := fun hversion => by
      obtain ⟨hnone, hall, -⟩ := h.assumed hversion
      rw [hrest] at hall
      exact ⟨hnone, hall, fun rest h => by cases h⟩
    submitted := fun hversion => by
      obtain ⟨horder, hsaved, -⟩ := h.submitted hversion
      rw [hrest] at horder
      exact ⟨horder, hsaved, fun rest h => by cases h⟩
    version := fun hne => absurd rfl hne }

/-- A migration is recorded without being run. -/
theorem Launched.proceed_assume (h : Launched before s p ex) {rest : List MigrationId}
    (hcheck : p.updateCheck = .assumeAllExistingMigrationsRun (m :: rest)) :
    Launched before
      { s.save m with
        process := some { p with updateCheck := .assumeAllExistingMigrationsRun rest } }
      { p with updateCheck := .assumeAllExistingMigrationsRun rest } ex := by
  have hversion := h.newInstallation hcheck
  obtain ⟨hnone, hall, -⟩ := h.assumed hversion
  exact { h with
    kept := fun m' hm' => List.mem_insert_of_mem (h.kept hm')
    completed := fun m' hm' => (h.completed m' hm').imp_right List.mem_insert_of_mem
    assumed := fun _ => by
      refine ⟨hnone, fun m' hm' => ?_, fun rest h => by cases h⟩
      rcases hall m' hm' with hrest | hsaved
      · rw [hcheck] at hrest
        rcases List.mem_cons.mp hrest with rfl | hrest
        · exact .inr (List.mem_insert_self ..)
        · exact .inl hrest
      · exact .inr (List.mem_insert_of_mem hsaved)
    submitted := fun hne => absurd hversion hne
    version := fun _ => h.version (by rw [hcheck]; simp) }

/-- What the loop comes to is recorded just where it was before the launch: the launch itself has
not submitted it yet. -/
theorem Launched.mem_saved_iff (h : Launched before s p ex) {rest : List MigrationId}
    (hcheck : p.updateCheck = .runAllOutstanding (m :: rest)) :
    m ∈ s.saved ↔ m ∈ before.saved := by
  obtain ⟨horder, hsaved, -⟩ := h.submitted (h.lastRanVersion_ne_none hcheck)
  rw [hcheck, UpdateCheck.rest] at horder
  constructor
  · intro hm
    by_contra hbefore
    have hex : m ∈ ex := (hsaved m hm).resolve_left hbefore
    have hnodup : (p.submitted ++ outstanding before (m :: rest)).Nodup := by
      rw [horder]
      exact p.release.nodup.filter _
    have hrest : m ∈ outstanding before (m :: rest) :=
      mem_outstanding.mpr ⟨List.mem_cons_self, hbefore⟩
    exact (List.nodup_append.mp hnodup).2.2 m (h.executed_subset hex) m hrest rfl
  · exact fun hbefore => h.kept hbefore

/-- A recorded migration is passed over. -/
theorem Launched.proceed_skip (h : Launched before s p ex) {rest : List MigrationId}
    (hcheck : p.updateCheck = .runAllOutstanding (m :: rest)) (hm : m ∈ s.saved) :
    Launched before
      { s with process := some { p with updateCheck := .runAllOutstanding rest } }
      { p with updateCheck := .runAllOutstanding rest } ex := by
  have hversion := h.lastRanVersion_ne_none hcheck
  obtain ⟨horder, hsaved, -⟩ := h.submitted hversion
  rw [hcheck, UpdateCheck.rest, outstanding_cons_of_mem ((h.mem_saved_iff hcheck).mp hm)] at horder
  exact { h with
    assumed := fun hnone => absurd hnone hversion
    submitted := fun _ => ⟨horder, hsaved, fun rest h => by cases h⟩
    version := fun _ => h.version (by rw [hcheck]; simp) }

open scoped List in
/-- The transaction of a migration is submitted. -/
theorem Launched.proceed_runUp (h : Launched before s p ex) {rest : List MigrationId}
    (hcheck : p.updateCheck = .runAllOutstanding (m :: rest)) (hm : m ∉ s.saved) :
    Launched before
      { s with process := some (Process.runUp { p with updateCheck := .runAllOutstanding rest } m) }
      (Process.runUp { p with updateCheck := .runAllOutstanding rest } m) ex := by
  have hversion := h.lastRanVersion_ne_none hcheck
  obtain ⟨horder, hsaved, -⟩ := h.submitted hversion
  have hbefore : m ∉ before.saved := fun hbefore => hm ((h.mem_saved_iff hcheck).mpr hbefore)
  rw [hcheck, UpdateCheck.rest, outstanding_cons_of_not_mem hbefore] at horder
  have hsplit : (p.submitted ++ [m]).Perm (p.pending ++ [m] ++ ex) := by
    calc p.submitted ++ [m] ~ (p.pending ++ ex) ++ [m] := h.split.append_right _
      _ ~ [m] ++ (p.pending ++ ex) := List.perm_append_comm
      _ = ([m] ++ p.pending) ++ ex := (List.append_assoc ..).symm
      _ ~ (p.pending ++ [m]) ++ ex := List.perm_append_comm.append_right _
  exact { h with
    split := hsplit
    assumed := fun hnone => absurd hnone hversion
    submitted := fun _ => ⟨by simpa [Process.runUp, UpdateCheck.rest] using horder, hsaved,
      fun rest h => by cases h⟩
    version := fun _ => h.version (by rw [hcheck]; simp) }

/-- The loop turns. -/
theorem Launched.proceed (h : Launched before s p ex) (hstep : s.proceed p = some s') :
    ∃ p', s'.process = some p' ∧ Launched before s' p' ex := by
  rw [Installation.proceed] at hstep
  split at hstep
  case h_1 m rest hcheck =>
    obtain rfl := Option.some.inj hstep
    exact ⟨_, rfl, h.proceed_assume hcheck⟩
  case h_2 m rest hcheck =>
    obtain rfl := Option.some.inj hstep
    refine ⟨_, rfl, ?_⟩
    by_cases hm : m ∈ s.saved
    · rw [if_pos hm]
      exact h.proceed_skip hcheck hm
    · rw [if_neg hm]
      exact h.proceed_runUp hcheck hm
  case h_3 hcheck => exact h.proceed_done (by rw [hcheck]; rfl) hstep
  case h_4 hcheck => exact h.proceed_done (by rw [hcheck]; rfl) hstep
  case h_5 hcheck => cases hstep

/-- A transaction is executed. -/
theorem Launched.execute (h : Launched before s p ex) (hm : m ∈ p.pending) (store : Store)
    (hprocess : s' = { s with
      store := store
      process := some { p with
        pending := p.pending.erase m, committed := p.committed ++ [m] } }) :
    ∃ p', s'.process = some p' ∧ Launched before s' p' (m :: ex) := by
  subst hprocess
  refine ⟨_, rfl, ?_⟩
  have hsplit : p.submitted.Perm (p.pending.erase m ++ m :: ex) :=
    (h.split.trans ((List.perm_cons_erase hm).append_right ex)).trans List.perm_middle.symm
  exact { h with
    split := hsplit
    committed := fun m' hm' => by
      rcases List.mem_append.mp hm' with hm' | hm'
      · exact List.mem_cons_of_mem _ (h.committed hm')
      · exact List.mem_cons.mpr (.inl (List.mem_singleton.mp hm'))
    completed := fun m' hm' => by
      rcases List.mem_cons.mp hm' with rfl | hm'
      · exact .inl (List.mem_append_right _ (List.mem_singleton_self _))
      · exact (h.completed m' hm').imp_left (List.mem_append_left _)
    submitted := fun hversion => by
      obtain ⟨horder, hsaved, hcheck⟩ := h.submitted hversion
      exact ⟨horder, fun m' hm' => (hsaved m' hm').imp_right (List.mem_cons_of_mem _), hcheck⟩ }

/-- The completion block of a transaction has run. -/
theorem Launched.complete (h : Launched before s p ex) (hm : m ∈ p.committed)
    (hprocess : s' = { s.save m with
      process := some { p with committed := p.committed.erase m } }) :
    ∃ p', s'.process = some p' ∧ Launched before s' p' ex := by
  subst hprocess
  refine ⟨_, rfl, ?_⟩
  have hkeeps : s.saved ⊆ (s.save m).saved := fun m' hm' => List.mem_insert_of_mem hm'
  exact { h with
    kept := fun m' hm' => hkeeps (h.kept hm')
    committed := fun m' hm' => h.committed (List.mem_of_mem_erase hm')
    completed := fun m' hm' => by
      by_cases hsame : m' = m
      · subst hsame
        exact .inr (List.mem_insert_self ..)
      · rcases h.completed m' hm' with hcommitted | hsaved
        · exact .inl ((List.mem_erase_of_ne hsame).mpr hcommitted)
        · exact .inr (hkeeps hsaved)
    assumed := fun hversion => by
      obtain ⟨hnone, hall, hcheck⟩ := h.assumed hversion
      exact ⟨hnone, fun m' hm' => (hall m' hm').imp_right fun hsaved => hkeeps hsaved, hcheck⟩
    submitted := fun hversion => by
      obtain ⟨horder, hsaved, hcheck⟩ := h.submitted hversion
      refine ⟨horder, fun m' hm' => ?_, hcheck⟩
      rcases List.mem_insert_iff.mp hm' with rfl | hm'
      · exact .inr (h.committed hm)
      · exact hsaved m' hm' }

end

section
variable {runUp : MigrationId → Store → Store} {store : Store} {version : Option NSString}
  {tr : History (Installation Store) Event} {m : MigrationId}

/-- What one event does to the process that runs before it, and after it. -/
theorem launched_step {s s' before : Installation Store} {p' : Process} {ex : List MigrationId}
    {e : Event} (hlaunched : ∀ p, s.process = some p → Launched before s p ex)
    (hstep : s.step runUp e = some s') (hprocess : s'.process = some p') :
    match e with
    | .launch _ => Launched s s' p' []
    | .execute m => Launched before s' p' (m :: ex)
    | _ => Launched before s' p' ex := by
  cases e with
  | launch release =>
    simp only [Installation.step] at hstep
    split_ifs at hstep
    obtain rfl := Option.some.inj hstep
    obtain rfl := Option.some.inj hprocess
    exact launched_performUpdateCheck s release
  | proceed =>
    obtain ⟨p, hp, hstep⟩ := Option.bind_eq_some_iff.mp hstep
    obtain ⟨q, hq, hnext⟩ := (hlaunched p hp).proceed hstep
    obtain rfl := Option.some.inj (hq.symm.trans hprocess)
    exact hnext
  | execute m =>
    obtain ⟨p, hp, hstep⟩ := Option.bind_eq_some_iff.mp hstep
    split_ifs at hstep with hm
    obtain ⟨q, hq, hnext⟩ := (hlaunched p hp).execute hm _ (Option.some.inj hstep).symm
    obtain rfl := Option.some.inj (hq.symm.trans hprocess)
    exact hnext
  | complete m =>
    obtain ⟨p, hp, hstep⟩ := Option.bind_eq_some_iff.mp hstep
    split_ifs at hstep with hm
    obtain ⟨q, hq, hnext⟩ := (hlaunched p hp).complete hm (Option.some.inj hstep).symm
    obtain rfl := Option.some.inj (hq.symm.trans hprocess)
    exact hnext
  | stop =>
    obtain ⟨p, hp, rfl⟩ := Option.map_eq_some_iff.mp hstep
    cases hprocess

theorem launched_run (hrun : (machine runUp store version).Run tr) :
    ∀ p, ((machine runUp store version).last tr).process = some p →
      Launched (atLaunch (machine runUp store version) tr) ((machine runUp store version).last tr) p
        (executedSinceLaunch tr) := by
  apply hrun.invariant (P := fun tr => ∀ p,
    ((machine runUp store version).last tr).process = some p →
      Launched (atLaunch (machine runUp store version) tr) ((machine runUp store version).last tr) p
        (executedSinceLaunch tr))
  · intro p hp
    cases hp
  · intro tr e s' _ hlaunched hstep p hp
    have hnext := launched_step hlaunched hstep hp
    cases e <;> exact hnext

/-- What a turn of the loop may change besides the process. -/
theorem proceed_cases {s s' : Installation Store} {p : Process} (hstep : s.proceed p = some s') :
    s'.store = s.store ∧
      ((s'.saved = s.saved ∧ s'.lastRanVersion = s.lastRanVersion) ∨
        (s'.saved = s.saved ∧ s'.lastRanVersion = some p.release.currentVersion) ∨
        ∃ m rest, p.updateCheck = .assumeAllExistingMigrationsRun (m :: rest) ∧
          s'.saved = s.saved.insert m ∧ s'.lastRanVersion = s.lastRanVersion) := by
  rw [Installation.proceed] at hstep
  split at hstep
  case h_1 m rest hcheck =>
    obtain rfl := Option.some.inj hstep
    exact ⟨rfl, .inr (.inr ⟨m, rest, hcheck, rfl, rfl⟩)⟩
  case h_2 m rest hcheck =>
    obtain rfl := Option.some.inj hstep
    exact ⟨rfl, .inl ⟨rfl, rfl⟩⟩
  case h_3 hcheck =>
    obtain rfl := Option.some.inj hstep
    exact ⟨rfl, .inr (.inl ⟨rfl, rfl⟩)⟩
  case h_4 hcheck =>
    obtain rfl := Option.some.inj hstep
    exact ⟨rfl, .inr (.inl ⟨rfl, rfl⟩)⟩
  case h_5 hcheck => cases hstep

/-- Where a record comes from, and that none goes. -/
theorem saved_step {s s' : Installation Store} {e : Event} (hstep : s.step runUp e = some s') :
    s.saved ⊆ s'.saved ∧ (s.lastRanVersion ≠ none → s'.lastRanVersion ≠ none) ∧
      ∀ m ∈ s'.saved, m ∈ s.saved ∨ ∃ p, s.process = some p ∧ (m ∈ p.committed ∨
        e = .proceed ∧ ∃ rest, p.updateCheck = .assumeAllExistingMigrationsRun (m :: rest)) := by
  cases e with
  | launch release =>
    simp only [Installation.step] at hstep
    split_ifs at hstep
    obtain rfl := Option.some.inj hstep
    exact ⟨List.Subset.refl _, id, fun m hm => .inl hm⟩
  | proceed =>
    obtain ⟨p, hp, hstep⟩ := Option.bind_eq_some_iff.mp hstep
    rcases (proceed_cases hstep).2 with ⟨hsaved, hversion⟩ | ⟨hsaved, hversion⟩ |
      ⟨m, rest, hcheck, hsaved, hversion⟩
    · rw [hsaved, hversion]
      exact ⟨List.Subset.refl _, id, fun m hm => .inl hm⟩
    · rw [hsaved, hversion]
      exact ⟨List.Subset.refl _, fun _ => Option.some_ne_none _, fun m hm => .inl hm⟩
    · rw [hsaved, hversion]
      refine ⟨fun m' hm' => List.mem_insert_of_mem hm', id, fun m' hm' => ?_⟩
      rcases List.mem_insert_iff.mp hm' with rfl | hm'
      · exact .inr ⟨p, hp, .inr ⟨rfl, rest, hcheck⟩⟩
      · exact .inl hm'
  | execute m =>
    obtain ⟨p, hp, hstep⟩ := Option.bind_eq_some_iff.mp hstep
    split_ifs at hstep
    obtain rfl := Option.some.inj hstep
    exact ⟨List.Subset.refl _, id, fun m hm => .inl hm⟩
  | complete m =>
    obtain ⟨p, hp, hstep⟩ := Option.bind_eq_some_iff.mp hstep
    split_ifs at hstep with hm
    obtain rfl := Option.some.inj hstep
    refine ⟨fun m' hm' => List.mem_insert_of_mem hm', id, fun m' hm' => ?_⟩
    rcases List.mem_insert_iff.mp hm' with rfl | hm'
    · exact .inr ⟨p, hp, .inl hm⟩
    · exact .inl hm'
  | stop =>
    obtain ⟨p, hp, rfl⟩ := Option.map_eq_some_iff.mp hstep
    exact ⟨List.Subset.refl _, id, fun m hm => .inl hm⟩

theorem happened_of_executedSinceLaunch (hm : m ∈ executedSinceLaunch tr) :
    (machine runUp store version).Happened (Executes m) tr := by
  induction tr with
  | nil => cases hm
  | cons event tr ih =>
    obtain ⟨e, s⟩ := event
    cases e with
    | launch release => cases hm
    | execute m' =>
      rcases List.mem_cons.mp hm with rfl | hm
      · exact .inl rfl
      · exact .inr (ih hm)
    | proceed => exact .inr (ih hm)
    | complete m' => exact .inr (ih hm)
    | stop => exact .inr (ih hm)

/-- A record is the one of a transaction that was executed, or of a launch that has found a new
installation. -/
theorem happened_of_saved (hrun : (machine runUp store version).Run tr) :
    ∀ m ∈ ((machine runUp store version).last tr).saved,
      (machine runUp store version).Happened (Executes m) tr ∨
        (machine runUp store version).Happened (AssumesRun m) tr := by
  apply hrun.invariant (P := fun tr => ∀ m ∈ ((machine runUp store version).last tr).saved,
    (machine runUp store version).Happened (Executes m) tr ∨
      (machine runUp store version).Happened (AssumesRun m) tr)
  · intro m hm
    cases hm
  · intro tr e s' hrun hbefore hstep m hm
    rcases (saved_step hstep).2.2 m hm with hsaved | ⟨p, hp, hcommitted | ⟨rfl, rest, hcheck⟩⟩
    · exact (hbefore m hsaved).imp .inr .inr
    · have hex : m ∈ executedSinceLaunch tr := (launched_run hrun p hp).committed hcommitted
      exact .inl (.inr (happened_of_executedSinceLaunch hex))
    · have hversion := (launched_run hrun p hp).lastRanVersion_eq_none hcheck
      exact .inr (.inl ⟨rfl, p, rest, hp, hversion, hcheck⟩)

/-- The transactions have changed the store, in the order they were executed in, and nothing
else has. -/
theorem store_run (hrun : (machine runUp store version).Run tr) :
    ((machine runUp store version).last tr).store = (executed tr).foldr runUp store := by
  apply hrun.invariant (P := fun tr =>
    ((machine runUp store version).last tr).store = (executed tr).foldr runUp store)
  · rfl
  · intro tr e s' _ hstore hstep
    rw [Machine.last_cons]
    cases e with
    | launch release =>
      simp only [machine, Installation.step] at hstep
      split_ifs at hstep
      obtain rfl := Option.some.inj hstep
      exact hstore
    | proceed =>
      obtain ⟨p, hp, hstep⟩ := Option.bind_eq_some_iff.mp hstep
      exact (proceed_cases hstep).1.trans hstore
    | execute m =>
      obtain ⟨p, hp, hstep⟩ := Option.bind_eq_some_iff.mp hstep
      split_ifs at hstep
      obtain rfl := Option.some.inj hstep
      exact congrArg (runUp m) hstore
    | complete m =>
      obtain ⟨p, hp, hstep⟩ := Option.bind_eq_some_iff.mp hstep
      split_ifs at hstep
      obtain rfl := Option.some.inj hstep
      exact hstore
    | stop =>
      obtain ⟨p, hp, rfl⟩ := Option.map_eq_some_iff.mp hstep
      exact hstore

/-- What is left to do in a launch can be done. -/
theorem isSome_step {s : Installation Store} {p : Process} (hp : s.process = some p) :
    (p.updateCheck ≠ .done → (s.step runUp .proceed).isSome) ∧
      (∀ m ∈ p.pending, (s.step runUp (.execute m)).isSome) ∧
      ∀ m ∈ p.committed, (s.step runUp (.complete m)).isSome := by
  refine ⟨fun hnotDone => ?_, fun m hm => ?_, fun m hm => ?_⟩
  · rw [Installation.step, hp, Option.bind_some, Installation.proceed]
    split
    case h_5 hcheck => exact absurd hcheck hnotDone
    all_goals rfl
  · rw [Installation.step, hp, Option.bind_some, if_pos hm]
    rfl
  · rw [Installation.step, hp, Option.bind_some, if_pos hm]
    rfl

theorem not_mem_saved_of_execute {s : Installation Store}
    (hrun : (machine runUp store version).Run tr)
    (hstep : ((machine runUp store version).last tr).step runUp (.execute m) = some s) :
    m ∉ ((machine runUp store version).last tr).saved := by
  obtain ⟨p, hp, hstep⟩ := Option.bind_eq_some_iff.mp hstep
  split_ifs at hstep with hm
  exact (launched_run hrun p hp).pending_not_saved hm

/-- The records of the migrations, over any launches, and with the process stopped at any point.
What is recorded was executed, or is of a new installation; it stays recorded, and is not executed
again. The launch of an installation that is not new submits the migrations that it has found no
record of, in their order, and when its loop is done it has submitted all of them. What is
submitted waits, or was executed in this launch, once; and what was executed is recorded as soon
as its completion block has run. -/
theorem databaseMigrations_spec (hrun : (machine runUp store version).Run tr) :
    let M := machine runUp store version
    let s := M.last tr
    let before := atLaunch M tr
    s.store = (executed tr).foldr runUp store ∧
      (∀ m ∈ s.saved, M.Happened (Executes m) tr ∨ M.Happened (AssumesRun m) tr) ∧
      (∀ e s' earlier, tr = (e, s') :: earlier →
        (M.last earlier).saved ⊆ s'.saved ∧
          ((M.last earlier).lastRanVersion ≠ none → s'.lastRanVersion ≠ none) ∧
          ∀ m, e = .execute m → m ∉ (M.last earlier).saved) ∧
      ∀ p, s.process = some p →
        (before.lastRanVersion ≠ none →
          p.submitted ++ outstanding before p.updateCheck.rest =
            outstanding before p.release.allMigrations) ∧
          (before.lastRanVersion = none → p.submitted = [] ∧
            ∀ m ∈ p.release.allMigrations, m ∈ p.updateCheck.rest ∨ m ∈ s.saved) ∧
          p.submitted.Nodup ∧
          p.submitted.Perm (p.pending ++ executedSinceLaunch tr) ∧
          (∀ m ∈ executedSinceLaunch tr, m ∈ p.committed ∨ m ∈ s.saved) ∧
          (p.updateCheck ≠ .done → (M.step s .proceed).isSome) ∧
          (∀ m ∈ p.pending, (M.step s (.execute m)).isSome) ∧
          ∀ m ∈ p.committed, (M.step s (.complete m)).isSome := by
  intro M s before
  have hrecords : ∀ e s' earlier, tr = (e, s') :: earlier →
      (M.last earlier).saved ⊆ s'.saved ∧
        ((M.last earlier).lastRanVersion ≠ none → s'.lastRanVersion ≠ none) ∧
        ∀ m, e = .execute m → m ∉ (M.last earlier).saved := by
    rintro e s' earlier rfl
    obtain ⟨hkept, hversion, -⟩ := saved_step hrun.2
    refine ⟨hkept, hversion, ?_⟩
    rintro m rfl
    exact not_mem_saved_of_execute hrun.1 hrun.2
  refine ⟨store_run hrun, happened_of_saved hrun, hrecords, fun p hp => ?_⟩
  have hlaunched := launched_run hrun p hp
  have hassumed : before.lastRanVersion = none → p.submitted = [] ∧
      ∀ m ∈ p.release.allMigrations, m ∈ p.updateCheck.rest ∨ m ∈ s.saved := fun hversion =>
    ⟨(hlaunched.assumed hversion).1, (hlaunched.assumed hversion).2.1⟩
  exact ⟨fun hversion => (hlaunched.submitted hversion).1, hassumed, hlaunched.nodup_submitted,
    hlaunched.split, hlaunched.completed, isSome_step hp⟩

end

/-- `allMigrations` of the runner. -/
def allMigrations : List MigrationId := ["100".toList, "101".toList, "102".toList]

def sampleRelease : Release := ⟨"2.7.0".toList, allMigrations, by decide⟩

/-- A store that lists the migrations that have worked on it, the last one first. -/
def sampleMachine : Option NSString → Machine (Installation (List MigrationId)) Event :=
  machine List.cons []

/-- The second migration runs in one launch, and the others are submitted again in the next. -/
theorem databaseMigrations_spec_sample :
    ∃ tr p, (sampleMachine (some "2.6.4".toList)).Run tr ∧
      ((sampleMachine (some "2.6.4".toList)).last tr).process = some p ∧
      p.submitted = ["100".toList, "102".toList] ∧ p.submitted.Nodup := by
  have hexec : ((sampleMachine (some "2.6.4".toList)).exec [.launch sampleRelease, .proceed,
      .proceed, .execute "101".toList, .complete "101".toList, .stop, .launch sampleRelease,
      .proceed, .proceed, .proceed, .proceed]).map (fun tr =>
        ((sampleMachine (some "2.6.4".toList)).last tr).process.map Process.submitted) =
      some (some ["100".toList, "102".toList]) := by
    decide +kernel
  obtain ⟨tr, htr, hprocess⟩ := Option.map_eq_some_iff.mp hexec
  obtain ⟨p, hp, hsubmitted⟩ := Option.map_eq_some_iff.mp hprocess
  have hrun := Machine.run_of_exec htr
  obtain ⟨-, -, -, hlaunch⟩ := databaseMigrations_spec hrun
  obtain ⟨-, -, hnodup, -⟩ := hlaunch p hp
  exact ⟨tr, p, hrun, hp, hsubmitted, hnodup⟩

/-- A new installation records a migration that has not run. In the launch of another one the
second migration is executed while the first is neither recorded nor executed. -/
theorem databaseMigrations_outOfOrder :
    (∃ tr, (sampleMachine none).Run tr ∧ executed tr = [] ∧
      ((sampleMachine none).last tr).saved = ["100".toList]) ∧
    ∃ tr, (sampleMachine (some "2.6.4".toList)).Run tr ∧
      tr.map (fun p => p.2.saved) = [[], [], [], []] ∧ executed tr = ["101".toList] ∧
      ((sampleMachine (some "2.6.4".toList)).last tr).process.map Process.submitted =
        some ["100".toList, "101".toList] := by
  constructor
  · have hexec : ((sampleMachine none).exec [.launch sampleRelease, .proceed]).map (fun tr =>
        (executed tr, ((sampleMachine none).last tr).saved)) = some ([], ["100".toList]) := by
      decide +kernel
    obtain ⟨tr, htr, hfacts⟩ := Option.map_eq_some_iff.mp hexec
    obtain ⟨hexecuted, hsaved⟩ := Prod.mk.inj hfacts
    exact ⟨tr, Machine.run_of_exec htr, hexecuted, hsaved⟩
  · have hexec : ((sampleMachine (some "2.6.4".toList)).exec [.launch sampleRelease, .proceed,
        .proceed, .execute "101".toList]).map (fun tr => (tr.map (fun p => p.2.saved), executed tr,
          ((sampleMachine (some "2.6.4".toList)).last tr).process.map Process.submitted)) =
        some ([[], [], [], []], ["101".toList], some ["100".toList, "101".toList]) := by
      decide +kernel
    obtain ⟨tr, htr, hfacts⟩ := Option.map_eq_some_iff.mp hexec
    obtain ⟨hsaved, hfacts⟩ := Prod.mk.inj hfacts
    obtain ⟨hexecuted, hsubmitted⟩ := Prod.mk.inj hfacts
    exact ⟨tr, Machine.run_of_exec htr, hsaved, hexecuted, hsubmitted⟩

end SignalIOS.Migrations
