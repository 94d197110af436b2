import InfraOperator.Proofs.Filters
import InfraOperator.Proofs.Provisioning.Correlation
import InfraOperator.Proofs.Provisioning.Creation

/-!
# Retries beside the units there are

A stage creates a unit after the one listing of the cycle, and only where every unit listed for the
stage at the present generation was made for another wish for a retry than the present one. Without
a wish there is no such unit at all. A unit that was made for another wish is set apart whatever it
is doing: a wish that is raised while a unit runs has a second one created beside it.
-/

set_option autoImplicit false

namespace InfraOperator.Provisioning

open Pipeline (Keeps observeSteps keeps_cons_of_any_end)

def listed? : StoreCall ConfigurationStore → Option (List Job)
  | ⟨.listUnits _ _, some (.ok units)⟩ => some units
  | _ => none

def listings (calls : Calls) : List (List Job) := calls.filterMap listed?

theorem listings_append (calls later : Calls) :
    listings (calls ++ later) = listings calls ++ listings later :=
  List.filterMap_append ..

/-- Those of the units that stand for the stage at the present generation were all made for another
wish than the present one. -/
def SetApart (settings : Settings) (c : Configuration) (uid : String) (stage : Stage)
    (units : List Job) : Prop :=
  ∀ unit ∈ units, unit.ServesIn settings.namespaceName uid stage (Resource.generation c) →
    ∃ wish, c.retryMarker = some wish ∧ unit.retry? ≠ some wish.seconds

/-- The stage has no unit of its own among those that were listed once. -/
def Vacant (settings : Settings) (c : Configuration) (past : Calls) (stage : Stage) : Prop :=
  ∃ uid units, c.metadata.uid = some uid ∧ listings past = [units] ∧
    SetApart settings c uid stage units

/-- A job is created for a stage that is vacant, and a unit carries the name of that stage. -/
def CreatesInVacancy (settings : Settings) (c : Configuration) (past : Calls)
    (r : Surroundings.Request ConfigurationStore) : Prop :=
  ∀ job, r = .store (.createJob job) →
    ∃ stage, (job.isExecutor = true → job.stage? = some stage) ∧ Vacant settings c past stage

variable {settings : Settings} {c : Configuration} {past : Calls} {cycle : ConfigurationCycle}

theorem setApart_of_latest? {uid : String} {stage : Stage} {units : List Job}
    (h : (c.unitFilter settings.namespaceName uid stage).latest? units = none) :
    SetApart settings c uid stage units := by
  intro unit listed serves
  have refused := UnitFilter.accepts_eq_false_of_latest? h unit listed
  rw [← Configuration.unitFilterAt_self, Bool.eq_false_iff] at refused
  -- The filter refuses a unit that serves the stage for nothing but the wish.
  by_cases answers : ∀ wish, c.retryMarker = some wish → unit.retry? = some wish.seconds
  · apply absurd _ refused
    exact Configuration.accepts_unitFilterAt.2
      ⟨serves.stage, serves.generation, serves.owner, serves.namespaceName_eq, answers⟩
  · obtain ⟨wish, other⟩ := Classical.not_forall.1 answers
    exact ⟨wish, Classical.not_imp.1 other⟩

/-! ## The stages -/

structure Unlisted (c : Configuration) (past : Calls) (cycle : ConfigurationCycle) : Prop where
  metadata_eq : cycle.resource.metadata = c.metadata
  listings_eq : listings past = []

structure Listed (c : Configuration) (past : Calls) (cycle : ConfigurationCycle) : Prop where
  metadata_eq : cycle.resource.metadata = c.metadata
  listings_eq : listings past = [cycle.scratch.units]

theorem Unlisted.change {own : Calls} {cycle' : ConfigurationCycle} (h : Unlisted c past cycle)
    (change : Change settings cycle own cycle') (unlisted : listings own = []) :
    Unlisted c (past ++ own) cycle' where
  metadata_eq := change.metadata_eq.trans h.metadata_eq
  listings_eq := by rw [listings_append, h.listings_eq, unlisted, List.append_nil]

theorem Listed.change {own : Calls} {cycle' : ConfigurationCycle} (h : Listed c past cycle)
    (change : Change settings cycle own cycle') (unlisted : listings own = [])
    (units_eq : cycle'.scratch.units = cycle.scratch.units) : Listed c (past ++ own) cycle' where
  metadata_eq := change.metadata_eq.trans h.metadata_eq
  listings_eq := by rw [listings_append, h.listings_eq, unlisted, List.append_nil, units_eq]

theorem unitFilter_eq {namespaceName uid : String} {stage : Stage} {r : Configuration}
    (metadata_eq : r.metadata = c.metadata) :
    r.unitFilter namespaceName uid stage = c.unitFilter namespaceName uid stage := by
  have generation_eq : Resource.generation r = Resource.generation c :=
    congrArg ObjectMeta.generationOrZero metadata_eq
  have retryMarker_eq : r.retryMarker = c.retryMarker :=
    congrArg (fun m : ObjectMeta => (m.annotation? Annotation.retry).bind readRetryMarker?)
      metadata_eq
  unfold Configuration.unitFilter
  rw [generation_eq, retryMarker_eq]

theorem listings_of_found {own : Calls} {p : Provider} (h : ProviderFound cycle own p) :
    listings own = [] := by
  cases h <;> rfl

theorem listings_of_watched {r : UnitRequest} {unit : Job} {watched : Calls}
    (h : WatcherCalls r unit watched) : listings watched = [] := by
  cases h <;> rfl

theorem vacant_of_opens {s : StageRun} {own : Calls} (known : Listed c past cycle)
    (opens : s.Opens settings cycle) (unlisted : listings own = []) :
    Vacant settings c (past ++ own) s.stage := by
  obtain ⟨uid, owner, unseen⟩ := opens.unseen
  refine ⟨uid, cycle.scratch.units, ?_, ?_, ?_⟩
  · rw [← known.metadata_eq]
    exact uid_of_ownerUid owner
  · rw [listings_append, known.listings_eq, unlisted, List.append_nil]
  · rw [unitFilter_eq known.metadata_eq] at unseen
    exact setApart_of_latest? unseen

theorem createsInVacancy_of_asks {s : StageRun} {own : Calls}
    {r : Surroundings.Request ConfigurationStore} (known : Listed c past cycle)
    (asks : s.Asks settings cycle own r) : CreatesInVacancy settings c (past ++ own) r := by
  intro job made
  cases asks with
  | provider => cases made
  | tell => cases made
  | watcher opens found on rendered watched =>
    cases made
    refine ⟨s.stage, fun executes => ?_, vacant_of_opens known opens (listings_of_found found)⟩
    rw [UnitRequest.isExecutor_of_renderWatcher watched] at executes
    cases executes
  | unit opens found rendered watchers =>
    cases made
    obtain ⟨uid, account, -, rfl⟩ := UnitRequest.exists_of_renderUnit rendered
    refine ⟨s.stage, fun _ => UnitRequest.stage?_unitFor, vacant_of_opens known opens ?_⟩
    rw [listings_append, listings_of_found found, listings_of_watched watchers]
    rfl

theorem createsInVacancy_of_ne {r : Surroundings.Request ConfigurationStore}
    (idle : ∀ job, r ≠ .store (.createJob job)) : CreatesInVacancy settings c past r :=
  fun job made => absurd made (idle job)

theorem createsInVacancy_of_ordinary {r : Surroundings.Request ConfigurationStore}
    (h : Ordinary r) : CreatesInVacancy settings c past r :=
  createsInVacancy_of_ne h.ne_createJob

abbrev Watchful (settings : Settings) (c : Configuration) (past : Calls)
    (p : Program ((Supervised ConfigurationStore).noting ConfigurationCycle)
      (Outcome Directive × ConfigurationCycle)) : Prop :=
  Keeps (fun past _ r => CreatesInVacancy settings c past r) (fun _ _ _ => True) p past

theorem watchful_stage {name : String} {s : StageRun} {rest : List ConfigurationStep}
    (hs : s ∈ StageRun.all) (known : Listed c past cycle)
    (next : ∀ cycle', Listed c past cycle' →
      Watchful settings c past (observeSteps name rest cycle')) :
    Watchful settings c past (observeSteps name (s.toStep settings :: rest) cycle) := by
  apply keeps_cons_of_any_end StageRun.does_run
  · intro own r asks
    exact createsInVacancy_of_asks known asks
  · intro own verdict cycle' ends go
    obtain ⟨rfl, passes⟩ := ends.passes go
    have later := known.change (ends.change hs) rfl (congrArg Scratch.units passes.scratch_eq)
    rw [List.append_nil] at later ⊢
    exact next cycle' later

/-! ## The steps -/

theorem watchful_calm {name : String} {step : ConfigurationStep} {rest : List ConfigurationStep}
    (calm : Calm settings step)
    (next : ∀ own cycle', Watchful settings c (past ++ own) (observeSteps name rest cycle')) :
    Watchful settings c past (observeSteps name (step :: rest) cycle) := by
  apply keeps_cons_of_any_end (calm cycle)
  · intro own r
    exact createsInVacancy_of_ordinary
  · intro own verdict cycle' change go
    exact next own cycle'

theorem watchful_listing {name : String} {rest : List ConfigurationStep}
    (known : Unlisted c past cycle)
    (next : ∀ own cycle', Listed c (past ++ own) cycle' →
      Watchful settings c (past ++ own) (observeSteps name rest cycle')) :
    Watchful settings c past (observeSteps name (ensureUnitListing settings :: rest) cycle) := by
  apply keeps_cons_of_any_end does_ensureUnitListing
  · rintro own r ⟨uid, rfl⟩
    exact createsInVacancy_of_ordinary trivial
  · intro own verdict cycle' ends go
    cases ends with
    | ownerless => cases go
    | failed => cases go
    | listed owner =>
      apply next
      constructor
      · exact known.metadata_eq
      · rw [listings_append, known.listings_eq]
        rfl

theorem listings_of_secret {desired : Secret} {own : Calls} {result : Outcome Unit}
    (h : SecretEnds desired own result) : listings own = [] := by
  cases h <;> rfl

theorem watchful_stages {name : String} (known : Unlisted c past cycle) :
    Watchful settings c past (observeSteps name
      [ensureUnitListing settings, ensureJobConfiguration settings,
        StageRun.plan.toStep settings, StageRun.verify.toStep settings,
        StageRun.apply.toStep settings, ensureResourceCount settings,
        ensureConnectionSecret settings, ensureReady] cycle) := by
  apply watchful_listing known
  intro own cycle known
  apply keeps_cons_of_any_end does_ensureJobConfiguration
  · rintro own r ⟨secret, -, asks⟩
    exact createsInVacancy_of_ordinary asks.ordinary
  intro own verdict cycle' ends go
  have unlisted : listings own = [] := by
    cases ends with
    | brought h ends => exact listings_of_secret ends
    | _ => rfl
  have same : cycle' = cycle := by cases ends <;> rfl
  subst same
  have same : Change settings cycle' own cycle' := .kept
  apply watchful_stage (by decide) (known.change same unlisted rfl)
  intro planned known
  apply watchful_stage (by decide) known
  intro checked known
  apply watchful_stage (by decide) known
  intro applied known
  apply watchful_calm calm_ensureResourceCount
  intro own counted
  apply watchful_calm calm_ensureConnectionSecret
  intro own connected
  apply keeps_cons_of_any_end does_ensureReady
  · intro own r asks
    exact asks.elim
  · intro own verdict cycle ends go
    trivial

theorem watchful_provisioning {name : String}
    (metadata_eq : cycle.resource.metadata = c.metadata) :
    Watchful settings c [] (observeSteps name (provisioningSteps settings) cycle) := by
  have known : Unlisted c [] cycle := ⟨metadata_eq, rfl⟩
  apply keeps_cons_of_any_end does_ensureFinalizer
  · rintro own r ⟨_, ns, rfl⟩
    exact createsInVacancy_of_ordinary trivial
  intro own verdict cycle' ends go
  have change : Change settings cycle own cycle' := ends.change
  have known := known.change change (by cases ends <;> rfl)
  apply keeps_cons_of_any_end does_ensureNoPreviousGeneration
  · intro own r asks
    exact asks.elim
  rintro own verdict current ⟨rfl, rfl, rfl⟩ -
  rw [List.append_nil]
  apply keeps_cons_of_any_end does_ensureProviderReady
  · rintro own r rfl
    exact createsInVacancy_of_ordinary trivial
  intro own verdict provided ends go
  have change : Change settings current own provided := ends.change
  have known := known.change change (by cases ends <;> rfl)
  apply keeps_cons_of_any_end does_ensurePolicies
  · rintro own r rfl
    exact createsInVacancy_of_ordinary trivial
  intro own verdict selected ends go
  have change : Change settings provided own selected := ends.change
  exact watchful_stages (known.change change (by cases ends <;> rfl))

theorem watchful_deletion {name : String}
    (metadata_eq : cycle.resource.metadata = c.metadata) :
    Watchful settings c [] (observeSteps name (deletionSteps settings) cycle) := by
  apply watchful_listing ⟨metadata_eq, rfl⟩
  intro own cycle known
  apply keeps_cons_of_any_end does_ensureDestroy
  · intro own' r asks
    cases asks with
    | state => exact createsInVacancy_of_ordinary trivial
    | @stage uid state own' r owner asks =>
      have same : Change settings cycle
        [told (.getSecret (SecretName.state uid) settings.namespaceName) (.ok (some state))]
        cycle := .kept
      have later := createsInVacancy_of_asks (known.change same rfl rfl) asks
      rw [List.append_assoc] at later
      exact later
  intro own verdict destroyed ends go
  apply watchful_calm calm_ensureConfigurationRemoved
  intro own removed
  apply keeps_cons_of_any_end does_ensureFinalizerRemoved
  · rintro own r ⟨-, _, ns, rfl⟩
    apply createsInVacancy_of_ne
    intro job
    exact nofun
  · intro own verdict cycle ends go
    trivial

variable {failures : Failures} {run : List (Answered (Supervised ConfigurationStore))}
  {rest : Supervision (Outcome Action × Failures)}

theorem safe_createsInVacancy :
    (observe settings c failures).Safe Supervised.notedCalls
      (Supervised.Allowed fun past _ r => r.suspends → CreatesInVacancy settings c past r)
      (fun _ _ => True) [] := by
  have steps : ∀ name now, Watchful settings c []
      (observeSteps name (stepsFor settings c.metadata.isDeleting) (openCycle c now)) := by
    intro name now
    unfold stepsFor
    split
    · exact watchful_deletion rfl
    · exact watchful_provisioning rfl
  apply safe_observe steps
  · intro past own outcome cycle r _ asks
    exact createsInVacancy_of_ne asks.ne_createJob
  · intro past own cycle _ _ _
    apply createsInVacancy_of_ne
    intro job
    exact nofun

/-- Whatever a cycle of a configuration is answered, and wherever it is broken off: a job is created
only after one listing of the units, and only for a stage for which no unit was listed at the
present generation but such as were made for another wish for a retry than the present one. -/
theorem creations_vacant (reached : (reconcile settings c failures).Reaches run rest)
    {pre post : Calls} {call : StoreCall ConfigurationStore} {job : Job}
    (parts : run.flatMap Supervised.calls = pre ++ call :: post)
    (made : call.request = .createJob job) :
    ∃ stage uid units, (job.isExecutor = true → job.stage? = some stage) ∧
      c.metadata.uid = some uid ∧ listings pre = [units] ∧
      ∀ unit ∈ units,
        unit.ServesIn settings.namespaceName uid stage (Resource.generation c) →
        ∃ wish, c.retryMarker = some wish ∧ unit.retry? ≠ some wish.seconds := by
  have possible : Visit.Possible settings ⟨c, failures, run⟩ := ⟨rest, reached⟩
  obtain ⟨before, e, after, ⟨left, observed⟩, -, rfl, asks⟩ := possible.exists_split parts
  have safe : (observe settings c failures).Safe _ _ _ [] := safe_createsInVacancy
  have allowed := (safe.asked observed rfl).of_asksFor asks rfl
  obtain ⟨stage, staged, uid, units, owner, listed, apart⟩ :=
    allowed job (congrArg Surroundings.Request.store made)
  exact ⟨stage, uid, units, staged, owner, listed, apart⟩

def wishing : Configuration :=
  let c := sample [holding Configuration.planned 3]
  { c with
    metadata := { c.metadata with
      annotations :=
        some (Dict.insert (Dict.insert ∅ Annotation.apply "true") Annotation.retry "1714557600") } }

def runningApply : Job := { metadata := (succeeded .apply 3).metadata }

def besideRunning : Steady := { provider := some readyProvider, units := [runningApply] }

theorem request_of_created {call : StoreCall ConfigurationStore} {job : Job}
    (h : created? call = some job) : call.request = .createJob job := by
  unfold created? at h
  split at h
  · cases h
    rfl
  · cases h

theorem exists_creation_besideRunning :
    ∃ pre call post job, (besideRunning.visit wishing).calls = pre ++ call :: post ∧
      call.request = .createJob job ∧ listings pre = [[runningApply]] ∧
      job.isExecutor = true ∧ job.stage? = some .apply := by
  have created : (((besideRunning.visit wishing).calls.drop 6).head?.bind created?).any
      (fun job => job.isExecutor && job.stage? = some .apply) = true := by decide +kernel
  have listed : listings ((besideRunning.visit wishing).calls.take 6) = [[runningApply]] := by
    decide +kernel
  obtain ⟨job, made, executes⟩ := (Option.any_eq_true _ _).1 created
  obtain ⟨call, post, parts, made⟩ := exists_parted made
  obtain ⟨executes, staged⟩ := Bool.and_eq_true_iff.1 executes
  exact ⟨_, call, post, job, parts, request_of_created made, listed, executes,
    of_decide_eq_true staged⟩

/-- A unit that runs does not keep another one of its stage from being created. -/
theorem created_beside_running : ¬ ∀ (settings : Settings) (c : Configuration)
    (failures : Failures) (run : List (Answered (Supervised ConfigurationStore)))
    (rest : Supervision (Outcome Action × Failures)) (pre post : Calls)
    (call : StoreCall ConfigurationStore) (job : Job) (stage : Stage) (uid : String)
    (units : List Job),
    (reconcile settings c failures).Reaches run rest →
    run.flatMap Supervised.calls = pre ++ call :: post → call.request = .createJob job →
    job.isExecutor = true → job.stage? = some stage → c.metadata.uid = some uid →
    listings pre = [units] → ∀ unit ∈ units,
      unit.ServesIn settings.namespaceName uid stage (Resource.generation c) →
      unit.state ≠ .active := by
  intro claim
  obtain ⟨rest, reached⟩ := besideRunning.possible_visit wishing
  obtain ⟨pre, call, post, job, parts, made, listed, executes, staged⟩ :=
    exists_creation_besideRunning
  have serves : runningApply.ServesIn "terrace-system" "u-1" .apply 3 :=
    ⟨rfl, by decide +kernel, by decide +kernel, by decide +kernel⟩
  have idle := claim {} wishing .none _ rest pre post call job .apply "u-1" [runningApply] reached
    parts made executes staged rfl listed runningApply (List.mem_singleton_self _) serves
  exact idle (by decide)

theorem creations_vacant_besideRunning :
    ∃ pre call post job, (besideRunning.visit wishing).calls = pre ++ call :: post ∧
      call.request = .createJob job ∧ listings pre = [[runningApply]] ∧
      ∃ stage uid units, (job.isExecutor = true → job.stage? = some stage) ∧
        wishing.metadata.uid = some uid ∧ listings pre = [units] ∧
        ∀ unit ∈ units, unit.ServesIn "terrace-system" uid stage (Resource.generation wishing) →
          ∃ wish, wishing.retryMarker = some wish ∧ unit.retry? ≠ some wish.seconds := by
  obtain ⟨rest, reached⟩ := besideRunning.possible_visit wishing
  obtain ⟨pre, call, post, job, parts, made, listed, -, -⟩ := exists_creation_besideRunning
  exact ⟨pre, call, post, job, parts, made, listed, creations_vacant reached parts made⟩

end InfraOperator.Provisioning
