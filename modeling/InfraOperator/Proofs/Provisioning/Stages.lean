import InfraOperator.Proofs.Marks
import InfraOperator.Proofs.Observed
import InfraOperator.Provisioning.Steps

/-!
# What a stage does

Everything a stage can do in one step: what it asks of its surroundings (`StageRun.Asks`) and how it
ends (`StageRun.Ends`). All is asked in the state the step began in, units are created only where no
unit of the stage is known, and a step that lets the cycle proceed has called nothing.
-/

set_option autoImplicit false

namespace InfraOperator.Provisioning

abbrev Calls := List (StoreCall ConfigurationStore)

def told (call : ConfigurationCall) (answer : Outcome call.Answer) :
    StoreCall ConfigurationStore :=
  ⟨call, some answer⟩

def created? : StoreCall ConfigurationStore → Option Job
  | ⟨.createJob job, _⟩ => some job
  | _ => none

theorem uid_of_ownerUid {r : Configuration} {uid : String} (h : r.ownerUid = .ok uid) :
    r.metadata.uid = some uid := by
  unfold Configuration.ownerUid at h
  split at h
  · cases h
    assumption
  · cases h

section Calls

variable {c : ConfigurationCycle}
  {asks : Calls → ConfigurationCycle → Surroundings.Request ConfigurationStore → Prop}
  {own : Calls}

@[simp] theorem does_createJob {job : Job}
    {ends : Calls → Outcome Unit → ConfigurationCycle → Prop} :
    (createJob job).Does c asks ends own ↔ asks own c (.store (.createJob job)) ∧
      ∀ answer : Outcome Unit, ends (own ++ [told (.createJob job) answer]) answer c :=
  Staged.does_call

@[simp] theorem does_getProvider {name : String}
    {ends : Calls → Outcome (Option Provider) → ConfigurationCycle → Prop} :
    (getProvider name).Does c asks ends own ↔ asks own c (.store (.getProvider name)) ∧
      ∀ answer : Outcome (Option Provider),
        ends (own ++ [told (.getProvider name) answer]) answer c :=
  Staged.does_call

end Calls

/-- The provider a unit is rendered for: found by an earlier step, or else asked for by `own`. -/
inductive ProviderFound (c : ConfigurationCycle) : Calls → Provider → Prop
  | known {p : Provider} (h : c.scratch.provider = some p) : ProviderFound c [] p
  | asked {p : Provider} (h : c.scratch.provider = none) :
      ProviderFound c [told (.getProvider c.resource.spec.providerName) (.ok (some p))] p

inductive WatcherCalls (r : UnitRequest) (unit : Job) : Calls → Prop
  | off (h : r.settings.watchers = false) : WatcherCalls r unit []
  | unrendered {e : Failure} (on : r.settings.watchers = true)
      (h : r.renderWatcher unit = .error e) : WatcherCalls r unit []
  | created {watcher : Job} {answer : Outcome Unit} (on : r.settings.watchers = true)
      (h : r.renderWatcher unit = .ok watcher) :
      WatcherCalls r unit [told (.createJob watcher) answer]

namespace StageRun

variable {s : StageRun} {settings : Settings} {c : ConfigurationCycle}

structure Due (s : StageRun) (c : ConfigurationCycle) : Prop where
  incomplete : c.isComplete s.condition = false
  policed : ¬ (s.stage = .verify ∧ c.scratch.policy.isNone)

/-- The stage has neither been passed nor a unit to follow, and nothing holds it back. -/
structure Opens (s : StageRun) (settings : Settings) (c : ConfigurationCycle) : Prop
    extends s.Due c where
  unseen : ∃ uid, c.resource.ownerUid = .ok uid ∧
    (c.resource.unitFilter settings.namespaceName uid s.stage).latest? c.scratch.units = none
  approved : ¬ (s.gated ∧ c.resource.applyApproved = false)

inductive Asks (s : StageRun) (settings : Settings) (c : ConfigurationCycle) :
    Calls → Surroundings.Request ConfigurationStore → Prop
  | provider (opens : s.Opens settings c) (unknown : c.scratch.provider = none) :
      Asks s settings c [] (.store (.getProvider c.resource.spec.providerName))
  | watcher {own : Calls} {p : Provider} {unit watcher : Job} (opens : s.Opens settings c)
      (found : ProviderFound c own p) (on : settings.watchers = true)
      (rendered : (s.request settings c p).renderUnit = .ok unit)
      (watched : (s.request settings c p).renderWatcher unit = .ok watcher) :
      Asks s settings c own (.store (.createJob watcher))
  | unit {own watched : Calls} {p : Provider} {unit : Job} (opens : s.Opens settings c)
      (found : ProviderFound c own p)
      (rendered : (s.request settings c p).renderUnit = .ok unit)
      (watchers : WatcherCalls (s.request settings c p) unit watched) :
      Asks s settings c (own ++ watched) (.store (.createJob unit))
  | tell {own later : Calls} {notice : Notice} {p : Provider} {unit : Job}
      (h : notice.reason = "WatcherFailed" ∨ notice.reason = "UnitCreated")
      (opens : s.Opens settings c) (found : ProviderFound c own p)
      (rendered : (s.request settings c p).renderUnit = .ok unit) :
      Asks s settings c (own ++ later) (.publish notice)

inductive Ends (s : StageRun) (settings : Settings) (c : ConfigurationCycle) :
    Calls → Verdict → ConfigurationCycle → Prop
  | passed (h : c.isComplete s.condition = true) : Ends s settings c [] .proceed c
  | disabled {now : Instant} (incomplete : c.isComplete s.condition = false)
      (verify : s.stage = .verify) (free : c.scratch.policy = none) :
      Ends s settings c [] .proceed (c.markAt s.condition .disabled "no policy applies" now).2
  | ownerless {e : Failure} (due : s.Due c)
      (h : c.resource.ownerUid = .error e) : Ends s settings c [] (.stop e) c
  | succeeded {uid : String} {unit : Job} {now : Instant}
      (due : s.Due c) (owner : c.resource.ownerUid = .ok uid)
      (latest : (c.resource.unitFilter settings.namespaceName uid s.stage).latest?
        c.scratch.units = some unit)
      (state : unit.state = .complete) :
      Ends s settings c [] .proceed (c.markAt s.condition .success
        (s.stage.text ++ " unit " ++ unit.metadata.displayName ++ " succeeded") now).2
  | failed {uid : String} {unit : Job} {now : Instant}
      (due : s.Due c) (owner : c.resource.ownerUid = .ok uid)
      (latest : (c.resource.unitFilter settings.namespaceName uid s.stage).latest?
        c.scratch.units = some unit)
      (state : unit.state = .failed) :
      Ends s settings c [] .pause (c.markAt s.condition .failed
        (failureMessage (s.stage.text ++ " unit " ++ unit.metadata.displayName ++ " failed")
          unit.failureMessage) now).2
  | active {uid : String} {unit : Job} {now : Instant}
      (due : s.Due c) (owner : c.resource.ownerUid = .ok uid)
      (latest : (c.resource.unitFilter settings.namespaceName uid s.stage).latest?
        c.scratch.units = some unit)
      (state : unit.state = .active) :
      Ends s settings c [] (.requeue activeDelay) (c.markAt s.condition .inProgress
        (s.stage.text ++ " unit " ++ unit.metadata.displayName ++ " is running") now).2
  | unapproved {uid : String} {now : Instant} (due : s.Due c)
      (owner : c.resource.ownerUid = .ok uid)
      (latest : (c.resource.unitFilter settings.namespaceName uid s.stage).latest?
        c.scratch.units = none)
      (gated : s.gated = true) (h : c.resource.applyApproved = false) :
      Ends s settings c [] .pause (c.markAt s.condition .actionRequired
        ("waiting for approval: set annotation " ++ Annotation.apply ++ "=true") now).2
  | providerFailed {e : Failure} (opens : s.Opens settings c) :
      Ends s settings c [told (.getProvider c.resource.spec.providerName) (.error e)] (.stop e) c
  | providerMissing {now : Instant} (opens : s.Opens settings c)
      (unknown : c.scratch.provider = none) :
      Ends s settings c [told (.getProvider c.resource.spec.providerName) (.ok none)]
        (.requeue dependencyDelay) (c.markAt s.condition .actionRequired
          ("provider " ++ c.resource.spec.providerName ++ " not found") now).2
  | unrendered {own : Calls} {p : Provider} {e : Failure} {now : Instant}
      (opens : s.Opens settings c) (found : ProviderFound c own p)
      (h : (s.request settings c p).renderUnit = .error e) :
      Ends s settings c own .pause (c.markAt s.condition .failed
        (failureMessage ("cannot render " ++ s.stage.text ++ " unit") e.message) now).2
  | refused {own watched : Calls} {p : Provider} {unit : Job} {e : Failure}
      (opens : s.Opens settings c) (found : ProviderFound c own p)
      (rendered : (s.request settings c p).renderUnit = .ok unit)
      (watchers : WatcherCalls (s.request settings c p) unit watched) :
      Ends s settings c (own ++ watched ++ [told (.createJob unit) (.error e)]) (.stop e) c
  | created {own watched : Calls} {p : Provider} {unit : Job} {now : Instant}
      (opens : s.Opens settings c) (found : ProviderFound c own p)
      (rendered : (s.request settings c p).renderUnit = .ok unit)
      (watchers : WatcherCalls (s.request settings c p) unit watched) :
      Ends s settings c (own ++ watched ++ [told (.createJob unit) (.ok ())])
        (.requeue createdDelay) (c.markAt s.condition .inProgress
          (s.stage.text ++ " unit " ++ unit.metadata.displayName ++ " created") now).2

/-- A stage lets the cycle go on once it is complete, or if there is nothing to verify, and leaves
the other conditions alone. -/
structure Passes (s : StageRun) (c c' : ConfigurationCycle) : Prop where
  done : c'.isComplete s.condition = true ∨ s.stage = .verify ∧ c.scratch.policy = none
  scratch_eq : c'.scratch = c.scratch
  others : ∀ type, type ≠ s.condition → c'.isComplete type = c.isComplete type

theorem Ends.passes {own : Calls} {verdict : Verdict} {c' : ConfigurationCycle}
    (h : s.Ends settings c own verdict c') (go : verdict.ending? = none) :
    own = [] ∧ s.Passes c c' := by
  cases h with
  | passed h => exact ⟨rfl, .inl h, rfl, fun _ _ => rfl⟩
  | disabled incomplete verify free =>
    exact ⟨rfl, .inr ⟨verify, free⟩, Cycle.scratch_markAt,
      fun _ other => Cycle.isComplete_markAt_of_ne other⟩
  | succeeded due owner latest state =>
    exact ⟨rfl, .inl Cycle.isComplete_markAt, Cycle.scratch_markAt,
      fun _ other => Cycle.isComplete_markAt_of_ne other⟩
  | _ => cases go

theorem does_follow {uid : String} {unit : Job} (due : s.Due c)
    (owner : c.resource.ownerUid = .ok uid)
    (latest : (c.resource.unitFilter settings.namespaceName uid s.stage).latest? c.scratch.units =
      some unit) :
    (s.follow unit).Does c (Staged.From c (s.Asks settings c)) (s.Ends settings c) [] := by
  cases state : unit.state with
  | complete =>
    simp only [follow, state, Staged.does_bind, Staged.does_mark, Staged.does_pure]
    exact fun now => .succeeded due owner latest state
  | failed =>
    simp only [follow, state, Staged.does_bind, Staged.does_mark, Staged.does_pure]
    exact fun now => .failed due owner latest state
  | active =>
    simp only [follow, state, Staged.does_bind, Staged.does_mark, Staged.does_pure]
    exact fun now => .active due owner latest state

theorem does_launch {own watched : Calls} {p : Provider} {unit : Job}
    (opens : s.Opens settings c) (found : ProviderFound c own p)
    (rendered : (s.request settings c p).renderUnit = .ok unit)
    (watchers : WatcherCalls (s.request settings c p) unit watched) :
    (s.launch unit).Does c (Staged.From c (s.Asks settings c)) (s.Ends settings c)
      (own ++ watched) := by
  simp only [launch, Staged.does_bind, does_createJob]
  refine ⟨⟨rfl, .unit opens found rendered watchers⟩, fun answer => ?_⟩
  cases answer with
  | error e => exact .refused opens found rendered watchers
  | ok value =>
    simp only [Staged.does_bind, Staged.does_get, Staged.does_log, Staged.does_measure,
      Staged.does_publish, Staged.does_mark, Staged.does_pure]
    refine ⟨⟨rfl, ?_⟩, fun now => .created opens found rendered watchers⟩
    rw [List.append_assoc]
    exact .tell (.inr rfl) opens found rendered

theorem does_startWatcher {own : Calls} {p : Provider} {unit : Job}
    (opens : s.Opens settings c) (found : ProviderFound c own p)
    (rendered : (s.request settings c p).renderUnit = .ok unit) (on : settings.watchers = true) :
    (s.startWatcher ((s.request settings c p).renderWatcher unit)).Does c
      (Staged.From c (s.Asks settings c))
      (fun all _ c' => c' = c ∧
        ∃ watched, all = own ++ watched ∧ WatcherCalls (s.request settings c p) unit watched)
      own := by
  have ends : ∀ watched, WatcherCalls (s.request settings c p) unit watched →
      ∀ e, (do
        Staged.log .warn "failed to start log watcher" [("stage", s.stage.text)]
        let c ← get
        Staged.publish
          { object := Resource.reference c.resource
            warning := true
            reason := "WatcherFailed"
            action := s.condition
            note := some ("cannot start log watcher for " ++ s.stage.text ++ " unit: " ++
              Failure.message e) } : Run Unit).Does c (Staged.From c (s.Asks settings c))
        (fun all _ c' => c' = c ∧
          ∃ watched, all = own ++ watched ∧ WatcherCalls (s.request settings c p) unit watched)
        (own ++ watched) := by
    intro watched calls e
    simp only [Staged.does_bind, Staged.does_log, Staged.does_get, Staged.does_publish]
    exact ⟨⟨rfl, .tell (.inl rfl) opens found rendered⟩, trivial, watched, rfl, calls⟩
  cases watched : (s.request settings c p).renderWatcher unit with
  | error e =>
    simp only [startWatcher, Staged.does_bind, Staged.does_pure]
    simpa using ends [] (.unrendered on watched) e
  | ok watcher =>
    simp only [startWatcher, Staged.does_bind, does_createJob]
    refine ⟨⟨rfl, .watcher opens found on rendered watched⟩, fun answer => ?_⟩
    have calls : WatcherCalls (s.request settings c p) unit [told (.createJob watcher) answer] :=
      .created on watched
    cases answer with
    | error e => exact ends _ calls e
    | ok value => exact ⟨rfl, _, rfl, calls⟩

theorem does_createFor {own : Calls} {p : Provider} (opens : s.Opens settings c)
    (found : ProviderFound c own p) :
    (s.createFor settings p).Does c (Staged.From c (s.Asks settings c)) (s.Ends settings c)
      own := by
  simp only [createFor, Staged.does_bind, Staged.does_get]
  cases rendered : (s.request settings c p).renderUnit with
  | error e =>
    simp only [Staged.does_bind, Staged.does_mark, Staged.does_pure]
    exact fun now => .unrendered opens found rendered
  | ok unit =>
    simp only
    by_cases on : settings.watchers = true
    · rw [if_pos on, Staged.does_bind]
      refine (does_startWatcher opens found rendered on).mono (fun _ _ _ h => h) ?_
      rintro all value c' ⟨rfl, watched, rfl, watchers⟩
      exact does_launch opens found rendered watchers
    · rw [if_neg on]
      have off : settings.watchers = false := by simpa using on
      simpa using does_launch opens found rendered (.off off)

theorem does_createUnit (opens : s.Opens settings c) :
    (s.createUnit settings).Does c (Staged.From c (s.Asks settings c)) (s.Ends settings c)
      [] := by
  simp only [createUnit, Staged.does_bind, Staged.does_get]
  cases known : c.scratch.provider with
  | some p => exact does_createFor opens (.known known)
  | none =>
    simp only [Staged.does_bind, does_getProvider]
    refine ⟨⟨rfl, .provider opens known⟩, fun answer => ?_⟩
    rcases answer with e | _ | p
    · exact .providerFailed opens
    · simp only [Staged.does_bind, Staged.does_mark, Staged.does_pure]
      exact fun now => .providerMissing opens known
    · exact does_createFor opens (.asked known)

theorem does_run : (s.run settings).Does c (Staged.From c (s.Asks settings c))
    (s.Ends settings c) [] := by
  simp only [run, Staged.does_bind, Staged.does_get]
  by_cases complete : c.isComplete s.condition = true
  · rw [if_pos complete]
    exact .passed complete
  have incomplete : c.isComplete s.condition = false := by simpa using complete
  rw [if_neg complete]
  by_cases free : s.stage = .verify ∧ c.scratch.policy.isNone
  · rw [if_pos free]
    simp only [Staged.does_bind, Staged.does_mark, Staged.does_pure]
    exact fun now => .disabled incomplete free.1 (by simpa using free.2)
  rw [if_neg free]
  have due : s.Due c := ⟨incomplete, free⟩
  cases owner : c.resource.ownerUid with
  | error e => exact .ownerless due owner
  | ok uid =>
    simp only
    cases latest : (c.resource.unitFilter settings.namespaceName uid s.stage).latest?
        c.scratch.units with
    | some unit => exact does_follow due owner latest
    | none =>
      simp only
      by_cases held : s.gated ∧ c.resource.applyApproved = false
      · rw [if_pos held]
        simp only [waitForApproval, Staged.does_bind, Staged.does_mark, Staged.does_pure]
        exact fun now => .unapproved due owner latest held.1 held.2
      · rw [if_neg held]
        exact does_createUnit ⟨due, ⟨uid, owner, latest⟩, held⟩

end StageRun

end InfraOperator.Provisioning
