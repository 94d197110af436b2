import InfraOperator.Proofs.Building
import InfraOperator.Proofs.Provisioning.Changes
import InfraOperator.Proofs.Settling
import InfraOperator.Provisioning.Controller

/-!
# Journals of configurations

A journal is a run of a cycle of a configuration with the state of the cycle noted on every
request, whatever is answered and wherever the run is broken off. Every run has one
(`exists_journal`). What the steps may ask and how they may end settles what all of the cycle may
ask (`safe_observe`).
-/

set_option autoImplicit false

namespace InfraOperator.Provisioning

abbrev Entry := Answered ((Supervised ConfigurationStore).noting ConfigurationCycle)

def unopened (c : Configuration) : ConfigurationCycle := Cycle.start c {}

def observe (settings : Settings) (c : Configuration) (failures : Failures) :
    Program ((Supervised ConfigurationStore).noting ConfigurationCycle)
      (Outcome Action × Failures) :=
  let deleting := c.metadata.isDeleting
  if deleting ∧ c.metadata.isDeletionCandidate cleanupFinalizer = false then do
    Program.note (unopened c)
      (Supervised.log .debug "deleted without finalizer, nothing to clean up" [])
    return (.ok .awaitChange, failures.reset (failureKey c))
  else do
    let now ← Program.note (unopened c) (Supervised.plain .clock)
    match pipelineFor settings deleting with
    | .error e => return (.error e, failures)
    | .ok pipeline => do
      Program.note (openCycle c now) (announceSteps pipeline deleting)
      let (outcome, cycle) ←
        Pipeline.observeSteps pipeline.name pipeline.steps (openCycle c now)
      Program.note cycle do
        let (result, cycle) ← pipeline.settle ConfigurationStore.statuses outcome cycle
        conclude settings c failures result cycle

theorem forget_observe (settings : Settings) (c : Configuration) (failures : Failures) :
    (observe settings c failures).forget = reconcile settings c failures := by
  unfold observe reconcile
  simp only
  split
  · rw [Program.forget_bind, Program.forget_note]
    rfl
  · rw [Program.forget_bind, Program.forget_note]
    refine congrArg _ (funext fun now => ?_)
    cases pipelineFor settings c.metadata.isDeleting with
    | error e => rfl
    | ok pipeline =>
      simp only
      rw [Program.forget_bind, Program.forget_note, Pipeline.execute]
      refine congrArg _ (funext fun _ => ?_)
      rw [Program.forget_bind, Pipeline.forget_observeSteps, bind_assoc]
      refine congrArg _ (funext fun v => ?_)
      exact Program.forget_note _ _

def IsJournal (settings : Settings) (c : Configuration) (failures : Failures)
    (journal : List Entry) : Prop :=
  ∃ rest, (observe settings c failures).Reaches journal rest

theorem exists_journal {settings : Settings} {c : Configuration} {failures : Failures}
    {run : List (Answered (Supervised ConfigurationStore))}
    {rest : Supervision (Outcome Action × Failures)}
    (h : (reconcile settings c failures).Reaches run rest) :
    ∃ journal, IsJournal settings c failures journal ∧ journal.map Answered.bare = run := by
  rw [← forget_observe] at h
  obtain ⟨journal, rest', reached, bare, -⟩ := Program.exists_noted_run h
  exact ⟨journal, ⟨rest', reached⟩, bare⟩

def written? : StoreCall ConfigurationStore → Option Configuration
  | ⟨.patchStatus c, _⟩ => some c
  | _ => none

/-- A cycle of a configuration as it was read, and how far it got. -/
structure Visit where
  configuration : Configuration
  failures : Failures
  run : List (Answered (Supervised ConfigurationStore))

namespace Visit

def calls (v : Visit) : Calls := v.run.flatMap Supervised.calls

/-- What a visit may have stored the status of, whatever it was told. -/
def written (v : Visit) : List Configuration := v.calls.filterMap written?

def Possible (settings : Settings) (v : Visit) : Prop :=
  ∃ rest, (reconcile settings v.configuration v.failures).Reaches v.run rest

theorem Possible.exists_split {settings : Settings} {v : Visit} (possible : v.Possible settings)
    {call : StoreCall ConfigurationStore} {earlier later : Calls}
    (parts : v.calls = earlier ++ call :: later) :
    ∃ pre e post, IsJournal settings v.configuration v.failures (pre ++ e :: post) ∧
      v.calls = (pre ++ e :: post).flatMap Supervised.notedCalls ∧
      pre.flatMap Supervised.notedCalls = earlier ∧ e.AsksFor (.store call.request) := by
  obtain ⟨rest, reached⟩ := possible
  obtain ⟨journal, observed, bare⟩ := exists_journal reached
  have calls_eq : v.calls = journal.flatMap Supervised.notedCalls := by
    rw [Visit.calls, ← bare, Program.flatMap_bare]
    rfl
  obtain ⟨pre, e, post, rfl, earlier_eq, asks⟩ := Supervised.exists_split (calls_eq ▸ parts)
  exact ⟨pre, e, post, observed, calls_eq, earlier_eq, asks⟩

theorem Possible.exists_entry {settings : Settings} {v : Visit} (possible : v.Possible settings)
    {call : StoreCall ConfigurationStore} (called : call ∈ v.calls) :
    ∃ pre e post, IsJournal settings v.configuration v.failures (pre ++ e :: post) ∧
      v.calls = (pre ++ e :: post).flatMap Supervised.notedCalls ∧
      e.AsksFor (.store call.request) := by
  obtain ⟨earlier, later, parts⟩ := List.append_of_mem called
  obtain ⟨pre, e, post, observed, calls_eq, -, asks⟩ := possible.exists_split parts
  exact ⟨pre, e, post, observed, calls_eq, asks⟩

end Visit

/-- A store that answers the same all along, and whose writes succeed. -/
structure Steady where
  provider : Option Provider := none
  policies : List Policy := []
  units : List Job := []
  secrets : List String := []

namespace Steady

def reply (s : Steady) : (call : ConfigurationCall) → Outcome call.Answer
  | .getConfiguration _ _ => (.ok none : Outcome (Option Configuration))
  | .getProvider _ => (.ok s.provider : Outcome (Option Provider))
  | .listPolicies => (.ok s.policies : Outcome (List Policy))
  | .listUnits _ _ => (.ok s.units : Outcome (List Job))
  | .getSecret name ns =>
    (.ok (if name ∈ s.secrets then
      some { metadata := { name := some name, namespaceName := some ns }, data := none }
      else none) : Outcome (Option Secret))
  | .deleteSecret _ _ => (.ok true : Outcome Bool)
  | .patchStatus _ | .addFinalizer _ _ _ | .removeFinalizer _ _ _ | .createJob _
  | .deleteUnits _ _ | .createSecret _ | .patchSecretData _ _ _ => (.ok () : Outcome Unit)

def surround (s : Steady) : (r : Surroundings.Request ConfigurationStore) → Surroundings.Answer r
  | .store call => s.reply call
  | .clock => (default : Instant)
  | .publish _ | .measure _ | .log _ | .wait _ => ()

def answer (s : Steady) : (r : Supervised.Request ConfigurationStore) → Supervised.Answer r
  | .cancelled => false
  | .plain r => s.surround r
  | .watched r => some (s.surround r)

def visit (s : Steady) (c : Configuration) : Visit :=
  ⟨c, .none, (reconcile {} c .none).follow s.answer⟩

theorem possible_visit (s : Steady) (c : Configuration) : (s.visit c).Possible {} := by
  have reached := Program.reaches_follow s.answer (reconcile {} c .none)
  exact ⟨_, reached⟩

end Steady

def holding (type : String) (generation : Int) : Condition :=
  ⟨type, .true, .ready, "", generation, default⟩

def sample (conditions : List Condition) : Configuration :=
  { metadata :=
      { name := some "net"
        namespaceName := some "infra"
        uid := some "u-1"
        generation := some 3
        finalizers := some [cleanupFinalizer]
        annotations := some (Dict.insert ∅ Annotation.apply "true") }
    spec := { module := "m", providerName := "aws" }
    status := some { conditions } }

def readyProvider : Provider :=
  { metadata := { name := some "aws" }
    spec := { provider := .aws }
    status := some [holding readyCondition 1] }

def succeeded (stage : Stage) (generation : Int) : Job :=
  { metadata :=
      { name := some (unitName stage "u-1" generation none)
        namespaceName := some "terrace-system"
        labels := some (unitLabels stage generation none (sample []).metadata) }
    status := some { succeeded := some 1 } }

def stepsFor (settings : Settings) (deleting : Bool) : List ConfigurationStep :=
  if deleting then deletionSteps settings else provisioningSteps settings

theorem steps_pipelineFor {settings : Settings} {deleting : Bool} {p : ConfigurationPipeline}
    (h : pipelineFor settings deleting = .ok p) : p.steps = stepsFor settings deleting := by
  unfold pipelineFor at h
  cases deleting with
  | true => exact (Pipeline.of_build h).2
  | false => exact (Pipeline.of_build h).2

/-! ## All steps -/

/-- What a step may ask: ordinary requests, those of a stage, and the release of the finalizer. -/
inductive StepAsks (settings : Settings) (c : ConfigurationCycle) :
    Surroundings.Request ConfigurationStore → Prop
  | ordinary {r : Surroundings.Request ConfigurationStore} (h : Ordinary r) :
      StepAsks settings c r
  | stage {s : StageRun} {own : Calls} {r : Surroundings.Request ConfigurationStore}
      (asks : s.Asks settings c own r) : StepAsks settings c r
  | release {name ns finalizer : String} :
      StepAsks settings c (.store (.removeFinalizer name ns finalizer))

inductive Leaves (settings : Settings) (c : ConfigurationCycle) (own : Calls)
    (c' : ConfigurationCycle) : Prop
  | changed (h : Change settings c own c')
  | ready {now : Instant}
      (h : c' = (c.markAt readyCondition .success "configuration is up to date" now).2)

section Steps

variable {settings : Settings} {c c' : ConfigurationCycle} {own : Calls}

theorem StageRun.Asks.ne_patchStatus {s : StageRun}
    {r : Surroundings.Request ConfigurationStore} (h : s.Asks settings c own r)
    (written : Configuration) : r ≠ .store (.patchStatus written) := by
  rintro rfl
  cases h

theorem StepAsks.ne_patchStatus {r : Surroundings.Request ConfigurationStore}
    (h : StepAsks settings c r) (written : Configuration) : r ≠ .store (.patchStatus written) := by
  cases h with
  | ordinary h => exact h.ne_patchStatus written
  | stage asks => exact asks.ne_patchStatus written
  | release => exact nofun

theorem Leaves.metadata_eq (h : Leaves settings c own c') :
    c'.resource.metadata = c.resource.metadata := by
  cases h with
  | changed h => exact h.metadata_eq
  | ready h =>
    rw [h]
    exact metadata_markAt

theorem does_calm {step : ConfigurationStep} (calm : Calm settings step) :
    step.run.Does c (Staged.From c fun _ r => StepAsks settings c r)
      (fun own _ c' => Leaves settings c own c') [] :=
  (calm c).mono (fun _ _ _ ⟨same, h⟩ => ⟨same, .ordinary h⟩) fun _ _ _ change => .changed change

theorem does_stage {s : StageRun} (hs : s ∈ StageRun.all) :
    (s.toStep settings).run.Does c (Staged.From c fun _ r => StepAsks settings c r)
      (fun own _ c' => Leaves settings c own c') [] :=
  (StageRun.does_run (s := s)).mono (fun _ _ _ ⟨same, asks⟩ => ⟨same, .stage asks⟩)
    fun _ _ _ ends => .changed (ends.change hs)

theorem does_provisioning {step : ConfigurationStep} (h : step ∈ provisioningSteps settings) :
    step.run.Does c (Staged.From c fun _ r => StepAsks settings c r)
      (fun own _ c' => Leaves settings c own c') [] := by
  simp only [provisioningSteps, List.mem_cons, List.not_mem_nil, or_false] at h
  rcases h with rfl | rfl | rfl | rfl | rfl | rfl | rfl | rfl | rfl | rfl | rfl | rfl
  · exact does_calm calm_ensureFinalizer
  · exact does_calm calm_ensureNoPreviousGeneration
  · exact does_calm calm_ensureProviderReady
  · exact does_calm calm_ensurePolicies
  · exact does_calm calm_ensureUnitListing
  · exact does_calm calm_ensureJobConfiguration
  · exact does_stage (by decide)
  · exact does_stage (by decide)
  · exact does_stage (by decide)
  · exact does_calm calm_ensureResourceCount
  · exact does_calm calm_ensureConnectionSecret
  · refine does_ensureReady.mono (fun _ _ _ h => h.2.elim) ?_
    rintro own verdict c' ⟨-, -, now, left⟩
    exact .ready left

theorem does_deletion {step : ConfigurationStep} (h : step ∈ deletionSteps settings) :
    step.run.Does c (Staged.From c fun _ r => StepAsks settings c r)
      (fun own _ c' => Leaves settings c own c') [] := by
  simp only [deletionSteps, List.mem_cons, List.not_mem_nil, or_false] at h
  rcases h with rfl | rfl | rfl | rfl
  · exact does_calm calm_ensureUnitListing
  · refine does_ensureDestroy.mono ?_ fun _ _ _ ends => .changed ends.change
    rintro own t r ⟨rfl, asks⟩
    cases asks with
    | state => exact ⟨rfl, .ordinary trivial⟩
    | stage owner asks => exact ⟨rfl, .stage asks⟩
  · exact does_calm calm_ensureConfigurationRemoved
  · refine does_ensureFinalizerRemoved.mono ?_ fun _ _ _ ends => .changed ends.change
    rintro own t r ⟨rfl, -, name, ns, rfl⟩
    exact ⟨rfl, .release⟩

/-- What any step of a cycle asks, and what it leaves of the cycle. -/
theorem does_stepsFor {deleting : Bool} {step : ConfigurationStep}
    (h : step ∈ stepsFor settings deleting) :
    step.run.Does c (Staged.From c fun _ r => StepAsks settings c r)
      (fun own _ c' => Leaves settings c own c') [] := by
  unfold stepsFor at h
  split at h
  · exact does_deletion h
  · exact does_provisioning h

end Steps

/-! ## Whole runs -/

theorem exists_pipeline (settings : Settings) (deleting : Bool) :
    ∃ pipeline, pipelineFor settings deleting = .ok pipeline := by
  cases deleting <;> exact ⟨_, rfl⟩

def settleAndConclude (settings : Settings) (c : Configuration) (failures : Failures)
    (p : ConfigurationPipeline) (outcome : Outcome Directive) (cycle : ConfigurationCycle) :
    Supervision (Outcome Action × Failures) := do
  let (result, cycle) ← p.settle ConfigurationStore.statuses outcome cycle
  conclude settings c failures result cycle

/-- A whole run of a cycle: it is opened, its steps end with the outcome and leave the cycle so,
and then it is settled. -/
inductive Course (settings : Settings) (c : Configuration) (failures : Failures)
    (run : List (Answered (Supervised ConfigurationStore))) (outcome : Outcome Directive)
    (cycle : ConfigurationCycle) (value : Outcome Action × Failures) : Prop
  | parts {now : Instant} {pipeline : ConfigurationPipeline}
      {opening steps settled : List (Answered (Supervised ConfigurationStore))}
      (run_eq : run = opening ++ (steps ++ settled))
      (uncalled : opening.flatMap Supervised.calls = [])
      (built : pipelineFor settings c.metadata.isDeleting = .ok pipeline)
      (ran : (pipeline.run (openCycle c now)).Reaches steps (.done (outcome, cycle)))
      (ended : (settleAndConclude settings c failures pipeline outcome cycle).Reaches settled
        (.done value)) : Course settings c failures run outcome cycle value

theorem exists_course {settings : Settings} {c : Configuration} {failures : Failures}
    {run : List (Answered (Supervised ConfigurationStore))} {value : Outcome Action × Failures}
    (held : c.metadata.isDeleting = true →
      c.metadata.isDeletionCandidate cleanupFinalizer = true)
    (reached : (reconcile settings c failures).Reaches run (.done value)) :
    ∃ outcome cycle, Course settings c failures run outcome cycle value := by
  obtain ⟨pipeline, built⟩ := exists_pipeline settings c.metadata.isDeleting
  have opened : ¬ (c.metadata.isDeleting = true ∧
      c.metadata.isDeletionCandidate cleanupFinalizer = false) :=
    fun h => absurd (h.2.symm.trans (held h.1)) Bool.false_ne_true
  rw [reconcile, if_neg opened, built] at reached
  cases reached with
  | @told _ _ now _ _ reached =>
    cases reached with
    | @told _ _ _ _ _ reached =>
      change (pipeline.execute ConfigurationStore.statuses (openCycle c now) >>= fun v =>
        conclude settings c failures v.1 v.2).Reaches _ _ at reached
      rw [Pipeline.execute, bind_assoc] at reached
      obtain ⟨steps, settled, v, rfl, ran, ended⟩ := Program.reaches_bind reached
      have opening : ∀ e e' : Answered (Supervised ConfigurationStore),
          e :: e' :: (steps ++ settled) = [e, e'] ++ (steps ++ settled) := fun _ _ => rfl
      exact ⟨v.1, v.2, .parts (opening _ _) rfl built ran ended⟩

inductive SettleAsks (c : ConfigurationCycle) : Surroundings.Request ConfigurationStore → Prop
  | write {version : Option String} :
      SettleAsks c (.store (.patchStatus (Resource.withResourceVersion c.resource version)))
  | reload {name ns : String} : SettleAsks c (.store (.getConfiguration name ns))
  | wait {span : Span} : SettleAsks c (.wait span)
  | tell {e : ConditionEvent} (h : e ∈ c.events) :
      SettleAsks c (.publish (Pipeline.noticeOf (Resource.reference c.resource) e))
  | prompt {r : Surroundings.Request ConfigurationStore} (h : r.suspends = false) : SettleAsks c r

theorem SettleAsks.ne_createJob {c : ConfigurationCycle}
    {r : Surroundings.Request ConfigurationStore} (h : SettleAsks c r) (job : Job) :
    r ≠ .store (.createJob job) := by
  rintro rfl
  cases h with
  | prompt quick => cases quick

theorem only_settle {p : ConfigurationPipeline} {outcome : Outcome Directive}
    {c : ConfigurationCycle} :
    (p.settle ConfigurationStore.statuses outcome c).Only (Supervised.Plain (SettleAsks c))
      fun v => (v.1 = outcome ∨ ∃ e, v.1 = .error e) ∧ v.2.resource = c.resource ∧
        v.2.scratch = c.scratch := by
  refine Pipeline.only_settle (fun _ => .prompt) (fun _ => .wait)
    (fun _ => ⟨.write, fun _ => trivial⟩) (fun version => ?_) fun e h => .tell h
  simp only [ConfigurationStore.statuses]
  cases (Resource.withResourceVersion c.resource version).identity with
  | error e => trivial
  | ok identified => exact ⟨SettleAsks.reload, fun _ => trivial⟩

inductive ConcludeAsks (c : Configuration) (result : Outcome Directive)
    (cycle : ConfigurationCycle) : Surroundings.Request ConfigurationStore → Prop
  | announce (deleting : c.metadata.isDeleting = true) (done : result = .ok .done)
      (cleaned : cycle.scratch.cleanedUp = true) :
      ConcludeAsks c result cycle (.publish (cleanupNotice c))
  | prompt {r : Surroundings.Request ConfigurationStore} (h : r.suspends = false) :
      ConcludeAsks c result cycle r

def resyncOf (settings : Settings) (c : Configuration) : Option Span :=
  if c.metadata.isDeleting then none
  else if c.spec.driftDetection then some settings.resync
  else none

theorem only_conclude {settings : Settings} {c : Configuration} {failures : Failures}
    {result : Outcome Directive} {cycle : ConfigurationCycle} :
    (conclude settings c failures result cycle).Only
      (Supervised.Plain (ConcludeAsks c result cycle)) fun v =>
        v.1 = result.map (·.toAction (resyncOf settings c)) := by
  unfold conclude resyncOf
  rcases result with e | directive
  · rfl
  · by_cases deleting : c.metadata.isDeleting = true
    · by_cases cleaned : directive = .done ∧ cycle.scratch.cleanedUp = true
      · simp only [deleting, cleaned, if_true]
        exact ⟨.prompt rfl, fun _ => ⟨.announce deleting rfl cleaned.2, fun _ => rfl⟩⟩
      · simp only [deleting, cleaned, if_true, if_false]
        rfl
    · simp only [deleting]
      rfl

theorem safe_settled {settings : Settings} {c : Configuration} {failures : Failures}
    {asks : Calls → ConfigurationCycle → Surroundings.Request ConfigurationStore → Prop}
    {p : ConfigurationPipeline} {past : Calls} {outcome : Outcome Directive}
    {cycle : ConfigurationCycle}
    (settled : ∀ own r, (∀ call ∈ own, SettleAsks cycle (.store call.request)) →
      SettleAsks cycle r → asks (past ++ own) cycle r)
    (announced : ∀ own, outcome = .ok .done → c.metadata.isDeleting = true →
      cycle.scratch.cleanedUp = true →
      asks (past ++ own) cycle (.publish (cleanupNotice c))) :
    (Program.note cycle do
      let (result, cycle) ← p.settle ConfigurationStore.statuses outcome cycle
      conclude settings c failures result cycle).Safe Supervised.notedCalls
      (Supervised.Allowed fun past cycle r => r.suspends → asks past cycle r) (fun _ _ => True)
      past := by
  refine (Program.safe_note cycle).2 ((Program.safe_bind _ _ _).2 ?_)
  refine (only_settle.safe past).mono ?_ ?_
  · rintro _ r ⟨⟨own, rfl, shown⟩, h⟩
    have called : ∀ call ∈ own, SettleAsks cycle (.store call.request) := by
      intro call hc
      obtain ⟨e, asks, hc⟩ := shown call hc
      exact asks.within.of_mem_calls hc
    cases r with
    | cancelled => trivial
    | plain r => exact fun _ => settled own r called h
    | watched r => exact h.elim
  rintro _ ⟨result, cycle'⟩ ⟨⟨own, rfl, -⟩, result_eq, -, scratch_eq⟩
  refine (only_conclude.safe _).mono ?_ fun _ _ _ => trivial
  rintro _ r ⟨⟨own', rfl, -⟩, h⟩
  cases r with
  | cancelled => trivial
  | plain r =>
    intro slow
    cases h with
    | prompt quick => exact absurd (quick.symm.trans slow) Bool.false_ne_true
    | announce deleting done cleaned =>
      rcases result_eq with rfl | ⟨e, rfl⟩
      · rw [List.append_assoc]
        exact announced _ done deleting (scratch_eq ▸ cleaned)
      · cases done
  | watched r => exact h.elim

theorem safe_observe_settling {settings : Settings} {c : Configuration} {failures : Failures}
    {asks : Calls → ConfigurationCycle → Surroundings.Request ConfigurationStore → Prop}
    {ends : Calls → Outcome Directive → ConfigurationCycle → Prop}
    (steps : ∀ name now, Pipeline.Keeps asks ends
      (Pipeline.observeSteps name (stepsFor settings c.metadata.isDeleting) (openCycle c now)) [])
    (settled : ∀ past own outcome cycle r, ends past outcome cycle →
      (∀ call ∈ own, SettleAsks cycle (.store call.request)) → SettleAsks cycle r →
      asks (past ++ own) cycle r)
    (announced : ∀ past own cycle, ends past (.ok .done) cycle → c.metadata.isDeleting = true →
      cycle.scratch.cleanedUp = true →
      asks (past ++ own) cycle (.publish (cleanupNotice c))) :
    (observe settings c failures).Safe Supervised.notedCalls
      (Supervised.Allowed fun past cycle r => r.suspends → asks past cycle r) (fun _ _ => True)
      [] := by
  unfold observe
  simp only
  split
  · exact (Pipeline.safe_prompt rfl).2 fun _ => trivial
  · refine (Pipeline.safe_prompt rfl).2 fun now => ?_
    cases built : pipelineFor settings c.metadata.isDeleting with
    | error e => trivial
    | ok pipeline =>
      refine (Pipeline.safe_prompt rfl).2 fun _ => ?_
      rw [steps_pipelineFor built, Program.safe_bind]
      refine (steps pipeline.name now).mono (fun _ _ h => h) ?_
      rintro past ⟨outcome, cycle⟩ ended
      refine safe_settled (fun own r => settled past own outcome cycle r ended) ?_
      rintro own rfl deleting cleaned
      exact announced past own cycle ended deleting cleaned

theorem safe_observe {settings : Settings} {c : Configuration} {failures : Failures}
    {asks : Calls → ConfigurationCycle → Surroundings.Request ConfigurationStore → Prop}
    {ends : Calls → Outcome Directive → ConfigurationCycle → Prop}
    (steps : ∀ name now, Pipeline.Keeps asks ends
      (Pipeline.observeSteps name (stepsFor settings c.metadata.isDeleting) (openCycle c now)) [])
    (settled : ∀ past own outcome cycle r, ends past outcome cycle → SettleAsks cycle r →
      asks (past ++ own) cycle r)
    (announced : ∀ past own cycle, ends past (.ok .done) cycle → c.metadata.isDeleting = true →
      cycle.scratch.cleanedUp = true →
      asks (past ++ own) cycle (.publish (cleanupNotice c))) :
    (observe settings c failures).Safe Supervised.notedCalls
      (Supervised.Allowed fun past cycle r => r.suspends → asks past cycle r) (fun _ _ => True)
      [] :=
  safe_observe_settling steps
    (fun past own outcome cycle r ended _ asks => settled past own outcome cycle r ended asks)
    announced

end InfraOperator.Provisioning
