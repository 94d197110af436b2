import InfraOperator.Proofs.Provisioning.Creation
import InfraOperator.Proofs.Provisioning.Release

/-!
# What a configuration waits for

After a cycle that asks for nothing but to wait for a change, nothing wakes the configuration again.
Such a cycle has either brought it where it is to be, or has written down in a condition what holds
it up: a failure, or an approval that is missing.
-/

set_option autoImplicit false

namespace InfraOperator

namespace Conditions

def Observes (conditions : List Condition) (type : String) (generation : Int)
    (reason : ConditionReason) : Prop :=
  ∃ x, findCondition conditions type = some x ∧ x.observedGeneration = generation ∧
    x.reason = reason

def passedOver (conditions : List Condition) (type : String) : Bool :=
  type = Configuration.checked &&
    (findCondition conditions type).any (·.reason = .disabled)

def firstPending (conditions : List Condition) (generation : Int) : Option String :=
  [Configuration.planned, Configuration.checked, Configuration.applied].find? fun type =>
    !complete conditions type generation && !passedOver conditions type

end Conditions

namespace Provisioning

open Conditions (complete Observes passedOver firstPending)
open Pipeline (Keeps WhenDone observeSteps keeps_cons_whenDone)

/-- What the conditions of a configuration say of why it waits: it is ready, or the first stage that
is not complete has failed, or an apply is not approved. -/
def Explained (c : Configuration) (conditions : List Condition) : Prop :=
  complete conditions readyCondition (Resource.generation c) = true ∨
    ∃ type, firstPending conditions (Resource.generation c) = some type ∧
      (Observes conditions type (Resource.generation c) .error ∨
        type = Configuration.applied ∧
          Observes conditions type (Resource.generation c) .actionRequired ∧
          c.applyApproved = false)

variable {settings : Settings} {c : Configuration} {past own : Calls}
  {cycle cycle' : ConfigurationCycle}

theorem observes_markAt {type message : String} {mark : Mark} {now : Instant} :
    Observes (cycle.markAt type mark message now).2.conditions type cycle.generation
      mark.reason := by
  obtain ⟨x, found, said⟩ : ∃ x, findCondition (cycle.markAt type mark message now).2.conditions
    type = some x ∧ Conditions.Says x type mark message cycle.generation := Cycle.find_markAt
  exact ⟨x, found, said.generation_eq, said.reason_eq⟩

def pending (cycle : ConfigurationCycle) (type : String) : Bool :=
  !cycle.isComplete type && !passedOver cycle.conditions type

theorem firstPending_eq : firstPending cycle.conditions cycle.generation =
    [Configuration.planned, Configuration.checked, Configuration.applied].find?
      (pending cycle) := rfl

theorem passedOver_of_observes {conditions : List Condition} {type : String} {generation : Int}
    (typed : type = Configuration.checked)
    (h : Observes conditions type generation .disabled) : passedOver conditions type = true := by
  obtain ⟨x, found, -, reason⟩ := h
  simp [passedOver, typed ▸ found, typed, reason]

theorem pending_of_observes {type : String} {generation : Int} {reason : ConditionReason}
    (incomplete : cycle.isComplete type = false)
    (h : Observes cycle.conditions type generation reason) (other : reason ≠ .disabled) :
    pending cycle type = true := by
  obtain ⟨x, found, -, rfl⟩ := h
  simp [pending, incomplete, passedOver, found, other]

/-! ## The stages -/

structure StageRun.Pauses (s : StageRun) (cycle cycle' : ConfigurationCycle) : Prop where
  incomplete : cycle'.isComplete s.condition = false
  observed : Observes cycle'.conditions s.condition cycle.generation .error ∨
    s.gated = true ∧ cycle.resource.applyApproved = false ∧
      Observes cycle'.conditions s.condition cycle.generation .actionRequired
  others : ∀ type, type ≠ s.condition →
    findCondition cycle'.conditions type = findCondition cycle.conditions type
  metadata_eq : cycle'.resource.metadata = cycle.resource.metadata

theorem StageRun.Ends.pauses {s : StageRun} (h : s.Ends settings cycle own .pause cycle') :
    s.Pauses cycle cycle' := by
  cases h with
  | failed =>
    exact ⟨Cycle.isComplete_markAt, .inl observes_markAt, fun _ => Cycle.find_markAt_of_ne,
      metadata_markAt⟩
  | unapproved due owner latest gated unapproved =>
    exact ⟨Cycle.isComplete_markAt, .inr ⟨gated, unapproved, observes_markAt⟩,
      fun _ => Cycle.find_markAt_of_ne, metadata_markAt⟩
  | unrendered =>
    exact ⟨Cycle.isComplete_markAt, .inl observes_markAt, fun _ => Cycle.find_markAt_of_ne,
      metadata_markAt⟩

structure StageRun.LetsGo (s : StageRun) (cycle cycle' : ConfigurationCycle) : Prop where
  settled : pending cycle' s.condition = false
  others : ∀ type, type ≠ s.condition →
    findCondition cycle'.conditions type = findCondition cycle.conditions type
  metadata_eq : cycle'.resource.metadata = cycle.resource.metadata
  spec_eq : cycle'.resource.spec = cycle.resource.spec

theorem StageRun.Ends.letsGo {s : StageRun} {verdict : Verdict} (hs : s ∈ StageRun.all)
    (h : s.Ends settings cycle own verdict cycle') (go : verdict.ending? = none) :
    s.LetsGo cycle cycle' := by
  cases h with
  | passed complete => exact ⟨by simp [pending, complete], fun _ _ => rfl, rfl, rfl⟩
  | succeeded =>
    exact ⟨by simp [pending], fun _ => Cycle.find_markAt_of_ne, metadata_markAt, spec_markAt⟩
  | disabled incomplete verify free =>
    have checks : ∀ s ∈ StageRun.all, s.stage = .verify → s.condition = Configuration.checked := by
      decide
    refine ⟨?_, fun _ => Cycle.find_markAt_of_ne, metadata_markAt, spec_markAt⟩
    rw [pending, passedOver_of_observes (checks s hs verify) observes_markAt, Bool.not_true,
      Bool.and_false]
  | _ => cases go

theorem pending_congr {type : String}
    (found : findCondition cycle'.conditions type = findCondition cycle.conditions type)
    (metadata_eq : cycle'.resource.metadata = cycle.resource.metadata) :
    pending cycle' type = pending cycle type := by
  simp only [pending, Cycle.isComplete_eq, complete, passedOver, found, generation_eq metadata_eq]

/-- A stage that holds the cycle up explains it, if those before it are not waited for. -/
theorem StageRun.Pauses.explained {s : StageRun} (h : s.Pauses cycle cycle')
    (metadata_eq : cycle.resource.metadata = c.metadata)
    (spec_eq : cycle.resource.spec = c.spec) {pre post : List String}
    (stages : [Configuration.planned, Configuration.checked, Configuration.applied] =
      pre ++ s.condition :: post)
    (before : ∀ type ∈ pre, type ≠ s.condition ∧ pending cycle type = false)
    (gated : s.gated = true → s.condition = Configuration.applied) :
    Explained c cycle'.conditions := by
  have generation : cycle.generation = Resource.generation c :=
    congrArg ObjectMeta.generationOrZero metadata_eq
  have waits : pending cycle' s.condition = true := by
    rcases h.observed with failed | ⟨-, -, asked⟩
    · exact pending_of_observes h.incomplete failed nofun
    · exact pending_of_observes h.incomplete asked nofun
  have first : firstPending cycle'.conditions (Resource.generation c) = some s.condition := by
    rw [← generation, ← generation_eq h.metadata_eq, firstPending_eq, stages, List.find?_append,
      List.find?_cons_of_pos waits, Option.or_eq_some_iff]
    refine .inr ⟨List.find?_eq_none.2 fun type ht => ?_, rfl⟩
    obtain ⟨other, settled⟩ := before type ht
    rw [← pending_congr (h.others type other) h.metadata_eq] at settled
    exact Bool.eq_false_iff.1 settled
  refine .inr ⟨s.condition, first, ?_⟩
  rw [← generation]
  refine h.observed.imp_right fun ⟨waits, unapproved, asked⟩ => ⟨gated waits, asked, ?_⟩
  unfold Configuration.applyApproved at unapproved ⊢
  rw [← metadata_eq, ← spec_eq]
  exact unapproved

/-! ## The steps -/

abbrev Explains (c : Configuration) (name : String) (steps : List ConfigurationStep)
    (cycle : ConfigurationCycle) (past : Calls) : Prop :=
  Keeps (fun _ _ _ => True) (WhenDone fun _ cycle => Explained c cycle.conditions)
    (observeSteps name steps cycle) past

variable {name : String}

theorem verdictOf_ne_pause (result : Outcome Unit) : verdictOf result ≠ .pause := by
  rcases result with e | _ <;> exact nofun

theorem explains_cons (settings : Settings) {step : ConfigurationStep}
    {rest : List ConfigurationStep}
    {asks : Calls → Surroundings.Request ConfigurationStore → Prop}
    {ends : Calls → Verdict → ConfigurationCycle → Prop}
    (does : step.run.Does cycle (Staged.From cycle asks) ends [])
    (change : ∀ own verdict c', ends own verdict c' → Change settings cycle own c')
    (unpaused : ∀ own verdict c', ends own verdict c' → verdict ≠ .pause)
    (metadata_eq : cycle.resource.metadata = c.metadata) (spec_eq : cycle.resource.spec = c.spec)
    (next : ∀ own c', c'.resource.metadata = c.metadata → c'.resource.spec = c.spec →
      Explains c name rest c' (past ++ own)) :
    Explains c name (step :: rest) cycle past := by
  refine keeps_cons_whenDone does (fun own c' paused => absurd rfl (unpaused own _ c' paused)) ?_
  intro own verdict c' ends _
  have change := change own verdict c' ends
  exact next own c' (change.metadata_eq.trans metadata_eq) (change.spec_eq.trans spec_eq)

theorem explains_reports (metadata_eq : cycle.resource.metadata = c.metadata)
    (spec_eq : cycle.resource.spec = c.spec) :
    Explains c name [ensureResourceCount settings, ensureConnectionSecret settings, ensureReady]
      cycle past := by
  refine explains_cons settings does_ensureResourceCount (fun _ _ _ ends => ends.change)
    (fun _ _ _ ends => by cases ends <;> exact nofun) metadata_eq spec_eq
    fun own counted metadata_eq spec_eq => ?_
  refine explains_cons settings does_ensureConnectionSecret (fun _ _ _ ends => ends.change) ?_
    metadata_eq
    spec_eq fun own copied metadata_eq spec_eq => ?_
  · intro own verdict c' ends
    cases ends with
    | copied => exact verdictOf_ne_pause _
    | _ => exact nofun
  refine keeps_cons_whenDone does_ensureReady ?_ ?_
  · rintro own c' ⟨-, paused, -⟩
    cases paused
  · rintro own verdict c' ⟨rfl, rfl, now, rfl⟩ - -
    have generation : copied.generation = Resource.generation c :=
      congrArg ObjectMeta.generationOrZero metadata_eq
    refine .inl ?_
    rw [Cycle.complete_markAt, generation]
    simp

theorem explains_stage {s : StageRun} {rest : List ConfigurationStep} (hs : s ∈ StageRun.all)
    (metadata_eq : cycle.resource.metadata = c.metadata) (spec_eq : cycle.resource.spec = c.spec)
    (pre : List String) {post : List String}
    (stages : [Configuration.planned, Configuration.checked, Configuration.applied] =
      pre ++ s.condition :: post)
    (before : ∀ type ∈ pre, type ≠ s.condition ∧ pending cycle type = false)
    (gated : s.gated = true → s.condition = Configuration.applied)
    (next : ∀ own c', c'.resource.metadata = c.metadata → c'.resource.spec = c.spec →
      (∀ type ∈ pre ++ [s.condition], pending c' type = false) →
      Explains c name rest c' (past ++ own)) :
    Explains c name (s.toStep settings :: rest) cycle past := by
  refine keeps_cons_whenDone StageRun.does_run
    (fun own c' paused => paused.pauses.explained metadata_eq spec_eq stages before gated) ?_
  intro own verdict c' ends go
  have passed := ends.letsGo hs go
  refine next own c' (passed.metadata_eq.trans metadata_eq) (passed.spec_eq.trans spec_eq) ?_
  intro type ht
  rcases List.mem_append.1 ht with ht | ht
  · obtain ⟨other, settled⟩ := before type ht
    rw [pending_congr (passed.others type other) passed.metadata_eq]
    exact settled
  · obtain rfl : type = s.condition := List.mem_singleton.1 ht
    exact passed.settled

theorem explains_stages (metadata_eq : cycle.resource.metadata = c.metadata)
    (spec_eq : cycle.resource.spec = c.spec) :
    Explains c name [StageRun.plan.toStep settings, StageRun.verify.toStep settings,
      StageRun.apply.toStep settings, ensureResourceCount settings,
      ensureConnectionSecret settings, ensureReady] cycle past := by
  refine explains_stage (by decide) metadata_eq spec_eq [] rfl nofun nofun
    fun _ planned metadata_eq spec_eq settled => ?_
  refine explains_stage (by decide) metadata_eq spec_eq [Configuration.planned] rfl
    (fun type ht => ⟨?_, settled type ht⟩) nofun fun _ checked metadata_eq spec_eq settled => ?_
  · obtain rfl := List.mem_singleton.1 ht
    decide
  refine explains_stage (by decide) metadata_eq spec_eq
    [Configuration.planned, Configuration.checked] rfl (fun type ht => ⟨?_, settled type ht⟩)
    (fun _ => rfl)
    fun _ applied metadata_eq spec_eq _ => explains_reports metadata_eq spec_eq
  have others : ∀ type ∈ [Configuration.planned, Configuration.checked],
      type ≠ StageRun.apply.condition := by decide
  exact others type ht

theorem explains_provisioning (metadata_eq : cycle.resource.metadata = c.metadata)
    (spec_eq : cycle.resource.spec = c.spec) :
    Explains c name (provisioningSteps settings) cycle past := by
  refine explains_cons settings does_ensureFinalizer (fun _ _ _ ends => ends.change)
    (fun _ _ _ ends => by cases ends <;> exact nofun) metadata_eq spec_eq
    fun own held metadata_eq spec_eq => ?_
  refine explains_cons settings does_ensureNoPreviousGeneration ?_ ?_ metadata_eq spec_eq
    fun own current metadata_eq spec_eq => ?_
  · rintro own verdict c' ⟨-, -, rfl⟩
    exact .kept
  · rintro own verdict c' ⟨-, rfl, -⟩
    exact nofun
  refine explains_cons settings does_ensureProviderReady (fun _ _ _ ends => ends.change)
    (fun _ _ _ ends => by cases ends <;> exact nofun) metadata_eq spec_eq
    fun own provided metadata_eq spec_eq => ?_
  refine explains_cons settings does_ensurePolicies (fun _ _ _ ends => ends.change)
    (fun _ _ _ ends => by cases ends <;> exact nofun) metadata_eq spec_eq
    fun own selected metadata_eq spec_eq => ?_
  refine explains_cons settings does_ensureUnitListing (fun _ _ _ ends => ends.change)
    (fun _ _ _ ends => by cases ends <;> exact nofun) metadata_eq spec_eq
    fun own listed metadata_eq spec_eq => ?_
  refine explains_cons settings does_ensureJobConfiguration (fun _ _ _ ends => ends.change) ?_
    metadata_eq
    spec_eq fun own brought metadata_eq spec_eq => explains_stages metadata_eq spec_eq
  intro own verdict c' ends
  cases ends with
  | brought => exact verdictOf_ne_pause _
  | _ => exact nofun

/-! ## Deletions -/

/-- What explains that the steps of a deletion are done: the release, or a destroy that failed. -/
def TornDown (c : Configuration) (past : Calls) (cycle : ConfigurationCycle) : Prop :=
  Removed past ∨
    Observes cycle.conditions Configuration.destroyed (Resource.generation c) .error

theorem tornDown_deletion (metadata_eq : cycle.resource.metadata = c.metadata)
    (held : c.metadata.hasFinalizer cleanupFinalizer = true) :
    Keeps (fun _ _ _ => True) (WhenDone (TornDown c))
      (observeSteps name (deletionSteps settings) cycle) past := by
  refine keeps_cons_whenDone does_ensureUnitListing (fun _ _ ends => by cases ends)
    fun own _ listed ends _ => ?_
  have metadata_eq := ends.change.metadata_eq.trans metadata_eq
  refine keeps_cons_whenDone does_ensureDestroy ?_ fun own _ destroyed ends _ => ?_
  · intro own c' paused
    cases paused with
    | stage owner ends =>
      have generation : listed.generation = Resource.generation c :=
        congrArg ObjectMeta.generationOrZero metadata_eq
      rw [TornDown, ← generation]
      exact .inr (ends.pauses.observed.resolve_right nofun)
  have metadata_eq := ends.change.metadata_eq.trans metadata_eq
  refine keeps_cons_whenDone does_ensureConfigurationRemoved (fun _ _ ends => by cases ends)
    fun own _ removed ends _ => ?_
  have metadata_eq := ends.change.metadata_eq.trans metadata_eq
  refine keeps_cons_whenDone does_ensureFinalizerRemoved (fun _ _ ends => by cases ends)
    fun own _ released ends go => ?_
  refine Pipeline.keeps_nil name fun _ => .inl ?_
  cases ends with
  | absent h =>
    rw [metadata_eq] at h
    exact absurd (h.symm.trans held) Bool.false_ne_true
  | @released object ns =>
    exact ⟨object, ns, .ok (), List.mem_append_right _ (List.mem_cons_self ..), .inl rfl⟩
  | @gone object ns e absent =>
    exact ⟨object, ns, .error e, List.mem_append_right _ (List.mem_cons_self ..),
      .inr ⟨e, rfl, absent⟩⟩
  | homeless => cases go
  | refused => cases go

/-! ## Whole cycles -/

theorem done_of_awaitChange {directive : Directive} {resync : Option Span}
    (h : directive.toAction resync = .awaitChange) : directive = .done := by
  cases directive with
  | done => rfl
  | requeue delay => cases h
  | requeueNow => cases h

theorem done_of_settled {failures : Failures} {p : ConfigurationPipeline}
    {outcome : Outcome Directive} {run : List (Answered (Supervised ConfigurationStore))}
    {left : Failures}
    (ended : (settleAndConclude settings c failures p outcome cycle).Reaches run
      (.done (.ok .awaitChange, left))) : outcome = .ok .done := by
  obtain ⟨settled, concluded, ⟨result, cycle'⟩, -, settles, concludes⟩ :=
    Program.reaches_bind ended
  have value := only_conclude.ended concludes
  have same := (only_settle.ended settles).1
  cases result with
  | error e => cases value
  | ok directive =>
    have done := done_of_awaitChange (Except.ok.inj value).symm
    rcases same with same | ⟨e, failed⟩
    · rw [← same, done]
    · cases failed

theorem ended_steps {name : String} {steps : List ConfigurationStep}
    {Q : Calls → ConfigurationCycle → Prop}
    {run : List (Answered (Supervised ConfigurationStore))}
    (keeps : Keeps (fun _ _ _ => True) (WhenDone Q) (observeSteps name steps cycle) [])
    (ran : (Pipeline.runSteps name steps cycle).Reaches run (.done (.ok .done, cycle'))) :
    Q (run.flatMap Supervised.calls) cycle' := by
  rw [← Pipeline.forget_observeSteps] at ran
  obtain ⟨noted, rest, observed, bare, whole⟩ := Program.exists_noted_run ran
  cases rest with
  | ask r next => cases whole
  | done value =>
    obtain rfl : value = (.ok .done, cycle') := Program.done.inj whole
    rw [← bare, Program.flatMap_bare]
    exact keeps.ended observed rfl

/-- A cycle of a configuration that asks for nothing but to wait for a change explains it. Of one
that is not being deleted the conditions tell that it is ready, or which stage holds it up and why.
One that is being deleted is not held by the finalizer any more, or its destroy failed. -/
theorem waiting_explained {failures left : Failures}
    {run : List (Answered (Supervised ConfigurationStore))}
    (reached : (reconcile settings c failures).Reaches run (.done (.ok .awaitChange, left))) :
    (c.metadata.isDeleting = true ∧ c.metadata.hasFinalizer cleanupFinalizer = false) ∨
    ∃ cycle, Course settings c failures run (.ok .done) cycle (.ok .awaitChange, left) ∧
      (c.metadata.isDeleting = false → Explained c cycle.conditions) ∧
      (c.metadata.isDeleting = true → TornDown c (run.flatMap Supervised.calls) cycle) := by
  by_cases free : c.metadata.isDeleting = true ∧ c.metadata.hasFinalizer cleanupFinalizer = false
  · exact .inl free
  have candidate : c.metadata.isDeleting = true →
      c.metadata.isDeletionCandidate cleanupFinalizer = true := by
    intro deleting
    rw [ObjectMeta.isDeletionCandidate, deleting, Bool.true_and, ← Bool.not_eq_false]
    exact fun unheld => free ⟨deleting, unheld⟩
  obtain ⟨outcome, cycle, course⟩ := exists_course candidate reached
  refine .inr ⟨cycle, ?_⟩
  obtain @⟨now, pipeline, opening, steps, settled, rfl, uncalled, built, ran, ended⟩ := course
  obtain rfl := done_of_settled ended
  refine ⟨.parts rfl uncalled built ran ended, fun live => ?_, fun deleting => ?_⟩
  · rw [Pipeline.run, steps_pipelineFor built, live] at ran
    exact ended_steps (explains_provisioning rfl rfl) ran
  · have held := (Bool.and_eq_true_iff.1 (candidate deleting)).2
    rw [Pipeline.run, steps_pipelineFor built, deleting] at ran
    rcases ended_steps (tornDown_deletion rfl held) ran with removed | failed
    · rw [List.flatMap_append, uncalled, List.nil_append, List.flatMap_append]
      exact .inl (removed.later _)
    · exact .inr failed

def unapproved : Configuration :=
  { awaitingApply with metadata := { awaitingApply.metadata with annotations := none } }

theorem waiting_explained_unapproved :
    (policed.visit unapproved).written.map (fun w => firstPending w.conditions 3) =
      [some Configuration.applied] ∧
    ∃ left cycle, Course {} unapproved .none (policed.visit unapproved).run (.ok .done) cycle
        (.ok .awaitChange, left) ∧
      (unapproved.metadata.isDeleting = false → Explained unapproved cycle.conditions) ∧
      (unapproved.metadata.isDeleting = true →
        TornDown unapproved ((policed.visit unapproved).run.flatMap Supervised.calls) cycle) := by
  refine ⟨by decide +kernel, ((reconcile {} unapproved .none).finish policed.answer).2, ?_⟩
  have waits : ((reconcile {} unapproved .none).finish policed.answer).1 = .ok .awaitChange := by
    decide +kernel
  have reached := Program.reaches_follow policed.answer (reconcile {} unapproved .none)
  rw [← Prod.eta ((reconcile {} unapproved .none).finish policed.answer), waits] at reached
  exact (waiting_explained reached).resolve_left (by decide)

end Provisioning

end InfraOperator
