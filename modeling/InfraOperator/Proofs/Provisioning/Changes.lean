import InfraOperator.Proofs.Provisioning.Steps

/-!
# What steps make of a cycle

Every way a step may leave the cycle it was given, but for the step that calls the configuration
ready. No step touches the metadata or the spec, and a stage is completed only by a unit of its own
that is complete.
-/

set_option autoImplicit false

namespace InfraOperator.Provisioning

def StageRun.all : List StageRun := [.plan, .verify, .apply, .destroy]

def stageConditions : List String := StageRun.all.map (·.condition)

inductive Change (settings : Settings) (c : ConfigurationCycle) :
    Calls → ConfigurationCycle → Prop
  | kept {own : Calls} : Change settings c own c
  | unmet {own : Calls} {type message : String} {mark : Mark} {now : Instant}
      (h : mark ≠ .success)
      (incomplete : type ∈ stageConditions → c.isComplete type = false) :
      Change settings c own (c.markAt type mark message now).2
  | provided {own : Calls} {p : Provider} {message : String} {now : Instant} :
      Change settings c own
        { (c.markAt Configuration.providerReady .success message now).2 with
          scratch := { c.scratch with provider := some p } }
  | selected {own : Calls} {policy : Option Policy} :
      Change settings c own { c with scratch := { c.scratch with policy } }
  | listed {own : Calls} {uid : String} {units : List Job} (owner : c.resource.ownerUid = .ok uid)
      (h : told (.listUnits settings.namespaceName uid) (.ok units) ∈ own) :
      Change settings c own { c with scratch := { c.scratch with units } }
  | succeeded {own : Calls} {s : StageRun} {uid message : String} {unit : Job} {now : Instant}
      (hs : s ∈ StageRun.all) (owner : c.resource.ownerUid = .ok uid)
      (latest : (c.resource.unitFilter settings.namespaceName uid s.stage).latest?
        c.scratch.units = some unit)
      (state : unit.state = .complete) :
      Change settings c own (c.markAt s.condition .success message now).2
  | counted {own : Calls} {count : Nat} : Change settings c own (counted c count)
  | cleaned {own : Calls} :
      Change settings c own { c with scratch := { c.scratch with cleanedUp := true } }

variable {settings : Settings} {c c' : ConfigurationCycle} {own : Calls} {verdict : Verdict}

theorem metadata_markAt {type message : String} {mark : Mark} {now : Instant} :
    (c.markAt type mark message now).2.resource.metadata = c.resource.metadata :=
  Cycle.metadata_markAt (c := c)

theorem spec_markAt {type message : String} {mark : Mark} {now : Instant} :
    (c.markAt type mark message now).2.resource.spec = c.resource.spec := by
  unfold Cycle.markAt
  split <;> rfl

theorem Change.metadata_eq (h : Change settings c own c') :
    c'.resource.metadata = c.resource.metadata := by
  cases h with
  | kept => rfl
  | unmet => exact metadata_markAt
  | provided => exact metadata_markAt (c := c)
  | selected => rfl
  | listed => rfl
  | succeeded => exact metadata_markAt
  | counted => exact metadata_counted _
  | cleaned => rfl

theorem Change.spec_eq (h : Change settings c own c') :
    c'.resource.spec = c.resource.spec := by
  cases h with
  | kept => rfl
  | unmet => exact spec_markAt
  | provided => exact spec_markAt
  | selected => rfl
  | listed => rfl
  | succeeded => exact spec_markAt
  | counted => exact spec_counted _
  | cleaned => rfl

/-- A stage that is complete stays complete for the cycle. -/
theorem Change.isComplete {type : String} (h : Change settings c own c')
    (stage : type ∈ stageConditions) (complete : c.isComplete type = true) :
    c'.isComplete type = true := by
  cases h with
  | kept => exact complete
  | unmet failed incomplete =>
    refine Cycle.isComplete_markAt_of_isComplete complete fun same => ?_
    subst same
    exact absurd ((incomplete stage).symm.trans complete) Bool.false_ne_true
  | @provided _ message now =>
    have marked : (c.markAt Configuration.providerReady .success message now).2.isComplete type =
      true := Cycle.isComplete_markAt_of_isComplete complete fun _ => rfl
    exact marked
  | selected => exact complete
  | listed => exact complete
  | succeeded => exact Cycle.isComplete_markAt_of_isComplete complete fun _ => rfl
  | counted =>
    rw [Cycle.isComplete_eq, conditions_counted, Cycle.generation, Resource.generation]
    refine Eq.trans ?_ complete
    rw [Cycle.isComplete_eq]
    exact congrArg (fun m => Conditions.complete c.conditions type (ObjectMeta.generationOrZero m))
      (metadata_counted _)
  | cleaned => exact complete

theorem generation_eq (h : c'.resource.metadata = c.resource.metadata) :
    c'.generation = c.generation :=
  congrArg ObjectMeta.generationOrZero h

/-! ## The steps -/

theorem FinalizerEnds.change (h : FinalizerEnds c own verdict c') : Change settings c own c' := by
  cases h <;> exact .kept

theorem ReleaseEnds.change (h : ReleaseEnds c own verdict c') : Change settings c own c' := by
  cases h <;> exact .kept

theorem ProviderEnds.change (h : ProviderEnds c own verdict c') : Change settings c own c' := by
  cases h with
  | failed => exact .kept
  | missing => exact .unmet (by decide) fun stage => absurd stage (by decide)
  | unready => exact .unmet (by decide) fun stage => absurd stage (by decide)
  | ready => exact .provided

theorem PoliciesEnds.change (h : PoliciesEnds c own verdict c') : Change settings c own c' := by
  cases h with
  | failed => exact .kept
  | selected => exact .selected

theorem ListingEnds.change (h : ListingEnds settings c own verdict c') :
    Change settings c own c' := by
  cases h with
  | ownerless => exact .kept
  | failed => exact .kept
  | listed owner => exact .listed owner (List.mem_cons_self ..)

theorem JobConfigurationEnds.change (h : JobConfigurationEnds settings c own verdict c') :
    Change settings c own c' := by
  cases h <;> exact .kept

theorem StageRun.Ends.change {s : StageRun} (hs : s ∈ StageRun.all)
    (h : s.Ends settings c own verdict c') : Change settings c own c' := by
  cases h with
  | passed => exact .kept
  | disabled incomplete => exact .unmet (by decide) fun _ => incomplete
  | ownerless => exact .kept
  | succeeded due owner latest state => exact .succeeded hs owner latest state
  | failed due => exact .unmet (by decide) fun _ => due.incomplete
  | active due => exact .unmet (by decide) fun _ => due.incomplete
  | unapproved due => exact .unmet (by decide) fun _ => due.incomplete
  | providerFailed => exact .kept
  | providerMissing opens => exact .unmet (by decide) fun _ => opens.incomplete
  | unrendered opens => exact .unmet (by decide) fun _ => opens.incomplete
  | refused => exact .kept
  | created opens => exact .unmet (by decide) fun _ => opens.incomplete

theorem CountEnds.change (h : CountEnds settings c own verdict c') :
    Change settings c own c' := by
  cases h with
  | ownerless => exact .kept
  | unread => exact .kept
  | uncounted => exact .kept
  | counted => exact .counted

theorem ConnectionEnds.change (h : ConnectionEnds settings c own verdict c') :
    Change settings c own c' := by
  cases h with
  | unwanted => exact .kept
  | ownerless => exact .kept
  | unread => exact .kept
  | waiting => exact .unmet (by decide) fun stage => absurd stage (by decide)
  | copied => exact .kept

theorem DestroyEnds.change (h : DestroyEnds settings c own verdict c') :
    Change settings c own c' := by
  cases h with
  | orphaned => exact .kept
  | ownerless => exact .kept
  | unread => exact .kept
  | stateless => exact .kept
  | stage owner ends =>
    cases ends.change (by decide) with
    | kept => exact .kept
    | unmet h incomplete => exact .unmet h incomplete
    | provided => exact .provided
    | selected => exact .selected
    | listed owner h => exact .listed owner (List.mem_cons_of_mem _ h)
    | succeeded hs owner latest state => exact .succeeded hs owner latest state
    | counted => exact .counted
    | cleaned => exact .cleaned

theorem CleanupEnds.change (h : CleanupEnds settings c own verdict c') :
    Change settings c own c' := by
  cases h with
  | ownerless => exact .kept
  | secretFailed => exact .kept
  | unitsFailed => exact .kept
  | removed => exact .cleaned

/-! ## Calm steps -/

/-- A request that creates no job, writes no status, releases no finalizer and tells nothing. -/
def Ordinary : Surroundings.Request ConfigurationStore → Prop
  | .store (.createJob _) | .store (.patchStatus _) | .store (.removeFinalizer _ _ _)
  | .publish _ => False
  | _ => True

theorem ordinary_of_prompt {r : Surroundings.Request ConfigurationStore}
    (prompt : r.suspends = false) : Ordinary r := by
  cases r <;> trivial

theorem Ordinary.ne_createJob {r : Surroundings.Request ConfigurationStore} (h : Ordinary r)
    (job : Job) : r ≠ .store (.createJob job) := by
  rintro rfl
  exact h

theorem Ordinary.ne_patchStatus {r : Surroundings.Request ConfigurationStore} (h : Ordinary r)
    (written : Configuration) : r ≠ .store (.patchStatus written) := by
  rintro rfl
  exact h

theorem Ordinary.ne_removeFinalizer {r : Surroundings.Request ConfigurationStore}
    (h : Ordinary r) (name ns finalizer : String) :
    r ≠ .store (.removeFinalizer name ns finalizer) := by
  rintro rfl
  exact h

theorem Ordinary.ne_publish {r : Surroundings.Request ConfigurationStore} (h : Ordinary r)
    (notice : Notice) : r ≠ .publish notice := by
  rintro rfl
  exact h

def Calm (settings : Settings) (step : ConfigurationStep) : Prop :=
  ∀ c, step.run.Does c (Staged.From c fun _ r => Ordinary r)
    (fun own _ c' => Change settings c own c') []

theorem calm_of_does {step : ConfigurationStep}
    {asks : ConfigurationCycle → Calls → Surroundings.Request ConfigurationStore → Prop}
    {ends : ConfigurationCycle → Calls → Verdict → ConfigurationCycle → Prop}
    (does : ∀ c, step.run.Does c (Staged.From c (asks c)) (ends c) [])
    (ordinary : ∀ c own r, asks c own r → Ordinary r)
    (change : ∀ c own verdict c', ends c own verdict c' → Change settings c own c') :
    Calm settings step := by
  intro c
  refine (does c).mono ?_ (change c)
  rintro own t r ⟨rfl, asked⟩
  exact ⟨rfl, ordinary _ own r asked⟩

theorem SecretAsks.ordinary {desired : Secret} {r : Surroundings.Request ConfigurationStore}
    (h : SecretAsks desired r) : Ordinary r := by
  cases h <;> trivial

theorem ConnectionAsks.ordinary {r : Surroundings.Request ConfigurationStore}
    (h : ConnectionAsks settings c r) : Ordinary r := by
  cases h with
  | outputs => trivial
  | copy h asks => exact asks.ordinary

theorem CleanupAsks.ordinary {r : Surroundings.Request ConfigurationStore}
    (h : CleanupAsks settings c r) : Ordinary r := by
  cases h <;> trivial

theorem calm_ensureFinalizer :
    Calm settings (ensureFinalizer ConfigurationStore.finalizers cleanupFinalizer) := by
  refine calm_of_does (fun _ => does_ensureFinalizer) ?_ fun _ _ _ _ ends => ends.change
  rintro c own r ⟨name, ns, rfl⟩
  trivial

theorem calm_ensureNoPreviousGeneration : Calm settings ensureNoPreviousGeneration := by
  refine calm_of_does (fun _ => does_ensureNoPreviousGeneration) (fun _ _ _ => False.elim) ?_
  rintro c own verdict c' ⟨-, -, rfl⟩
  exact .kept

theorem calm_ensureProviderReady : Calm settings ensureProviderReady := by
  refine calm_of_does (fun _ => does_ensureProviderReady) ?_ fun _ _ _ _ ends => ends.change
  rintro c own r rfl
  trivial

theorem calm_ensurePolicies : Calm settings ensurePolicies := by
  refine calm_of_does (fun _ => does_ensurePolicies) ?_ fun _ _ _ _ ends => ends.change
  rintro c own r rfl
  trivial

theorem calm_ensureUnitListing : Calm settings (ensureUnitListing settings) := by
  refine calm_of_does (fun _ => does_ensureUnitListing) ?_ fun _ _ _ _ ends => ends.change
  rintro c own r ⟨uid, rfl⟩
  trivial

theorem calm_ensureJobConfiguration : Calm settings (ensureJobConfiguration settings) := by
  refine calm_of_does (fun _ => does_ensureJobConfiguration) ?_ fun _ _ _ _ ends => ends.change
  rintro c own r ⟨secret, -, asks⟩
  exact asks.ordinary

theorem calm_ensureResourceCount : Calm settings (ensureResourceCount settings) := by
  refine calm_of_does (fun _ => does_ensureResourceCount) ?_ fun _ _ _ _ ends => ends.change
  rintro c own r ⟨uid, -, rfl⟩
  trivial

theorem calm_ensureConnectionSecret : Calm settings (ensureConnectionSecret settings) :=
  calm_of_does (fun _ => does_ensureConnectionSecret) (fun _ _ _ asks => asks.ordinary)
    fun _ _ _ _ ends => ends.change

theorem calm_ensureConfigurationRemoved : Calm settings (ensureConfigurationRemoved settings) :=
  calm_of_does (fun _ => does_ensureConfigurationRemoved) (fun _ _ _ asks => asks.ordinary)
    fun _ _ _ _ ends => ends.change

end InfraOperator.Provisioning
