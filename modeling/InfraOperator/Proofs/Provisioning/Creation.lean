import InfraOperator.Proofs.Provisioning.Journal
import InfraOperator.Proofs.Provisioning.Units

/-!
# The gate before units

Executors are created behind a gate: for a configuration that is held by its finalizer, with a
provider that was read and is ready, each stage after those before it, and the apply after its
approval. A cycle that is not one of a deletion creates at most one of them.
-/

set_option autoImplicit false

namespace InfraOperator.Provisioning

open Pipeline (Keeps observeSteps keeps_cons_of_any_end)

/-- The executors among the jobs that were asked for, given up or not. -/
def executors (calls : Calls) : List Job := (calls.filterMap created?).filter Job.isExecutor

theorem executors_append (calls later : Calls) :
    executors (calls ++ later) = executors calls ++ executors later := by
  rw [executors, List.filterMap_append, List.filter_append, executors, executors]

/-- What has to hold of a stage for its unit to be created for a configuration, by the calls so far
and the conditions of the cycle. -/
structure Permitted (c : Configuration) (past : Calls) (cycle : ConfigurationCycle)
    (stage : Stage) : Prop where
  finalizer : c.metadata.hasFinalizer cleanupFinalizer = true
  provider : ∃ p, told (.getProvider c.spec.providerName) (.ok (some p)) ∈ past ∧
    p.isReady = true
  provisioning : stage ≠ .destroy
  planned : stage ≠ .plan → Conditions.complete cycle.conditions Configuration.planned
    (Resource.generation c) = true
  checked : stage = .apply →
    (∃ policies : List Policy, told .listPolicies (.ok policies) ∈ past ∧
      ∀ p ∈ policies, p.applies c.metadata.labels = false) ∨
    Conditions.complete cycle.conditions Configuration.checked (Resource.generation c) = true
  approved : stage = .apply → c.applyApproved = true

/-- An executor is asked for once, and where its stage is permitted. -/
def Gate (c : Configuration) (past : Calls) (cycle : ConfigurationCycle)
    (r : Surroundings.Request ConfigurationStore) : Prop :=
  ∀ unit, r = .store (.createJob unit) → unit.isExecutor = true →
    executors past = [] ∧ ∃ stage, unit.stage? = some stage ∧ Permitted c past cycle stage

structure Prepared (c : Configuration) (past : Calls) (cycle : ConfigurationCycle) : Prop where
  metadata_eq : cycle.resource.metadata = c.metadata
  spec_eq : cycle.resource.spec = c.spec
  unmade : executors past = []
  finalizer : c.metadata.hasFinalizer cleanupFinalizer = true
  provider : ∃ p, told (.getProvider c.spec.providerName) (.ok (some p)) ∈ past ∧
    p.isReady = true
  policies : ∃ policies : List Policy, told .listPolicies (.ok policies) ∈ past ∧
    cycle.scratch.policy = policies.find? (·.applies c.metadata.labels)

variable {settings : Settings} {c : Configuration} {past : Calls} {cycle : ConfigurationCycle}

theorem Prepared.isComplete_eq (h : Prepared c past cycle) (type : String) :
    cycle.isComplete type =
      Conditions.complete cycle.conditions type (Resource.generation c) := by
  rw [Cycle.isComplete_eq, Cycle.generation]
  exact congrArg (Conditions.complete _ type ·.generationOrZero) h.metadata_eq

theorem Prepared.change {own : Calls} {cycle' : ConfigurationCycle} (h : Prepared c past cycle)
    (change : Change settings cycle own cycle') (unmade : executors own = [])
    (policy_eq : cycle'.scratch.policy = cycle.scratch.policy) :
    Prepared c (past ++ own) cycle' where
  metadata_eq := change.metadata_eq.trans h.metadata_eq
  spec_eq := change.spec_eq.trans h.spec_eq
  unmade := by rw [executors_append, h.unmade, unmade, List.append_nil]
  finalizer := h.finalizer
  provider := by
    obtain ⟨p, asked, ready⟩ := h.provider
    exact ⟨p, List.mem_append_left _ asked, ready⟩
  policies := by
    obtain ⟨policies, asked, found⟩ := h.policies
    exact ⟨policies, List.mem_append_left _ asked, policy_eq.trans found⟩

/-! ## The stages -/

theorem executors_of_found {own : Calls} {p : Provider} (h : ProviderFound cycle own p) :
    executors own = [] := by
  cases h <;> rfl

theorem executors_of_watched {r : UnitRequest} {unit : Job} {watched : Calls}
    (h : WatcherCalls r unit watched) : executors watched = [] := by
  cases h with
  | off => rfl
  | unrendered => rfl
  | created on rendered =>
    have follows := UnitRequest.isExecutor_of_renderWatcher rendered
    show [_].filter Job.isExecutor = []
    rw [List.filter_cons_of_neg (by simp [follows]), List.filter_nil]

structure Due (cycle : ConfigurationCycle) (s : StageRun) : Prop where
  provisioning : s.stage ≠ .destroy
  planned : s.stage ≠ .plan → cycle.isComplete Configuration.planned = true
  checked : s.stage = .apply →
    cycle.scratch.policy = none ∨ cycle.isComplete Configuration.checked = true
  gated : s.stage = .apply → s.gated = true

theorem permitted_of_opens {s : StageRun} {own : Calls} (prepared : Prepared c past cycle)
    (due : Due cycle s) (opens : s.Opens settings cycle) :
    Permitted c (past ++ own) cycle s.stage where
  finalizer := prepared.finalizer
  provider := by
    obtain ⟨p, asked, ready⟩ := prepared.provider
    exact ⟨p, List.mem_append_left _ asked, ready⟩
  provisioning := due.provisioning
  planned later := by
    rw [← prepared.isComplete_eq]
    exact due.planned later
  checked applies := by
    rcases due.checked applies with free | checked
    · obtain ⟨policies, asked, found⟩ := prepared.policies
      rw [free] at found
      refine .inl ⟨policies, List.mem_append_left _ asked, fun p hp => ?_⟩
      simpa using List.find?_eq_none.1 found.symm p hp
    · rw [← prepared.isComplete_eq]
      exact .inr checked
  approved applies := by
    have approval : cycle.resource.applyApproved = c.applyApproved := by
      unfold Configuration.applyApproved
      rw [prepared.metadata_eq, prepared.spec_eq]
    rw [← approval]
    cases approved : cycle.resource.applyApproved with
    | true => rfl
    | false => exact absurd ⟨due.gated applies, approved⟩ opens.approved

theorem gate_stage {s : StageRun} {own : Calls} {r : Surroundings.Request ConfigurationStore}
    (prepared : Prepared c past cycle) (due : Due cycle s)
    (asks : s.Asks settings cycle own r) : Gate c (past ++ own) cycle r := by
  intro unit made executes
  cases asks with
  | provider => cases made
  | watcher opens found on rendered watched =>
    cases made
    rw [UnitRequest.isExecutor_of_renderWatcher watched] at executes
    cases executes
  | tell => cases made
  | unit opens found rendered watchers =>
    cases made
    obtain ⟨uid, account, -, rfl⟩ := UnitRequest.exists_of_renderUnit rendered
    refine ⟨?_, s.stage, UnitRequest.stage?_unitFor, permitted_of_opens prepared due opens⟩
    rw [executors_append, executors_append, prepared.unmade, executors_of_found found,
      executors_of_watched watchers]
    rfl

theorem keeps_stage {name : String} {s : StageRun} {rest : List ConfigurationStep}
    (hs : s ∈ StageRun.all) (prepared : Prepared c past cycle) (due : Due cycle s)
    (next : ∀ cycle', Prepared c past cycle' → s.Passes cycle cycle' →
      Keeps (Gate c) (fun _ _ _ => True) (observeSteps name rest cycle') past) :
    Keeps (Gate c) (fun _ _ _ => True) (observeSteps name (s.toStep settings :: rest) cycle)
      past := by
  refine keeps_cons_of_any_end StageRun.does_run (fun own r => gate_stage prepared due) ?_
  intro own verdict cycle' ends go
  obtain ⟨rfl, passes⟩ := ends.passes go
  have later := prepared.change (ends.change hs) rfl (congrArg Scratch.policy passes.scratch_eq)
  rw [List.append_nil] at later ⊢
  exact next cycle' later passes

/-! ## The steps -/

theorem gate_of_ne {r : Surroundings.Request ConfigurationStore}
    (idle : ∀ job, r ≠ .store (.createJob job)) : Gate c past cycle r :=
  fun job made => absurd made (idle job)

theorem gate_of_ordinary {r : Surroundings.Request ConfigurationStore} (h : Ordinary r) :
    Gate c past cycle r :=
  gate_of_ne h.ne_createJob

theorem executors_of_secret {desired : Secret} {own : Calls} {result : Outcome Unit}
    (h : SecretEnds desired own result) : executors own = [] := by
  cases h <;> rfl

theorem keeps_reports {name : String} : Keeps (Gate c) (fun _ _ _ => True)
    (observeSteps name
      [ensureResourceCount settings, ensureConnectionSecret settings, ensureReady] cycle) past := by
  refine keeps_cons_of_any_end (calm_ensureResourceCount _)
    (fun _ _ => gate_of_ordinary) fun _ _ _ _ _ => ?_
  refine keeps_cons_of_any_end (calm_ensureConnectionSecret _)
    (fun _ _ => gate_of_ordinary) fun _ _ _ _ _ => ?_
  exact keeps_cons_of_any_end does_ensureReady (fun _ _ => False.elim) fun _ _ _ _ _ => trivial

theorem keeps_stages {name : String} (prepared : Prepared c past cycle) :
    Keeps (Gate c) (fun _ _ _ => True) (observeSteps name
      [StageRun.plan.toStep settings, StageRun.verify.toStep settings,
        StageRun.apply.toStep settings, ensureResourceCount settings,
        ensureConnectionSecret settings, ensureReady] cycle) past := by
  have due : Due cycle .plan := ⟨by decide, fun h => absurd rfl h, nofun, nofun⟩
  refine keeps_stage (by decide) prepared due fun planned prepared passed => ?_
  have isPlanned : planned.isComplete Configuration.planned = true :=
    passed.done.resolve_right fun h => by cases h.1
  have due : Due planned .verify := ⟨by decide, fun _ => isPlanned, nofun, nofun⟩
  refine keeps_stage (by decide) prepared due fun checked prepared passed' => ?_
  have due : Due checked .apply := by
    refine ⟨by decide, fun _ => ?_, fun _ => ?_, fun _ => rfl⟩
    · exact (passed'.others _ (by decide)).trans isPlanned
    · rcases passed'.done with done | ⟨-, free⟩
      · exact .inr done
      · exact .inl ((congrArg Scratch.policy passed'.scratch_eq).trans free)
  exact keeps_stage (by decide) prepared due fun _ _ _ => keeps_reports

theorem keeps_inputs {name : String} (prepared : Prepared c past cycle) :
    Keeps (Gate c) (fun _ _ _ => True) (observeSteps name
      [ensureUnitListing settings, ensureJobConfiguration settings,
        StageRun.plan.toStep settings, StageRun.verify.toStep settings,
        StageRun.apply.toStep settings, ensureResourceCount settings,
        ensureConnectionSecret settings, ensureReady] cycle) past := by
  refine keeps_cons_of_any_end does_ensureUnitListing ?_ fun own verdict listed ends go => ?_
  · rintro own r ⟨uid, rfl⟩
    exact gate_of_ordinary trivial
  have unmade : executors own = [] := by cases ends <;> rfl
  have policy_eq : listed.scratch.policy = cycle.scratch.policy := by cases ends <;> rfl
  have prepared := prepared.change ends.change unmade policy_eq
  refine keeps_cons_of_any_end does_ensureJobConfiguration ?_ fun own verdict _ ends go => ?_
  · rintro own r ⟨secret, -, asks⟩
    exact gate_of_ordinary asks.ordinary
  cases ends with
  | brought h ends =>
    have same : Change settings listed own listed := .kept
    exact keeps_stages (prepared.change same (executors_of_secret ends) rfl)
  | _ => cases go

theorem keeps_provisioning {name : String} (metadata_eq : cycle.resource.metadata = c.metadata)
    (spec_eq : cycle.resource.spec = c.spec) :
    Keeps (Gate c) (fun _ _ _ => True) (observeSteps name (provisioningSteps settings) cycle)
      [] := by
  refine keeps_cons_of_any_end does_ensureFinalizer ?_ fun own verdict _ held go => ?_
  · rintro own r ⟨_, ns, rfl⟩
    exact gate_of_ordinary trivial
  cases held with
  | held finalizer => ?_
  | _ => cases go
  refine keeps_cons_of_any_end does_ensureNoPreviousGeneration (fun _ _ => False.elim) ?_
  rintro _ _ current ⟨rfl, rfl, rfl⟩ -
  refine keeps_cons_of_any_end does_ensureProviderReady ?_ fun own verdict provided ends go => ?_
  · rintro own r rfl
    exact gate_of_ordinary trivial
  cases ends with
  | @ready p now ready => ?_
  | _ => cases go
  refine keeps_cons_of_any_end does_ensurePolicies ?_ fun own verdict selected ends go => ?_
  · rintro own r rfl
    exact gate_of_ordinary trivial
  cases ends with
  | @selected policies => ?_
  | failed => cases go
  refine keeps_inputs
    { metadata_eq := (metadata_markAt (c := current)).trans metadata_eq
      spec_eq := (spec_markAt (c := current)).trans spec_eq
      unmade := rfl
      finalizer := metadata_eq ▸ finalizer
      provider := ⟨p, by rw [← spec_eq]; simp, ready⟩
      policies := ⟨policies, by simp, ?_⟩ }
  rw [← metadata_eq]
  exact congrArg (fun m => policies.find? (·.applies m.labels)) (metadata_markAt (c := current))

variable {failures : Failures} {run : List (Answered (Supervised ConfigurationStore))}
  {rest : Supervision (Outcome Action × Failures)}

/-- Every executor passes the gate. -/
theorem safe_of_live (live : c.metadata.isDeleting = false) :
    (observe settings c failures).Safe Supervised.notedCalls
      (Supervised.Allowed fun past cycle r => r.suspends → Gate c past cycle r) (fun _ _ => True)
      [] := by
  have steps : ∀ name now, Keeps (Gate c) (fun _ _ _ => True)
      (observeSteps name (stepsFor settings c.metadata.isDeleting) (openCycle c now)) [] := by
    intro name now
    rw [live]
    exact keeps_provisioning rfl rfl
  exact safe_observe steps (fun _ _ _ _ _ _ asks => gate_of_ne asks.ne_createJob)
    fun _ _ _ _ deleting => absurd (live.symm.trans deleting) Bool.false_ne_true

theorem executors_of_gate {cycle : ConfigurationCycle} {call : StoreCall ConfigurationStore}
    (gate : Gate c past cycle (.store call.request)) :
    executors [call] = [] ∨ executors past = [] ∧ (executors [call]).length = 1 := by
  obtain ⟨request, answer⟩ := call
  cases request with
  | createJob job =>
    cases executes : job.isExecutor with
    | true =>
      have made : executors [⟨.createJob job, answer⟩] = [job] :=
        List.filter_cons_of_pos executes
      exact .inr ⟨(gate job rfl executes).1, by rw [made]; rfl⟩
    | false => exact .inl (List.filter_cons_of_neg (by simp [executes]))
  | _ => exact .inl rfl

/-- Whatever a cycle of a configuration that is not being deleted is answered, and wherever it is
broken off: an executor is created only where its stage is permitted, and at most one is. -/
theorem executors_permitted (reached : (reconcile settings c failures).Reaches run rest)
    (live : c.metadata.isDeleting = false) :
    ∃ journal, IsJournal settings c failures journal ∧ journal.map Answered.bare = run ∧
      (∀ pre e post unit, journal = pre ++ e :: post → e.AsksFor (.store (.createJob unit)) →
        unit.isExecutor = true → ∃ stage, unit.stage? = some stage ∧
          Permitted c (pre.flatMap Supervised.notedCalls) e.note stage) ∧
      (executors (run.flatMap Supervised.calls)).length ≤ 1 := by
  obtain ⟨journal, ⟨rest', observed⟩, bare⟩ := exists_journal reached
  have safe : (observe settings c failures).Safe _ _ _ [] := safe_of_live live
  refine ⟨journal, ⟨rest', observed⟩, bare, ?_, ?_⟩
  · intro pre e post unit parts asks executes
    have allowed := (safe.asked observed parts).of_asksFor asks rfl
    exact (allowed unit rfl executes).2
  · rw [← bare, Program.flatMap_bare]
    refine safe.invariant (fun past => (executors past).length ≤ 1) observed (by decide) ?_
    intro past e most allowed
    rcases Supervised.notedCalls_eq e with none | ⟨call, shown, asks⟩
    · rw [none, List.append_nil]
      exact most
    · rw [shown, executors_append]
      rcases executors_of_gate (allowed.of_asksFor asks rfl) with idle | ⟨first, one⟩
      · rw [idle, List.append_nil]
        exact most
      · rw [first, List.nil_append]
        exact Nat.le_of_eq one

def awaitingApply : Configuration :=
  sample [holding Configuration.planned 3, holding Configuration.checked 3]

def policed : Steady :=
  { provider := some readyProvider, policies := [{ metadata := {}, constraint := {} }] }

theorem executors_permitted_apply :
    (executors (policed.visit awaitingApply).calls).map Job.stage? =
      [some .apply] ∧
    ∃ journal, IsJournal {} awaitingApply .none journal ∧
      journal.map Answered.bare = (policed.visit awaitingApply).run ∧
      (∀ pre e post unit, journal = pre ++ e :: post → e.AsksFor (.store (.createJob unit)) →
        unit.isExecutor = true → ∃ stage, unit.stage? = some stage ∧
          Permitted awaitingApply (pre.flatMap Supervised.notedCalls) e.note stage) ∧
      (executors (policed.visit awaitingApply).calls).length ≤ 1 := by
  refine ⟨by decide +kernel, ?_⟩
  obtain ⟨rest, reached⟩ := policed.possible_visit awaitingApply
  exact executors_permitted reached rfl

end InfraOperator.Provisioning
