import InfraOperator.Provisioning.Rendering

/-!
# What rendered units carry

A unit tells by its labels which stage and generation of which uid it runs for, and which wish for
a retry it answers; it has its name from the same. The job that follows its logs is told apart by
its component.
-/

set_option autoImplicit false

namespace InfraOperator

theorem lookup_optional {α β : Type} (key k : String) (f : α → β) (value : Option α) :
    (value.map fun v => (key, f v)).toList.reverse.lookup k =
      if k = key then value.map f else none := by
  cases value with
  | none => simp
  | some v =>
    by_cases h : k = key
    · simp [h]
    · have hb : (k == key) = false := by simpa using h
      simp [h]

section unitLabels

variable {stage : Stage} {generation : Int} {retry : Option Instant} {owner : ObjectMeta}

theorem get?_unitLabels (key : String) :
    (unitLabels stage generation retry owner).get? key =
      (if key = Label.ownerNamespace then owner.namespaceName else none).or
        ((if key = Label.ownerName then owner.name else none).or
          ((if key = Label.ownerUid then owner.uid else none).or
            ((if key = Label.retry then retry.map (toString ·.seconds) else none).or
              ([(Label.generation, toString generation), (Label.stage, stage.text),
                (Label.component, Label.executor),
                (Label.managedBy, Label.operator)].lookup key)))) := by
  rw [unitLabels, Dict.get?_ofList]
  simp only [List.reverse_append, List.lookup_append]
  rw [lookup_optional _ _ fun marker : Instant => toString marker.seconds,
    lookup_optional _ _ fun uid => uid, lookup_optional _ _ fun name => name,
    lookup_optional _ _ fun ns => ns]
  simp only [Option.map_id']
  rfl

end unitLabels

def Job.isExecutor (job : Job) : Bool :=
  job.metadata.label? Label.component = some Label.executor

def Job.runsFor (job : Job) (uid : String) (stage : Stage) (generation : Int)
    (retry : Option Int) : Bool :=
  job.isExecutor && job.metadata.label? Label.ownerUid = some uid &&
    job.metadata.label? Label.stage = some stage.text &&
    job.metadata.label? Label.generation = some (toString generation) &&
    job.metadata.label? Label.retry = retry.map toString

def nameFor (uid : String) (stage : Stage) (generation : Int) (retry : Option Int) : String :=
  stage.text ++ "-" ++ compactUid uid ++ "-" ++ toString generation ++
    match retry with
    | some second => "-" ++ toString second
    | none => ""

namespace UnitRequest

variable {r : UnitRequest} {uid account : String}

theorem label?_unitFor (key : String) :
    (r.unitFor uid account).metadata.label? key = r.labels.get? key := rfl

theorem stageLabel_unitFor :
    (r.unitFor uid account).metadata.label? Label.stage = some r.stage.text := by
  rw [label?_unitFor, labels, get?_unitLabels]
  rfl

theorem generationLabel_unitFor :
    (r.unitFor uid account).metadata.label? Label.generation = some (toString r.generation) := by
  rw [label?_unitFor, labels, get?_unitLabels]
  rfl

theorem retryLabel_unitFor : (r.unitFor uid account).metadata.label? Label.retry =
    r.retry.map (toString ·.seconds) := by
  rw [label?_unitFor, labels, get?_unitLabels]
  exact Option.or_none

theorem stage?_unitFor : (r.unitFor uid account).stage? = some r.stage := by
  rw [Job.stage?, stageLabel_unitFor]
  exact Stage.ofText?_text r.stage

/-- What a unit runs for tells its name. -/
theorem name_of_runsFor {owner : String} {stage : Stage} {generation : Int} {retry : Option Int}
    (h : (r.unitFor uid account).runsFor owner stage generation retry = true) :
    (r.unitFor uid account).metadata.name = some (nameFor uid stage generation retry) := by
  simp only [Job.runsFor, Bool.and_eq_true, decide_eq_true_eq, stageLabel_unitFor,
    generationLabel_unitFor, retryLabel_unitFor, Option.some.injEq] at h
  obtain ⟨⟨⟨-, staged⟩, numbered⟩, retried⟩ := h
  change some (unitName r.stage uid r.generation r.retry) = _
  unfold unitName nameFor
  rw [staged, numbered]
  cases wished : r.retry with
  | none =>
    rw [wished] at retried
    cases retry with
    | none => rfl
    | some second => cases retried
  | some marker =>
    rw [wished] at retried
    cases retry with
    | none => cases retried
    | some second =>
      have same : toString marker.seconds = toString second := Option.some.inj retried
      simp only [same]

theorem exists_of_renderUnit {unit : Job} (h : r.renderUnit = .ok unit) :
    ∃ uid account, r.configuration.metadata.uid = some uid ∧ unit = r.unitFor uid account := by
  unfold renderUnit UnitRequest.uid at h
  cases owner : r.configuration.metadata.uid with
  | none =>
    rw [owner] at h
    cases h
  | some uid =>
    rw [owner] at h
    cases served : r.serviceAccount with
    | error e =>
      rw [served] at h
      cases h
    | ok account =>
      rw [served] at h
      cases h
      exact ⟨uid, account, rfl, rfl⟩

theorem exists_of_renderWatcher {unit watcher : Job} (h : r.renderWatcher unit = .ok watcher) :
    ∃ uid ns name, r.configuration.metadata.uid = some uid ∧
      r.configuration.metadata.namespaceName = some ns ∧ watcher = r.watcherFor uid ns name := by
  unfold renderWatcher UnitRequest.uid at h
  cases owner : r.configuration.metadata.uid with
  | none =>
    rw [owner] at h
    cases h
  | some uid =>
    rw [owner] at h
    cases home : r.configuration.metadata.namespaceName with
    | none =>
      rw [home] at h
      cases h
    | some ns =>
      rw [home] at h
      cases named : unit.metadata.name with
      | none =>
        rw [named] at h
        cases h
      | some name =>
        rw [named] at h
        cases h
        exact ⟨uid, ns, name, rfl, rfl, rfl⟩

theorem isExecutor_of_renderWatcher {unit watcher : Job} (h : r.renderWatcher unit = .ok watcher) :
    watcher.isExecutor = false := by
  obtain ⟨uid, ns, name, -, -, rfl⟩ := exists_of_renderWatcher h
  simp only [Job.isExecutor, watcherFor, watcherLabels, ObjectMeta.label?, Option.getD_some,
    Dict.get?_ofList]
  rfl

end UnitRequest

end InfraOperator
