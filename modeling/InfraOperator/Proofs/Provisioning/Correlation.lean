import InfraOperator.Proofs.Filters
import InfraOperator.Proofs.Numerals
import InfraOperator.Proofs.Provisioning.Units

/-!
# Finding units again

A unit that was rendered is found by the filter of a configuration and a stage exactly if it was
rendered for that uid, stage and generation, and answers the wish for a retry if there is one. It
leads back to the configuration it was rendered for; the job that follows its logs is found by no
filter and leads nowhere.
-/

set_option autoImplicit false

namespace InfraOperator

namespace Instant

def InCalendar (i : Instant) : Prop := leastSecond ≤ i.seconds ∧ i.seconds ≤ greatestSecond

theorem InCalendar.holds_seconds {i : Instant} (h : i.InCalendar) :
    Bounds.int64.holds i.seconds = true := by
  obtain ⟨least, greatest⟩ := h
  unfold leastSecond at least
  unfold greatestSecond at greatest
  simp only [Bounds.holds, Bounds.int64, Bool.and_eq_true]
  constructor
  · apply decide_eq_true
    omega
  · apply decide_eq_true
    omega

theorem inCalendar_of_ofSeconds? {seconds : Int} {i : Instant} (h : ofSeconds? seconds = some i) :
    i.InCalendar := by
  unfold ofSeconds? at h
  split at h
  · rename_i reached
    cases h
    exact reached
  · cases h

end Instant

theorem Rfc3339.Fields.inCalendar_of_toInstant? {f : Rfc3339.Fields} {i : Instant}
    (h : f.toInstant? = some i) : i.InCalendar := by
  simp only [Rfc3339.Fields.toInstant?, Option.ite_none_right_eq_some, Option.some.injEq] at h
  obtain ⟨-, reached, rfl⟩ := h
  exact reached

/-- A wish for a retry that reads is a time of the calendar. -/
theorem inCalendar_of_readRetryMarker? {text : String} {marker : Instant}
    (h : readRetryMarker? text = some marker) : marker.InCalendar := by
  unfold readRetryMarker? at h
  cases strict : Rfc3339.readStrict? (Text.trim text.toList) with
  | some instant =>
    simp only [strict] at h
    cases h
    obtain ⟨⟨fields, rest⟩, -, read⟩ := Option.bind_eq_some_iff.1 strict
    dsimp only at read
    split at read
    · exact Rfc3339.Fields.inCalendar_of_toInstant? read
    · cases read
  | none =>
    simp only [strict] at h
    obtain ⟨seconds, -, reached⟩ := Option.bind_eq_some_iff.1 h
    exact Instant.inCalendar_of_ofSeconds? reached

theorem Configuration.inCalendar_of_retryMarker {c : Configuration} {marker : Instant}
    (h : c.retryMarker = some marker) : marker.InCalendar := by
  obtain ⟨text, -, read⟩ := Option.bind_eq_some_iff.1 h
  exact inCalendar_of_readRetryMarker? read

theorem meets_eq_true {α : Type} [DecidableEq α] {found demand : Option α} :
    meets found demand = true ↔ ∀ value, demand = some value → found = some value := by
  cases demand with
  | none => simp [meets]
  | some value => simp [meets]

namespace Configuration

/-- The filter for the units of a stage, as if the configuration were at that generation and wished
for that retry. -/
def unitFilterAt (c : Configuration) (namespaceName uid : String) (stage : Stage)
    (generation : Int) (retry : Option Instant) : UnitFilter :=
  { c.unitFilter namespaceName uid stage with
    generation := some generation
    retry := retry.map (·.seconds) }

theorem unitFilterAt_self (c : Configuration) (namespaceName uid : String) (stage : Stage) :
    c.unitFilterAt namespaceName uid stage (Resource.generation c) c.retryMarker =
      c.unitFilter namespaceName uid stage := rfl

variable {c : Configuration} {namespaceName uid : String} {stage : Stage} {generation : Int}
  {retry : Option Instant} {job : Job}

theorem accepts_unitFilterAt :
    (c.unitFilterAt namespaceName uid stage generation retry).accepts job = true ↔
      job.stage? = some stage ∧ job.generation? = some generation ∧
      job.ownerUid? = some uid ∧ job.metadata.namespaceName = some namespaceName ∧
      ∀ marker, retry = some marker → job.retry? = some marker.seconds := by
  simp only [UnitFilter.accepts, unitFilterAt, unitFilter, Bool.and_eq_true, meets_some]
  have unnamed : meets job.metadata.name none = true := rfl
  have wished : meets job.retry? (retry.map (·.seconds)) = true ↔
      ∀ marker, retry = some marker → job.retry? = some marker.seconds := by
    rw [meets_eq_true]
    cases retry <;> simp
  rw [wished]
  constructor
  · rintro ⟨⟨⟨⟨⟨staged, numbered⟩, owned⟩, home⟩, -⟩, answered⟩
    exact ⟨staged, numbered, owned, home, answered⟩
  · rintro ⟨staged, numbered, owned, home, answered⟩
    exact ⟨⟨⟨⟨⟨staged, numbered⟩, owned⟩, home⟩, unnamed⟩, answered⟩

end Configuration

namespace UnitRequest

variable {r : UnitRequest} {uid account : String}

theorem generation?_unitFor (bounded : Bounds.int64.holds r.generation = true) :
    (r.unitFor uid account).generation? = some r.generation := by
  rw [Job.generation?, Job.readLabel, generationLabel_unitFor]
  exact Text.readInt?_toString bounded

theorem retry?_unitFor (dated : ∀ marker, r.retry = some marker → marker.InCalendar) :
    Job.retry? (r.unitFor uid account) = r.retry.map (·.seconds) := by
  unfold Job.retry?
  rw [Job.readLabel, retryLabel_unitFor]
  cases wished : r.retry with
  | none => rfl
  | some marker => exact Text.readInt?_toString (dated marker wished).holds_seconds

theorem ownerUid?_unitFor (owner : r.configuration.metadata.uid = some uid) :
    (r.unitFor uid account).ownerUid? = some uid := by
  rw [Job.ownerUid?, label?_unitFor, labels, get?_unitLabels, owner]
  rfl

theorem component_unitFor :
    (r.unitFor uid account).metadata.label? Label.component = some Label.executor := by
  rw [label?_unitFor, labels, get?_unitLabels]
  rfl

theorem configuration?_unitFor {name namespaceName : String}
    (named : r.configuration.metadata.name = some name)
    (home : r.configuration.metadata.namespaceName = some namespaceName) :
    (r.unitFor uid account).configuration? = some (name, namespaceName) := by
  have ownerName : (r.unitFor uid account).metadata.label? Label.ownerName = some name := by
    rw [label?_unitFor, labels, get?_unitLabels, named]
    rfl
  have ownerNamespace :
      (r.unitFor uid account).metadata.label? Label.ownerNamespace = some namespaceName := by
    rw [label?_unitFor, labels, get?_unitLabels, home]
    rfl
  rw [Job.configuration?, if_pos component_unitFor, ownerName, ownerNamespace]
  rfl

theorem stage?_watcherFor (uid namespaceName name : String) :
    (r.watcherFor uid namespaceName name).stage? = none := by
  have unlabelled :
      (r.watcherFor uid namespaceName name).metadata.label? Label.stage = none := by
    simp only [watcherFor, watcherLabels, ObjectMeta.label?, Option.getD_some, Dict.get?_ofList]
    rfl
  rw [Job.stage?, unlabelled]
  rfl

/-- A unit is found for what it was rendered for and for nothing else, and leads back to its
configuration; the job that follows its logs is no unit of anything. Generations are numbers of 64
bits, and a wish that reads is a time of the calendar (`Configuration.inCalendar_of_retryMarker`).
-/
theorem accepts_iff_of_renderUnit (r : UnitRequest) (unit : Job)
    (rendered : r.renderUnit = .ok unit)
    (bounded : Bounds.int64.holds r.generation = true)
    (dated : ∀ marker, r.retry = some marker → marker.InCalendar) :
    (∀ (other : Configuration) (uid : String) (stage : Stage) (generation : Int)
        (retry : Option Instant), other.metadata.uid = some uid →
      ((other.unitFilterAt r.settings.namespaceName uid stage generation retry).accepts unit =
          true ↔
        r.configuration.metadata.uid = other.metadata.uid ∧ r.stage = stage ∧
          r.generation = generation ∧
          (retry = none ∨ ∃ marker wish, r.retry = some marker ∧ retry = some wish ∧
            marker.seconds = wish.seconds))) ∧
    (∀ name namespaceName, r.configuration.metadata.name = some name →
      r.configuration.metadata.namespaceName = some namespaceName →
      unit.configuration? = some (name, namespaceName)) ∧
    ∀ (q : UnitRequest) (followed watcher : Job), q.renderWatcher followed = .ok watcher →
      (∀ (other : Configuration) (namespaceName uid : String) (stage : Stage) (generation : Int)
          (retry : Option Instant),
        (other.unitFilterAt namespaceName uid stage generation retry).accepts watcher = false) ∧
      watcher.configuration? = none := by
  obtain ⟨owner, account, owned, rfl⟩ := exists_of_renderUnit rendered
  constructor
  · intro other uid stage generation retry named
    rw [Configuration.accepts_unitFilterAt, stage?_unitFor, generation?_unitFor bounded,
      retry?_unitFor dated, ownerUid?_unitFor owned, owned, named]
    have home : (r.unitFor owner account).metadata.namespaceName =
      some r.settings.namespaceName := rfl
    have answered : (∀ wish, retry = some wish →
        r.retry.map (·.seconds) = some wish.seconds) ↔
        (retry = none ∨ ∃ marker wish, r.retry = some marker ∧ retry = some wish ∧
          marker.seconds = wish.seconds) := by
      cases retry <;> simp
    simp only [answered, Option.some.injEq, home, true_and]
    constructor
    · rintro ⟨staged, numbered, same, wished⟩
      exact ⟨same, staged, numbered, wished⟩
    · rintro ⟨same, staged, numbered, wished⟩
      exact ⟨staged, numbered, same, wished⟩
  constructor
  · intro name namespaceName named home
    exact configuration?_unitFor named home
  · intro q followed watcher watched
    have foreign : watcher.isExecutor = false := isExecutor_of_renderWatcher watched
    obtain ⟨uid, home, name, -, -, rfl⟩ := exists_of_renderWatcher watched
    constructor
    · intro other namespaceName owner stage generation retry
      rw [Bool.eq_false_iff]
      intro accepted
      have staged := (Configuration.accepts_unitFilterAt.1 accepted).1
      rw [stage?_watcherFor] at staged
      cases staged
    · rw [Job.configuration?, if_neg (of_decide_eq_false foreign)]

/-- A request at a negative generation, for a wish from half a second before 1969 ended. -/
def beforeEpoch : UnitRequest :=
  { configuration :=
      { metadata := { name := some "net", namespaceName := some "infra", uid := some "u-1" }
        spec := { module := "m", providerName := "aws" } }
    provider := { metadata := { name := some "aws" }, spec := { provider := .aws } }
    policy := none
    stage := .apply
    generation := -3
    retry := some ⟨-1, 500000000⟩
    settings := {} }

theorem accepts_iff_beforeEpoch :
    let unit := beforeEpoch.unitFor "u-1" Rendering.defaultServiceAccount
    let watcher := beforeEpoch.watcherFor "u-1" "infra"
      (unitName .apply "u-1" (-3) (some ⟨-1, 500000000⟩))
    let filter := beforeEpoch.configuration.unitFilterAt "terrace-system" "u-1" .apply (-3)
    beforeEpoch.renderUnit = .ok unit ∧ beforeEpoch.renderWatcher unit = .ok watcher ∧
      (filter (some ⟨-1, 0⟩)).accepts unit = true ∧ (filter (some ⟨0, 0⟩)).accepts unit = false ∧
      unit.configuration? = some ("net", "infra") ∧
      (filter none).accepts watcher = false ∧ watcher.configuration? = none := by
  intro unit watcher filter
  have rendered : beforeEpoch.renderUnit = .ok unit := rfl
  have watched : beforeEpoch.renderWatcher unit = .ok watcher := rfl
  have dated : ∀ marker, beforeEpoch.retry = some marker → marker.InCalendar := by
    intro marker wished
    cases wished
    exact ⟨by decide, by decide⟩
  obtain ⟨found, back, foreign⟩ :=
    accepts_iff_of_renderUnit beforeEpoch unit rendered (by decide) dated
  have unfound := foreign beforeEpoch unit watcher watched
  refine ⟨rendered, watched, ?_, ?_, back _ _ rfl rfl, unfound.1 _ _ _ _ _ _, unfound.2⟩
  · exact (found beforeEpoch.configuration "u-1" .apply (-3) (some ⟨-1, 0⟩) rfl).2
      ⟨rfl, rfl, rfl, .inr ⟨_, _, rfl, rfl, rfl⟩⟩
  · rw [Bool.eq_false_iff]
    intro accepted
    obtain ⟨-, -, -, none' | ⟨marker, wish, made, wished, same⟩⟩ :=
      (found beforeEpoch.configuration "u-1" .apply (-3) (some ⟨0, 0⟩) rfl).1 accepted
    · cases none'
    · cases made
      cases wished
      cases same

end UnitRequest

end InfraOperator
