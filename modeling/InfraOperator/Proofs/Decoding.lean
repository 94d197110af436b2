import InfraOperator.Proofs.Records
import InfraOperator.Resource.Plan
import InfraOperator.Resource.Policy
import InfraOperator.Resource.Provider
import InfraOperator.Resource.Revision

/-!
# Decoding is stable

Whatever the spec and the status of a resource were read from, what is written of them is read as
the same spec and the same status (`Kind.decoding_stable`): fields nobody knows, nulls, defaults,
fields that are left out, records in the form of arrays, variables that are given twice and times
of other zones are gone after one pass. This holds for values of JSON, and through a text if none
of the variables has a double in it.
-/

set_option autoImplicit false

namespace InfraOperator

/-! ## Specs and statuses -/

theorem PlanEntry.settles : Settles 1 PlanEntry.read PlanEntry.toJson := by
  intro d e h
  simp only [read, bind, Option.bind_eq_some_iff, pure, Option.some.injEq] at h
  obtain ⟨fields, -, name, readName, version, readVersion, rfl⟩ := h
  have name := Settles.text.required readName
  have version := Settles.text.required readVersion
  refine ⟨?_, Json.object_ne_null _, Json.legible_object (by decide) ?_⟩
  · simp only [read, bind, Option.bind_eq_some_iff, pure]
    refine ⟨_, Fields.record_object _ _, _, name.required ?_, _, version.required ?_, rfl⟩
    all_goals simp [Write.text]
  · exact ⟨name.legible, version.legible, trivial⟩

theorem SecretRef.settles : Settles 1 SecretRef.read SecretRef.toJson := by
  intro d s h
  simp only [read, bind, Option.bind_eq_some_iff, pure, Option.some.injEq] at h
  obtain ⟨fields, -, name, readName, space, readSpace, rfl⟩ := h
  have name := Settles.text.required readName
  have space := Settles.text.optional readSpace
  refine ⟨?_, Json.object_ne_null _, Json.legible_object (by decide) ?_⟩
  · simp only [read, bind, Option.bind_eq_some_iff, pure]
    refine ⟨_, Fields.record_object _ _, _, name.required ?_, _, Settled.optional space ?_, rfl⟩
    all_goals simp [Write.text]
  · exact .append ⟨name.legible, trivial⟩ (.field fun s hs => (space s hs).legible)

namespace Condition

theorem settles : Settles 1 read toJson := by
  intro d c h
  simp only [read, bind, Option.bind_eq_some_iff, pure, Option.some.injEq] at h
  obtain ⟨fields, -, type, readType, status, readStatus, reason, readReason, message, readMessage,
    generation, readGeneration, time, readTime, rfl⟩ := h
  have type := Settles.text.required readType
  have status := (Settles.tag ConditionStatus.ofText?_text).required readStatus
  have reason := (Settles.tag ConditionReason.ofText?_text).required readReason
  have message := Settles.text.defaulting ⟨.str "", rfl⟩ readMessage
  have generation :=
    (Settles.int (by decide) (by decide)).defaulting ⟨.int 0, rfl⟩ readGeneration
  have time := Settles.instant.required readTime
  refine ⟨?_, Json.object_ne_null _, Json.legible_object (by decide) ?_⟩
  · simp only [read, bind, Option.bind_eq_some_iff, pure]
    refine ⟨_, Fields.record_object _ _, _, type.required ?_, _, status.required ?_, _,
      reason.required ?_, _, message.defaulting ?_, _, generation.defaulting ?_, _,
      time.required ?_, rfl⟩
    all_goals simp [Write.text, Write.int]
  · exact ⟨time.legible, message.legible, generation.legible, reason.legible, status.legible,
      type.legible, trivial⟩

theorem statusSettles : Settles 3 readStatus statusJson :=
  settles.list.fieldOr "conditions" ⟨.arr [], rfl⟩

end Condition

namespace ConfigurationStatus

theorem settles : Settles 3 read toJson := by
  intro d s h
  simp only [read, bind, Option.bind_eq_some_iff, pure, Option.some.injEq] at h
  obtain ⟨fields, -, conditions, readConditions, resources, readResources, rfl⟩ := h
  have conditions := Condition.settles.list.defaulting ⟨.arr [], rfl⟩ readConditions
  have resources := (Settles.nat (by decide) (by decide)).optional readResources
  refine ⟨?_, Json.object_ne_null _, Json.legible_object (by decide) ?_⟩
  · simp only [read, bind, Option.bind_eq_some_iff, pure]
    refine ⟨_, Fields.record_object _ _, _, conditions.defaulting ?_, _,
      Settled.optional resources ?_, rfl⟩
    all_goals simp
  · exact .append ⟨conditions.legible, trivial⟩
      (.field fun n hn => (resources n hn).legible.mono (by decide))

end ConfigurationStatus

namespace ProviderSpec

theorem settles : Settles 2 read toJson := by
  intro d s h
  simp only [read, bind, Option.bind_eq_some_iff, pure, Option.some.injEq] at h
  obtain ⟨fields, -, provider, readProvider, source, readSource, secret, readSecret, account,
    readAccount, rfl⟩ := h
  have provider := (Settles.tag ProviderType.ofText?_text).required readProvider
  have source :=
    (Settles.tag CredentialSource.ofText?_text).defaulting ⟨.str "Secret", rfl⟩ readSource
  have secret := SecretRef.settles.optional readSecret
  have account := Settles.text.optional readAccount
  refine ⟨?_, Json.object_ne_null _, Json.legible_object (by decide) ?_⟩
  · simp only [read, bind, Option.bind_eq_some_iff, pure]
    refine ⟨_, Fields.record_object _ _, _, provider.required ?_, _, source.defaulting ?_, _,
      Settled.optional secret ?_, _, Settled.optional account ?_, rfl⟩
    all_goals simp
  · exact .append (.append (.append ⟨provider.legible.mono (by decide), trivial⟩
      (.field fun s hs => (secret s hs).legible))
      (.field fun a ha => (account a ha).legible.mono (by decide)))
      ⟨source.legible.mono (by decide), trivial⟩

end ProviderSpec

theorem CheckConstraint.settles : Settles 2 CheckConstraint.read CheckConstraint.toJson := by
  intro d c h
  simp only [read, bind, Option.bind_eq_some_iff, pure, Option.some.injEq] at h
  obtain ⟨fields, -, checks, readChecks, skipped, readSkipped, selector, readSelector, rfl⟩ := h
  have checks' := Settles.text.list.defaulting ⟨.arr [], rfl⟩ readChecks
  have skipped' := Settles.text.list.defaulting ⟨.arr [], rfl⟩ readSkipped
  have selector' := Settles.labels.defaulting ⟨.obj [], rfl⟩ readSelector
  have eq_empty : selector.isEmpty = true → selector = ∅ := by
    intro h
    obtain ⟨entries, ascend⟩ := selector
    obtain rfl := List.isEmpty_iff.1 h
    rfl
  refine ⟨?_, Json.object_ne_null _, Json.legible_object (by decide) ?_⟩
  · simp only [read, bind, Option.bind_eq_some_iff, pure]
    refine ⟨_, Fields.record_object _ _, _, checks'.unless ?_ List.isEmpty_iff.1, _,
      skipped'.unless ?_ List.isEmpty_iff.1, _, selector'.unless ?_ eq_empty, rfl⟩
    all_goals simp [Write.texts]
  · exact .append (.append (.ite ⟨checks'.legible, trivial⟩) (.ite ⟨selector'.legible, trivial⟩))
      (.ite ⟨skipped'.legible, trivial⟩)

theorem Policy.specSettles : Settles 3 Policy.readSpec Policy.specJson :=
  CheckConstraint.settles.field "constraint"

namespace Plan

theorem specSettles : Settles 3 readSpec specJson :=
  PlanEntry.settles.list.fieldOr "revisions" ⟨.arr [], rfl⟩

theorem statusSettles : Settles 2 readStatus statusJson := by
  intro d latest h
  simp only [readStatus, bind, Option.bind_eq_some_iff] at h
  obtain ⟨fields, -, h⟩ := h
  have latest := PlanEntry.settles.optional h
  refine ⟨?_, Json.object_ne_null _, Json.legible_object (by decide) ?_⟩
  · simp only [readStatus, bind, Option.bind_eq_some_iff]
    exact ⟨_, Fields.record_object _ _, Settled.optional latest (by simp)⟩
  · exact .field fun e he => (latest e he).legible

end Plan

theorem RevisionStatus.settles : Settles 3 RevisionStatus.read RevisionStatus.toJson := by
  intro d s h
  simp only [read, bind, Option.bind_eq_some_iff, pure, Option.some.injEq] at h
  obtain ⟨fields, -, conditions, readConditions, inUse, readInUse, rfl⟩ := h
  have conditions := Condition.settles.list.defaulting ⟨.arr [], rfl⟩ readConditions
  have inUse := (Settles.nat (by decide) (by decide)).defaulting ⟨.int 0, rfl⟩ readInUse
  refine ⟨?_, Json.object_ne_null _, Json.legible_object (by decide) ?_⟩
  · simp only [read, bind, Option.bind_eq_some_iff, pure]
    refine ⟨_, Fields.record_object _ _, _, conditions.defaulting ?_, _, inUse.defaulting ?_, rfl⟩
    all_goals simp [Write.nat]
  · exact ⟨conditions.legible, inUse.legible.mono (by decide), trivial⟩

namespace CloudResource

def planJson (s : String × String) : Json := .object [("name", .str s.1), ("revision", .str s.2)]

def specJson (s : String × String) : Json := .object [("plan", planJson s)]

theorem planSettles : Settles 1 readPlan planJson := by
  intro d s h
  simp only [readPlan, bind, Option.bind_eq_some_iff, pure, Option.some.injEq] at h
  obtain ⟨fields, -, name, readName, version, readVersion, rfl⟩ := h
  have name := Settles.text.required readName
  have version := Settles.text.required readVersion
  refine ⟨?_, Json.object_ne_null _, Json.legible_object (by decide) ?_⟩
  · simp only [readPlan, bind, Option.bind_eq_some_iff, pure]
    refine ⟨_, Fields.record_object _ _, _, name.required ?_, _, version.required ?_, rfl⟩
    all_goals simp [Write.text]
  · exact ⟨name.legible, version.legible, trivial⟩

theorem specSettles : Settles 2 readSpec specJson :=
  planSettles.field "plan"

end CloudResource

namespace ConfigurationSpec

theorem providerSettles : Settles 1 readProvider fun name => .object [("name", .str name)] :=
  Settles.text.field "name"

/-- Variables are any value, but a null is read as none, and so those that are there are no null. -/
theorem again_inputs {fields : Fields} {inputs : Option Json} {entries : List (String × Json)}
    (h : fields.optional "variables" Read.value = some inputs)
    (found : Json.fieldOf? entries "variables" = inputs.map id) :
    (Fields.written entries).optional "variables" Read.value = some inputs := by
  cases inputs with
  | none => exact Fields.optional_not_written found
  | some j =>
    obtain ⟨d, -, present, value⟩ := Fields.exists_of_optional h
    have kept := Document.value?_ofJson value
    have present : j ≠ .null := by
      rintro rfl
      exact present (Document.eq_null_of_value? value)
    rw [Fields.optional_written found present]
    exact congrArg (Option.map some) kept

theorem again {d : Document} {s : ConfigurationSpec} (h : read d = some s) :
    read (.ofJson s.toJson) = some s := by
  simp only [read, bind, Option.bind_eq_some_iff, pure, Option.some.injEq] at h
  obtain ⟨fields, -, module, readModule, provider, readProvider, inputs, readInputs,
    secret, readSecret, approval, readApproval, drift, readDrift, version, readVersion, rfl⟩ := h
  have module := Settles.text.required readModule
  have provider := providerSettles.required readProvider
  have secret := SecretRef.settles.optional readSecret
  have approval := Settles.bool.defaulting ⟨.bool false, rfl⟩ readApproval
  have drift := Settles.bool.defaulting ⟨.bool false, rfl⟩ readDrift
  have version := Settles.text.optional readVersion
  simp only [read, bind, Option.bind_eq_some_iff, pure]
  refine ⟨_, Fields.record_object _ _, _, module.required ?_, _, provider.required ?_, _,
    again_inputs readInputs ?_, _, Settled.optional secret ?_, _, approval.defaulting ?_, _,
    drift.defaulting ?_, _, Settled.optional version ?_, rfl⟩
  all_goals simp [Write.text, Write.bool]

/-- The variables nest as deep as they did, and everything else is not deep. -/
theorem legible_toJson {d : Document} {s : ConfigurationSpec} {depth : Nat}
    (h : read d = some s) (legible : d.Legible depth) (deep : 2 ≤ depth)
    (integral : ∀ v ∈ s.inputs, v.Integral) : s.toJson.Legible depth := by
  simp only [read, bind, Option.bind_eq_some_iff, pure, Option.some.injEq] at h
  obtain ⟨fields, record, module, -, provider, readProvider, inputs, readInputs,
    secret, readSecret, approval, -, drift, -, version, -, rfl⟩ := h
  have provider := providerSettles.required readProvider
  have secrets := SecretRef.settles.optional readSecret
  have inputs : ∀ v ∈ inputs, v.Legible (depth - 1) := by
    rintro v rfl
    obtain ⟨e, there, -, value⟩ := Fields.exists_of_optional readInputs
    exact Document.legible_of_value? (Fields.legible_named record legible there) value
      (integral v rfl)
  have secrets : ∀ r ∈ secret, r.toJson.Legible (depth - 1) :=
    fun r hr => (secrets r hr).legible.mono (by omega)
  exact Json.legible_object (by omega) (.append (.append (.append
    ⟨trivial, trivial, trivial, provider.legible.mono (by omega), trivial⟩
    (.field fun _ _ => trivial)) (.field inputs)) (.field secrets))

end ConfigurationSpec

namespace RevisionSpec

def planJson (plan : String × String × Option String) : Json :=
  .object <| Json.field "description" Write.text plan.2.2 ++
    [("name", .str plan.1), ("revision", .str plan.2.1)]

theorem planSettles : Settles 1 readPlan planJson := by
  intro d s h
  simp only [readPlan, bind, Option.bind_eq_some_iff, pure, Option.some.injEq] at h
  obtain ⟨fields, -, name, readName, version, readVersion, description, readDescription, rfl⟩ := h
  have name := Settles.text.required readName
  have version := Settles.text.required readVersion
  have description := Settles.text.optional readDescription
  refine ⟨?_, Json.object_ne_null _, Json.legible_object (by decide) ?_⟩
  · simp only [readPlan, bind, Option.bind_eq_some_iff, pure]
    refine ⟨_, Fields.record_object _ _, _, name.required ?_, _, version.required ?_, _,
      Settled.optional description ?_, rfl⟩
    all_goals simp [Write.text]
  · exact .append (.field fun t ht => (description t ht).legible)
      ⟨name.legible, version.legible, trivial⟩

theorem again {d : Document} {s : RevisionSpec} (h : read d = some s) :
    read (.ofJson s.toJson) = some s := by
  simp only [read, bind, Option.bind_eq_some_iff, pure, Option.some.injEq] at h
  obtain ⟨fields, -, plan, readPlan, configuration, readConfiguration, rfl⟩ := h
  have plan := planSettles.required readPlan
  obtain ⟨e, -, readConfiguration⟩ := Fields.exists_of_required readConfiguration
  have configuration := ConfigurationSpec.again readConfiguration
  simp only [read, bind, Option.bind_eq_some_iff, pure]
  refine ⟨_, Fields.record_object _ _, _, plan.required ?_, _,
    (Fields.required_written ?_).trans configuration, rfl⟩
  all_goals simp [planJson]

theorem legible_toJson {d : Document} {s : RevisionSpec} {depth : Nat}
    (h : read d = some s) (legible : d.Legible depth) (deep : 3 ≤ depth)
    (integral : ∀ v ∈ s.configuration.inputs, v.Integral) : s.toJson.Legible depth := by
  simp only [read, bind, Option.bind_eq_some_iff, pure, Option.some.injEq] at h
  obtain ⟨fields, record, plan, readPlan, configuration, readConfiguration, rfl⟩ := h
  have plan := planSettles.required readPlan
  obtain ⟨e, there, readConfiguration⟩ := Fields.exists_of_required readConfiguration
  have configuration := ConfigurationSpec.legible_toJson readConfiguration
    (Fields.legible_named record legible there) (by omega) integral
  exact Json.legible_object (by omega) ⟨configuration, plan.legible.mono (by omega), trivial⟩

end RevisionSpec

/-! ## Whole resources -/

structure ReadFrom {σ τ : Type} (d : Document) (readSpec : Reader σ) (spec : σ)
    (readStatus : Reader τ) (status : Option τ) : Prop where
  spec : ∃ names fields, Read.record names d = some fields ∧
    fields.required "spec" readSpec = some spec
  status : ∀ s ∈ status, ∃ e, readStatus e = some s

theorem ReadFrom.of_readObject {σ τ : Type} {d : Document} {readSpec : Reader σ} {spec : σ}
    {readStatus : Reader τ} {status : Option τ} {fields : Fields}
    (object : readObject d = some fields) (specRead : fields.required "spec" readSpec = some spec)
    (statusRead : fields.optional "status" readStatus = some status) :
    ReadFrom d readSpec spec readStatus status where
  spec := by
    unfold readObject at object
    split at object
    · split at object
      · exact ⟨_, _, object, specRead⟩
      · cases object
    · exact ⟨_, _, object, specRead⟩
  status := by
    rintro s rfl
    obtain ⟨e, -, -, reads⟩ := Fields.exists_of_optional statusRead
    exact ⟨e, reads⟩

section Parts

variable {d : Document}

theorem Configuration.readFrom {c : Configuration} (h : read d = some c) :
    ReadFrom d ConfigurationSpec.read c.spec ConfigurationStatus.read c.status := by
  simp only [read, bind, Option.bind_eq_some_iff, pure, Option.some.injEq] at h
  obtain ⟨fields, object, metadata, -, spec, readSpec, status, readStatus, rfl⟩ := h
  exact .of_readObject object readSpec readStatus

theorem Provider.readFrom {p : Provider} (h : read d = some p) :
    ReadFrom d ProviderSpec.read p.spec Condition.readStatus p.status := by
  simp only [read, bind, Option.bind_eq_some_iff, pure, Option.some.injEq] at h
  obtain ⟨fields, object, metadata, -, spec, readSpec, status, readStatus, rfl⟩ := h
  exact .of_readObject object readSpec readStatus

theorem Policy.readFrom {p : Policy} (h : read d = some p) {readStatus : Reader Empty} :
    ReadFrom d readSpec p.constraint readStatus none := by
  simp only [read, bind, Option.bind_eq_some_iff, pure, Option.some.injEq] at h
  obtain ⟨fields, record, metadata, -, constraint, spec, rfl⟩ := h
  exact ⟨⟨_, fields, record, spec⟩, fun _ h => absurd h (Option.not_mem_none _)⟩

theorem Plan.readFrom {p : Plan} (h : read d = some p) :
    ReadFrom d readSpec p.revisions readStatus p.status := by
  simp only [read, bind, Option.bind_eq_some_iff, pure, Option.some.injEq] at h
  obtain ⟨fields, object, metadata, -, spec, readSpec, status, readStatus, rfl⟩ := h
  exact .of_readObject object readSpec readStatus

theorem Revision.readFrom {r : Revision} (h : read d = some r) :
    ReadFrom d RevisionSpec.read r.spec RevisionStatus.read r.status := by
  simp only [read, bind, Option.bind_eq_some_iff, pure, Option.some.injEq] at h
  obtain ⟨fields, object, metadata, -, spec, readSpec, status, readStatus, rfl⟩ := h
  exact .of_readObject object readSpec readStatus

theorem CloudResource.readFrom {c : CloudResource} (h : read d = some c) :
    ReadFrom d readSpec (c.planName, c.version) Condition.readStatus c.status := by
  simp only [read, bind, Option.bind_eq_some_iff, pure, Option.some.injEq] at h
  obtain ⟨fields, object, metadata, -, spec, readSpec, status, readStatus, rfl⟩ := h
  exact .of_readObject object readSpec readStatus

end Parts

/-- A kind of resource by what it holds besides its metadata, and how that is read and written. -/
structure Kind where
  Object : Type
  Spec : Type
  Status : Type
  name : String
  read : Reader Object
  toJson : Object → Json
  metadata : Object → ObjectMeta
  spec : Object → Spec
  status : Object → Option Status
  readSpec : Reader Spec
  specJson : Spec → Json
  readStatus : Reader Status
  statusJson : Status → Json
  /-- The variables of a module that the spec gives, which are any value. -/
  inputs : Spec → Option Json := fun _ => none
  toJson_eq : ∀ x, toJson x =
    writeObject name (metadata x) (specJson (spec x)) ((status x).map statusJson)

namespace Kind

def configuration : Kind where
  Object := Configuration
  Spec := ConfigurationSpec
  Status := ConfigurationStatus
  name := Configuration.kindName
  read := Configuration.read
  toJson := Configuration.toJson
  metadata := Configuration.metadata
  spec := Configuration.spec
  status := Configuration.status
  readSpec := ConfigurationSpec.read
  specJson := ConfigurationSpec.toJson
  readStatus := ConfigurationStatus.read
  statusJson := ConfigurationStatus.toJson
  inputs := ConfigurationSpec.inputs
  toJson_eq _ := rfl

def provider : Kind where
  Object := Provider
  Spec := ProviderSpec
  Status := List Condition
  name := Provider.kindName
  read := Provider.read
  toJson := Provider.toJson
  metadata := Provider.metadata
  spec := Provider.spec
  status := Provider.status
  readSpec := ProviderSpec.read
  specJson := ProviderSpec.toJson
  readStatus := Condition.readStatus
  statusJson := Condition.statusJson
  toJson_eq _ := rfl

def policy : Kind where
  Object := Policy
  Spec := CheckConstraint
  Status := Empty
  name := Policy.kindName
  read := Policy.read
  toJson := Policy.toJson
  metadata := Policy.metadata
  spec := Policy.constraint
  status _ := none
  readSpec := Policy.readSpec
  specJson := Policy.specJson
  readStatus _ := none
  statusJson := nofun
  toJson_eq _ := rfl

def plan : Kind where
  Object := Plan
  Spec := List PlanEntry
  Status := Option PlanEntry
  name := Plan.kindName
  read := Plan.read
  toJson := Plan.toJson
  metadata := Plan.metadata
  spec := Plan.revisions
  status := Plan.status
  readSpec := Plan.readSpec
  specJson := Plan.specJson
  readStatus := Plan.readStatus
  statusJson := Plan.statusJson
  toJson_eq _ := rfl

def revision : Kind where
  Object := Revision
  Spec := RevisionSpec
  Status := RevisionStatus
  name := Revision.kindName
  read := Revision.read
  toJson := Revision.toJson
  metadata := Revision.metadata
  spec := Revision.spec
  status := Revision.status
  readSpec := RevisionSpec.read
  specJson := RevisionSpec.toJson
  readStatus := RevisionStatus.read
  statusJson := RevisionStatus.toJson
  inputs s := s.configuration.inputs
  toJson_eq _ := rfl

def cloudResource : Kind where
  Object := CloudResource
  Spec := String × String
  Status := List Condition
  name := CloudResource.kindName
  read := CloudResource.read
  toJson := CloudResource.toJson
  metadata := CloudResource.metadata
  spec c := (c.planName, c.version)
  status := CloudResource.status
  readSpec := CloudResource.readSpec
  specJson := CloudResource.specJson
  readStatus := Condition.readStatus
  statusJson := Condition.statusJson
  toJson_eq _ := rfl

def all : List Kind := [configuration, provider, policy, plan, revision, cloudResource]

theorem get?_spec (k : Kind) (x : k.Object) :
    (k.toJson x).get? "spec" = some (k.specJson (k.spec x)) := by
  rw [toJson_eq, writeObject, Json.get?_object]
  simp

theorem get?_status (k : Kind) (x : k.Object) :
    (k.toJson x).get? "status" = (k.status x).map k.statusJson := by
  rw [toJson_eq, writeObject, Json.get?_object]
  simp

/-- What makes decoding a kind stable: the parts of an object are read by themselves, and what is
read of them is read again from what is written of it. -/
structure Stable (k : Kind) : Prop where
  parts : ∀ {d x}, k.read d = some x → ReadFrom d k.readSpec (k.spec x) k.readStatus (k.status x)
  again : ∀ {d s}, k.readSpec d = some s → k.readSpec (.ofJson (k.specJson s)) = some s
  legible : ∀ {d s depth}, k.readSpec d = some s → d.Legible depth → 3 ≤ depth →
    (∀ v ∈ k.inputs s, v.Integral) → (k.specJson s).Legible depth
  status : Settles 3 k.readStatus k.statusJson

theorem Stable.of_settles {k : Kind}
    (parts : ∀ {d x}, k.read d = some x →
      ReadFrom d k.readSpec (k.spec x) k.readStatus (k.status x))
    (spec : Settles 3 k.readSpec k.specJson) (status : Settles 3 k.readStatus k.statusJson) :
    k.Stable where
  parts := parts
  again h := (spec _ _ h).again
  legible h _ deep _ := (spec _ _ h).legible.mono deep
  status := status

theorem configuration_stable : configuration.Stable where
  parts := Configuration.readFrom
  again := ConfigurationSpec.again
  legible h legible deep := ConfigurationSpec.legible_toJson h legible (Nat.le_of_succ_le deep)
  status := ConfigurationStatus.settles

theorem provider_stable : provider.Stable :=
  .of_settles Provider.readFrom (ProviderSpec.settles.mono (by decide)) Condition.statusSettles

theorem policy_stable : policy.Stable :=
  .of_settles (fun h => Policy.readFrom h) Policy.specSettles nofun

theorem plan_stable : plan.Stable :=
  .of_settles Plan.readFrom Plan.specSettles (Plan.statusSettles.mono (by decide))

theorem revision_stable : revision.Stable where
  parts := Revision.readFrom
  again := RevisionSpec.again
  legible := RevisionSpec.legible_toJson
  status := RevisionStatus.settles

theorem cloudResource_stable : cloudResource.Stable :=
  .of_settles CloudResource.readFrom (CloudResource.specSettles.mono (by decide))
    Condition.statusSettles

theorem stable_of_mem : ∀ k ∈ all, k.Stable := by
  simp only [all, List.forall_mem_cons]
  exact ⟨configuration_stable, provider_stable, policy_stable, plan_stable, revision_stable,
    cloudResource_stable, List.forall_mem_nil _⟩

def viaValue (j : Json) : Option Document := some (.ofJson j)

def viaText (j : Json) : Option Document := Document.parse? j.compact

/-- Written, carried as said and read again, a value is what it was, and so is what is written of
it. -/
def Restores {α : Type} (carry : Json → Option Document) (read : Reader α) (write : α → Json)
    (a : α) : Prop :=
  ∃ b, (carry (write a)).bind read = some b ∧ b = a ∧ write b = write a

/-- Of a resource that was read, the spec and the status are restored from what is written of them,
as values, and as texts if the resource was read from a text and no variable has a double in it. -/
theorem decoding_stable {k : Kind} (known : k ∈ all) {d : Document} {x : k.Object}
    (h : k.read d = some x) :
    (Restores viaValue k.readSpec k.specJson (k.spec x) ∧
      ∀ s ∈ k.status x, Restores viaValue k.readStatus k.statusJson s) ∧
    ∀ text, Document.parse? text = some d → (∀ v ∈ k.inputs (k.spec x), v.Integral) →
      Restores viaText k.readSpec k.specJson (k.spec x) ∧
        ∀ s ∈ k.status x, Restores viaText k.readStatus k.statusJson s := by
  have stable := stable_of_mem k known
  have parts := stable.parts h
  obtain ⟨names, fields, record, specRead⟩ := parts.spec
  obtain ⟨e, there, specRead⟩ := Fields.exists_of_required specRead
  have status : ∀ s ∈ k.status x, Settled 3 k.readStatus k.statusJson s := by
    intro s hs
    obtain ⟨e, reads⟩ := parts.status s hs
    exact stable.status _ _ reads
  refine ⟨⟨⟨_, stable.again specRead, rfl, rfl⟩,
    fun s hs => ⟨_, (status s hs).again, rfl, rfl⟩⟩, ?_⟩
  intro text read integral
  have legible := Fields.legible_named record (Document.legible_of_parse? read) there
  have spec := stable.legible specRead legible (by decide) integral
  refine ⟨⟨_, ?_, rfl, rfl⟩, fun s hs => ⟨_, ?_, rfl, rfl⟩⟩
  · rw [viaText, Json.parse?_compact (spec.mono (by decide))]
    exact stable.again specRead
  · rw [viaText, Json.parse?_compact ((status s hs).legible.mono (by decide))]
    exact (status s hs).again

/-- A configuration with a field nobody knows, the array of a record, a null for a secret, variables
of which one is given twice, and a condition of elsewhere that lacks what has a default. -/
def sampleText : String :=
  "\x7b\"metadata\":\x7b\x7d,\"spec\":\x7b\"module\":\"m\",\"providerRef\":[\"aws\"],\"x\":0," ++
  "\"writeConnectionSecretToRef\":null,\"variables\":\x7b\"b\":1,\"a\":\x7b\"c\":null\x7d," ++
  "\"b\":[-3]\x7d\x7d,\"status\":\x7b\"conditions\":[\x7b\"type\":\"Ready\",\"status\":\"True\"," ++
  "\"reason\":\"Ready\",\"lastTransitionTime\":\"2024-01-02T03:04:05.5+02:00\"\x7d]\x7d\x7d"

def sample : Configuration where
  metadata := {}
  spec := {
    module := "m"
    providerName := "aws"
    inputs := some (.obj [("a", .obj [("c", .null)]), ("b", .arr [.int (-3)])]) }
  status := some {
    conditions := [⟨"Ready", .true, .ready, "", 0, ⟨1704157445, 500000000⟩⟩] }

theorem toList_eq {text : String} {cs : List Char} (written : text = String.ofList cs) :
    text.toList = cs := by
  rw [written, String.toList_ofList]

theorem toList_append_eq {a b : String} {as bs : List Char} (first : a.toList = as)
    (second : b.toList = bs) : (a ++ b).toList = as ++ bs := by
  rw [String.toList_append, first, second]

theorem read_sample : (Document.parse? sampleText).bind Configuration.read = some sample := by
  -- The kernel is slow to decode a literal, but knows at once which characters it was made of.
  rw [Document.parse?_eq sampleText (toList_append_eq (toList_append_eq (toList_append_eq
    (toList_eq rfl) (toList_eq rfl)) (toList_eq rfl)) (toList_eq rfl))]
  decide +kernel

theorem decoding_stable_sample :
    (Document.parse? sampleText).bind Configuration.read = some sample ∧
    Restores viaText ConfigurationSpec.read ConfigurationSpec.toJson sample.spec ∧
    ∀ s ∈ sample.status,
      Restores viaText ConfigurationStatus.read ConfigurationStatus.toJson s := by
  obtain ⟨d, parsed, read⟩ := Option.bind_eq_some_iff.1 read_sample
  have integral : ∀ v ∈ sample.spec.inputs, v.Integral := by
    rintro v ⟨⟩
    exact ⟨⟨trivial, trivial⟩, ⟨trivial, trivial⟩, trivial⟩
  have stable := decoding_stable (k := configuration) List.mem_cons_self read
  exact ⟨read_sample, stable.2 _ parsed integral⟩

end Kind

end InfraOperator
