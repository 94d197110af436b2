import InfraOperator.Resource.Configuration
import InfraOperator.Version

/-!
# Revisions and cloud resources

A revision is one version of a plan's blueprint. A cloud resource is built from the revision of a
plan that it names, and so keeps it in use.
-/

set_option autoImplicit false

namespace InfraOperator

structure RevisionSpec where
  planName : String
  version : String
  description : Option String := none
  /-- What a consumer of the revision is made from. -/
  configuration : ConfigurationSpec
  deriving DecidableEq

structure RevisionStatus where
  conditions : List Condition := []
  /-- Cloud resources built from the revision. -/
  inUse : Nat := 0
  deriving DecidableEq

structure Revision where
  metadata : ObjectMeta
  spec : RevisionSpec
  status : Option RevisionStatus := none
  deriving DecidableEq

structure CloudResource where
  metadata : ObjectMeta
  planName : String
  version : String
  status : Option (List Condition) := none
  deriving DecidableEq

namespace RevisionSpec

def readPlan (d : Document) : Option (String × String × Option String) := do
  let fields ← Read.record ["name", "revision", "description"] d
  return (← fields.required "name" Read.text, ← fields.required "revision" Read.text,
    ← fields.optional "description" Read.text)

def read (d : Document) : Option RevisionSpec := do
  let fields ← Read.record ["plan", "configuration"] d
  let (planName, version, description) ← fields.required "plan" readPlan
  let configuration ← fields.required "configuration" ConfigurationSpec.read
  return { planName, version, description, configuration }

def toJson (s : RevisionSpec) : Json :=
  .object [
    ("configuration", s.configuration.toJson),
    ("plan", .object <|
      Json.field "description" Write.text s.description ++
      [("name", .str s.planName), ("revision", .str s.version)])]

end RevisionSpec

namespace RevisionStatus

def read (d : Document) : Option RevisionStatus := do
  let fields ← Read.record ["conditions", "inUse"] d
  return {
    conditions := ← fields.defaulting "conditions" (Read.list Condition.read) []
    inUse := ← fields.defaulting "inUse" (Read.nat .nat32) 0 }

def toJson (s : RevisionStatus) : Json :=
  .object [("conditions", Write.list Condition.toJson s.conditions), ("inUse", .int s.inUse)]

end RevisionStatus

namespace Revision

def kindName : String := "Revision"

def read (d : Document) : Option Revision := do
  let fields ← readObject d
  return {
    metadata := ← fields.required "metadata" ObjectMeta.read
    spec := ← fields.required "spec" RevisionSpec.read
    status := ← fields.optional "status" RevisionStatus.read }

def toJson (r : Revision) : Json :=
  writeObject kindName r.metadata r.spec.toJson (r.status.map RevisionStatus.toJson)

def conditions (r : Revision) : List Condition := (r.status.getD {}).conditions

instance : Resource Revision where
  kind := kindName
  metadata r := r.metadata
  withMetadata r m := { r with metadata := m }
  conditions := conditions
  withConditions r conditions := { r with status := some { r.status.getD {} with conditions } }

def name (r : Revision) : String := r.metadata.displayName

def version? (r : Revision) : Option Version := Version.parse? r.spec.version

def listed : String := "PlanReady"

def conditionTypes : List String := [listed, readyCondition]

end Revision

namespace CloudResource

def kindName : String := "CloudResource"

def readPlan (d : Document) : Option (String × String) := do
  let fields ← Read.record ["name", "revision"] d
  return (← fields.required "name" Read.text, ← fields.required "revision" Read.text)

def readSpec (d : Document) : Option (String × String) := do
  (← Read.record ["plan"] d).required "plan" readPlan

def read (d : Document) : Option CloudResource := do
  let fields ← readObject d
  let metadata ← fields.required "metadata" ObjectMeta.read
  let (planName, version) ← fields.required "spec" readSpec
  let status ← fields.optional "status" Condition.readStatus
  return { metadata, planName, version, status }

def toJson (c : CloudResource) : Json :=
  writeObject kindName c.metadata
    (.object [("plan", .object [("name", .str c.planName), ("revision", .str c.version)])])
    (c.status.map Condition.statusJson)

def consumes (c : CloudResource) (planName version : String) : Bool :=
  c.planName = planName && c.version = version

end CloudResource

end InfraOperator
