import InfraOperator.Resource.Basic

/-!
# Configurations

A configuration is a module with its inputs, to be planned, checked, applied, and destroyed when
it is deleted.
-/

set_option autoImplicit false

namespace InfraOperator

structure SecretRef where
  name : String
  namespaceName : Option String := none
  deriving DecidableEq

structure ConfigurationSpec where
  /-- Source of the module. -/
  module : String
  providerName : String
  /-- Inputs of the module. -/
  inputs : Option Json := none
  /-- Where the outputs of an apply are copied to. -/
  connectionSecret : Option SecretRef := none
  autoApproval : Bool := false
  driftDetection : Bool := false
  /-- Tag of the executor image to use instead of its own. -/
  terraformVersion : Option String := none
  deriving DecidableEq

structure ConfigurationStatus where
  conditions : List Condition := []
  /-- Resources that stood after the last apply. -/
  resources : Option Nat := none
  deriving DecidableEq

structure Configuration where
  metadata : ObjectMeta
  spec : ConfigurationSpec
  status : Option ConfigurationStatus := none
  deriving DecidableEq

namespace SecretRef

def read (d : Document) : Option SecretRef := do
  let fields ← Read.record ["name", "namespace"] d
  return {
    name := ← fields.required "name" Read.text
    namespaceName := ← fields.optional "namespace" Read.text }

def toJson (s : SecretRef) : Json :=
  .object <| [("name", .str s.name)] ++ Json.field "namespace" Write.text s.namespaceName

end SecretRef

namespace ConfigurationSpec

def readProvider (d : Document) : Option String := do
  (← Read.record ["name"] d).required "name" Read.text

def read (d : Document) : Option ConfigurationSpec := do
  let fields ← Read.record
    ["module", "providerRef", "variables", "writeConnectionSecretToRef", "enableAutoApproval",
      "enableDriftDetection", "terraformVersion"] d
  return {
    module := ← fields.required "module" Read.text
    providerName := ← fields.required "providerRef" readProvider
    inputs := ← fields.optional "variables" Read.value
    connectionSecret := ← fields.optional "writeConnectionSecretToRef" SecretRef.read
    autoApproval := ← fields.defaulting "enableAutoApproval" Read.bool false
    driftDetection := ← fields.defaulting "enableDriftDetection" Read.bool false
    terraformVersion := ← fields.optional "terraformVersion" Read.text }

def toJson (s : ConfigurationSpec) : Json :=
  .object <|
    [("enableAutoApproval", .bool s.autoApproval), ("enableDriftDetection", .bool s.driftDetection),
      ("module", .str s.module), ("providerRef", .object [("name", .str s.providerName)])] ++
    Json.field "terraformVersion" Write.text s.terraformVersion ++
    Json.field "variables" id s.inputs ++
    Json.field "writeConnectionSecretToRef" SecretRef.toJson s.connectionSecret

end ConfigurationSpec

namespace ConfigurationStatus

def read (d : Document) : Option ConfigurationStatus := do
  let fields ← Read.record ["conditions", "resources"] d
  return {
    conditions := ← fields.defaulting "conditions" (Read.list Condition.read) []
    resources := ← fields.optional "resources" (Read.nat .nat32) }

def toJson (s : ConfigurationStatus) : Json :=
  .object <|
    [("conditions", Write.list Condition.toJson s.conditions)] ++
    Json.field "resources" Write.nat s.resources

end ConfigurationStatus

namespace Configuration

def kindName : String := "Configuration"

def read (d : Document) : Option Configuration := do
  let fields ← readObject d
  return {
    metadata := ← fields.required "metadata" ObjectMeta.read
    spec := ← fields.required "spec" ConfigurationSpec.read
    status := ← fields.optional "status" ConfigurationStatus.read }

def toJson (c : Configuration) : Json :=
  writeObject kindName c.metadata c.spec.toJson (c.status.map ConfigurationStatus.toJson)

def conditions (c : Configuration) : List Condition := (c.status.getD {}).conditions

instance : Resource Configuration where
  kind := kindName
  metadata c := c.metadata
  withMetadata c m := { c with metadata := m }
  conditions := conditions
  withConditions c conditions := { c with status := some { c.status.getD {} with conditions } }

def name (c : Configuration) : String := c.metadata.displayName

def providerReady : String := "ProviderReady"
def planned : String := "TerraformPlan"
def checked : String := "TerraformPolicy"
def applied : String := "TerraformApply"
def destroyed : String := "TerraformDestroy"

def conditionTypes : List String := [providerReady, planned, checked, applied, readyCondition]

def applyApproved (c : Configuration) : Bool :=
  c.spec.autoApproval || annotationIsTrue c.metadata.annotations Annotation.apply

def isOrphaned (c : Configuration) : Bool :=
  annotationIsTrue c.metadata.annotations Annotation.orphan

end Configuration

end InfraOperator
