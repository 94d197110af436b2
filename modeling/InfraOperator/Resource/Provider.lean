import InfraOperator.Resource.Configuration

/-!
# Providers

A provider names the cloud that execution units talk to and where their credentials come from.
-/

set_option autoImplicit false

namespace InfraOperator

inductive ProviderType where
  | aws
  | azurerm
  | google
  | kubernetes
  deriving DecidableEq, Repr

inductive CredentialSource where
  /-- Fixed credentials from a secret. -/
  | secret
  /-- The identity of a service account. -/
  | injected
  deriving DecidableEq, Repr

structure ProviderSpec where
  provider : ProviderType
  source : CredentialSource := .secret
  secretRef : Option SecretRef := none
  serviceAccount : Option String := none
  deriving DecidableEq

structure Provider where
  metadata : ObjectMeta
  spec : ProviderSpec
  status : Option (List Condition) := none
  deriving DecidableEq

namespace ProviderType

def text : ProviderType → String
  | .aws => "aws"
  | .azurerm => "azurerm"
  | .google => "google"
  | .kubernetes => "kubernetes"

def ofText? : String → Option ProviderType
  | "aws" => some .aws
  | "azurerm" => some .azurerm
  | "google" => some .google
  | "kubernetes" => some .kubernetes
  | _ => none

theorem ofText?_text (p : ProviderType) : ofText? p.text = some p := by cases p <;> rfl

end ProviderType

namespace CredentialSource

def text : CredentialSource → String
  | .secret => "Secret"
  | .injected => "Injected"

def ofText? : String → Option CredentialSource
  | "Secret" => some .secret
  | "Injected" => some .injected
  | _ => none

theorem ofText?_text (s : CredentialSource) : ofText? s.text = some s := by cases s <;> rfl

end CredentialSource

namespace ProviderSpec

def read (d : Document) : Option ProviderSpec := do
  let fields ← Read.record ["provider", "source", "secretRef", "serviceAccount"] d
  return {
    provider := ← fields.required "provider" fun d => (Read.tag d).bind ProviderType.ofText?
    source :=
      ← fields.defaulting "source" (fun d => (Read.tag d).bind CredentialSource.ofText?) .secret
    secretRef := ← fields.optional "secretRef" SecretRef.read
    serviceAccount := ← fields.optional "serviceAccount" Read.text }

def toJson (s : ProviderSpec) : Json :=
  .object <|
    [("provider", .str s.provider.text)] ++
    Json.field "secretRef" SecretRef.toJson s.secretRef ++
    Json.field "serviceAccount" Write.text s.serviceAccount ++
    [("source", .str s.source.text)]

end ProviderSpec

namespace Provider

def kindName : String := "Provider"

def read (d : Document) : Option Provider := do
  let fields ← readObject d
  return {
    metadata := ← fields.required "metadata" ObjectMeta.read
    spec := ← fields.required "spec" ProviderSpec.read
    status := ← fields.optional "status" Condition.readStatus }

def toJson (p : Provider) : Json :=
  writeObject kindName p.metadata p.spec.toJson (p.status.map Condition.statusJson)

def conditions (p : Provider) : List Condition := p.status.getD []

def name (p : Provider) : String := p.metadata.displayName

/-- The provider's first condition of type `Ready` holds, for whatever generation. -/
def isReady (p : Provider) : Bool :=
  match findCondition p.conditions readyCondition with
  | some c => c.status = .true
  | none => false

end Provider

end InfraOperator
