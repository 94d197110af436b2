import InfraOperator.Manifest.Schema
import InfraOperator.Resource.Configuration
import InfraOperator.Resource.Policy
import InfraOperator.Resource.Provider
import InfraOperator.Resource.Revision
import InfraOperator.Resource.Plan

/-!
# Manifests of the operator's kinds

What the API server has to be told before it keeps objects of a kind: how the kind is named, where
its objects live, which columns are shown of them, and the schema of their specification and
status.
-/

set_option autoImplicit false

namespace InfraOperator

structure Column where
  name : String
  type : String
  jsonPath : String
  deriving DecidableEq, Repr

structure Manifest where
  kind : String
  plural : String
  shortNames : List String := []
  namespaced : Bool := false
  columns : List Column := []
  spec : Schema
  /-- Absent for a kind without a status. -/
  status : Option Schema := none

namespace Schema

def condition : Schema :=
  (fields ["lastTransitionTime", "reason", "status", "type"]
    [("type", text.described "Type of condition (e.g., TerraformPlan, Ready)"),
      ("status", (choice ["True", "False", "Unknown"]).described
        "Status of the condition (True, False, Unknown)"),
      ("reason",
        (choice ["Ready", "InProgress", "Warning", "ActionRequired", "Error", "Disabled"]).described
          "Machine-readable reason for the condition"),
      ("message", text.defaulting (.str "") "Human-readable message"),
      ("observedGeneration", int64.defaulting (.int 0)
        "Generation of the resource this condition was computed for"),
      ("lastTransitionTime",
        dateTime.described "Last time the condition transitioned")]).described <|
    "Kubernetes-style condition for status reporting\n\nConditions are only ever modified " ++
    "through the condition tracker in `terrace-engine`, which keeps `last_transition_time` honest."

def conditions (description : String) : String × Schema :=
  ("conditions", (items condition).defaulting (.arr []) description)

def conditionsOnly (description : String) : Schema :=
  (fields [] [conditions "Conditions"]).optional description

def secretRef : Schema :=
  fields ["name"]
    [("name", text.described "Name of the secret"),
      ("namespace", text.optional
        "Namespace of the secret (defaults to the referencing resource's namespace)")]

def configurationSpec : Schema :=
  fields ["module", "providerRef"]
    [("module", text.described "Terraform module source (git URL, registry address, ...)"),
      ("providerRef",
        (fields ["name"] [("name", text.described "Name of the Provider")]).described
          "Provider supplying cloud credentials"),
      ("variables", anything.described "Input variables passed to the module"),
      ("writeConnectionSecretToRef",
        secretRef.optional "Secret receiving the module outputs after apply"),
      ("enableAutoApproval", boolean.defaulting (.bool false)
        "Apply without waiting for the approval annotation"),
      ("enableDriftDetection", boolean.defaulting (.bool false)
        "Periodically re-run the workflow to detect drift"),
      ("terraformVersion", text.optional "Terraform image tag override")]

def planEntry : Schema :=
  fields ["name", "revision"]
    [("name", text.described "Name of the Revision object"),
      ("revision", text.described "Semantic version of the Revision")]

end Schema

namespace Manifest

open Schema

def configuration : Manifest where
  kind := Configuration.kindName
  plural := "configurations"
  shortNames := ["tfc"]
  namespaced := true
  columns := [
    ⟨"Module", "string", ".spec.module"⟩,
    ⟨"Ready", "string", ".status.conditions[?(@.type==\"Ready\")].status"⟩,
    ⟨"Resources", "integer", ".status.resources"⟩,
    ⟨"Age", "date", ".metadata.creationTimestamp"⟩]
  spec := configurationSpec.described "Terraform module driven to convergence by the operator"
  status := some <|
    (fields []
      [conditions "Conditions in display order",
        ("resources", nat32.optional
          "Resources in Terraform state after the last successful apply")]).optional
      "Observed state of a Configuration"

def provider : Manifest where
  kind := Provider.kindName
  plural := "providers"
  columns := [
    ⟨"Provider", "string", ".spec.provider"⟩,
    ⟨"Age", "date", ".metadata.creationTimestamp"⟩]
  spec :=
    (fields ["provider"]
      [("provider", (choice ["aws", "azurerm", "google", "kubernetes"]).described
          "Provider family"),
        ("source", (choice ["Secret", "Injected"]).defaulting (.str "Secret")
          "Credential source"),
        ("secretRef", secretRef.optional
          "Secret with static credentials (required when source is Secret)"),
        ("serviceAccount", text.optional
          "Service account executors run as (required when source is Injected)")]).described
      "Cloud credentials for execution units"
  status := some (conditionsOnly "Observed state of a Provider")

def policy : Manifest where
  kind := Policy.kindName
  plural := "policies"
  spec :=
    (fields ["constraint"]
      [("constraint",
        (fields []
          [("checks", (items text).described "Checks to run (empty means all)"),
            ("skipChecks", (items text).described "Checks to skip"),
            ("selector", labels.described
              "Configurations this constraint applies to (empty matches all)")]).described
          "Check constraint")]).described
      "Security policy evaluated against plans"

def plan : Manifest where
  kind := Plan.kindName
  plural := "plans"
  spec :=
    (fields []
      [("revisions",
        (items (planEntry.described "Reference from a Plan to one of its Revisions")).defaulting
          (.arr []) "Revisions belonging to this plan")]).described
      "A versioned family of revisions"
  status := some <|
    (fields [] [("latest", planEntry.optional "Most recent revision by semantic version")]).optional
      "Observed state of a Plan"

def revision : Manifest where
  kind := Revision.kindName
  plural := "revisions"
  columns := [
    ⟨"Plan", "string", ".spec.plan.name"⟩,
    ⟨"Version", "string", ".spec.plan.revision"⟩,
    ⟨"In Use", "integer", ".status.inUse"⟩]
  spec :=
    (fields ["configuration", "plan"]
      [("plan",
        (fields ["name", "revision"]
          [("name", text.described "Name of the owning plan"),
            ("revision", text.described "Semantic version of this revision"),
            ("description", text.optional "Human-readable description")]).described
          "Plan membership"),
        ("configuration",
          configurationSpec.described "Configuration template rendered for consumers")]).described
      "One versioned blueprint of a plan"
  status := some <|
    (fields []
      [conditions "Conditions",
        ("inUse", nat32.defaulting (.int 0)
          "Number of CloudResources referencing this revision")]).optional
      "Observed state of a Revision"

def cloudResource : Manifest where
  kind := CloudResource.kindName
  plural := "cloudresources"
  namespaced := true
  spec :=
    (fields ["plan"]
      [("plan",
        (fields ["name", "revision"]
          [("name", text.described "Plan name"),
            ("revision", text.described "Revision version")]).described
          "Plan and revision this resource is built from")]).described
      "Consumer of a plan revision"
  status := some (conditionsOnly "Observed state of a CloudResource")

def all : List Manifest := [configuration, provider, policy, plan, revision, cloudResource]

def name (m : Manifest) : String := m.plural ++ "." ++ Group.name

def columnJson (c : Column) : Json :=
  .object [("name", .str c.name), ("type", .str c.type), ("jsonPath", .str c.jsonPath)]

def schema (m : Manifest) : Json :=
  .object
    [("type", .str "object"),
      ("title", .str m.kind),
      ("description",
        .str ("Auto-generated derived type for " ++ m.kind ++ "Spec via `CustomResource`")),
      ("required", .arr [.str "spec"]),
      ("properties", .object <|
        [("spec", m.spec.toJson)] ++ Json.field "status" Schema.toJson m.status)]

def versionJson (m : Manifest) : Json :=
  .object
    [("name", .str "v1alpha1"),
      ("served", .bool true),
      ("storage", .bool true),
      ("schema", .object [("openAPIV3Schema", m.schema)]),
      ("additionalPrinterColumns", .arr (m.columns.map columnJson)),
      ("subresources", .object (if m.status.isSome then [("status", .obj [])] else []))]

def toJson (m : Manifest) : Json :=
  .object
    [("apiVersion", .str "apiextensions.k8s.io/v1"),
      ("kind", .str "CustomResourceDefinition"),
      ("metadata", .object [("name", .str m.name)]),
      ("spec", .object
        [("group", .str Group.name),
          ("scope", .str (if m.namespaced then "Namespaced" else "Cluster")),
          ("names", .object
            [("kind", .str m.kind), ("plural", .str m.plural),
              ("singular", .str (String.ofList (m.kind.toList.map Char.toLower))),
              ("shortNames", .arr (m.shortNames.map .str)), ("categories", .arr [])]),
          ("versions", .arr [m.versionJson])])]

end Manifest

end InfraOperator
