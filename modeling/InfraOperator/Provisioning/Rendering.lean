import InfraOperator.Json.Printer
import InfraOperator.Object.Secret
import InfraOperator.Provisioning.Naming
import InfraOperator.Resource.Policy
import InfraOperator.Resource.Provider
import InfraOperator.Settings

/-!
# Rendering

The execution unit of a stage, the job that follows its logs from the namespace of the resource,
and the secret with the inputs of the module. Units run in the namespace of the operator and find
what they need in that secret, which all of them mount.
-/

set_option autoImplicit false

namespace InfraOperator

namespace Rendering

def mountPath : String := "/run/terrace/config"

def variablesKey : String := "variables.tfvars.json"
def backendKey : String := "backend.tf"
def providerKey : String := "provider.tf"

def defaultServiceAccount : String := "terrace-executor"

/-- How often the pod of a unit is run again after it failed. -/
def backoffLimit : Int := 2

end Rendering

structure UnitRequest where
  configuration : Configuration
  provider : Provider
  policy : Option Policy
  stage : Stage
  generation : Int
  retry : Option Instant
  settings : Settings

namespace UnitRequest

open Rendering

def failure (r : UnitRequest) (message : String) : Failure := .render r.stage.text message

def uid (r : UnitRequest) : Outcome String :=
  match r.configuration.metadata.uid with
  | some uid => .ok uid
  | none => .error (r.failure "configuration has no uid")

def envVar (name value : String) : EnvVar := { name, value := some value }

def environment (r : UnitRequest) (uid : String) : List EnvVar :=
  [envVar "TF_IN_AUTOMATION" "true", envVar "TERRACE_STAGE" r.stage.text,
    envVar "TERRACE_MODULE" r.configuration.spec.module,
    envVar "TERRACE_CONFIG_DIR" mountPath,
    envVar "TERRACE_NAMESPACE" r.settings.namespaceName] ++
  match r.stage with
  | .apply =>
    [envVar "TERRACE_OUTPUTS_SECRET" (SecretName.outputs uid),
      envVar "TERRACE_RESOURCE_COUNT_KEY" SecretName.resourceCountKey]
  | .verify => [envVar "TERRACE_POLICY_SECRET" (SecretName.policy uid)]
  | .plan | .destroy => []

def configMount : VolumeMount := { name := "config", mountPath, readOnly := some true }

def credentials (r : UnitRequest) : Option (List EnvFromSource) :=
  match r.provider.spec.source, r.provider.spec.secretRef with
  | .secret, some secret => some [{ secretRef := some ⟨secret.name, some false⟩ }]
  | _, _ => none

def executor (r : UnitRequest) (uid : String) : Container :=
  { name := "terraform"
    image := some (r.settings.executorImageFor r.configuration.spec.terraformVersion)
    command := some ["terraform-exec"]
    args := some [r.stage.text]
    env := some (r.environment uid)
    envFrom := r.credentials
    volumeMounts := some [configMount] }

def listOption (name : String) (values : List String) : List String :=
  if values.isEmpty then [] else [name, ",".intercalate values]

def policyArgs (r : UnitRequest) : List String :=
  ["--directory", mountPath] ++
  match r.policy with
  | some policy =>
    listOption "--check" policy.constraint.checks ++
      listOption "--skip-check" policy.constraint.skipChecks
  | none => []

def policyCheck (r : UnitRequest) (uid : String) : Container :=
  { name := "policy"
    image := some r.settings.policyImage
    args := some r.policyArgs
    env := some (r.environment uid)
    volumeMounts := some [configMount] }

def costEstimate (r : UnitRequest) : Container :=
  { name := "infracost"
    image := some r.settings.infracostImage
    args := some ["breakdown", "--path", mountPath] }

def containers (r : UnitRequest) (uid : String) : Option (List Container) × List Container :=
  match r.stage with
  | .verify => (none, [r.policyCheck uid])
  | .plan =>
    if r.settings.costAnalysis then (some [r.executor uid], [r.costEstimate])
    else (none, [r.executor uid])
  | .apply | .destroy => (none, [r.executor uid])

def serviceAccount (r : UnitRequest) : Outcome String :=
  match r.provider.spec.source with
  | .secret => .ok defaultServiceAccount
  | .injected =>
    match r.provider.spec.serviceAccount with
    | some account => .ok account
    | none =>
      .error (r.failure ("provider " ++ r.provider.name ++
        " uses injected credentials but names no service account"))

def labels (r : UnitRequest) : Dict String :=
  unitLabels r.stage r.generation r.retry r.configuration.metadata

def unitFor (r : UnitRequest) (uid account : String) : Job :=
  let (initContainers, containers) := r.containers uid
  { metadata :=
      { name := some (unitName r.stage uid r.generation r.retry)
        namespaceName := some r.settings.namespaceName
        labels := some r.labels }
    spec := some
      { backoffLimit := some backoffLimit
        template :=
          { metadata := some { labels := some r.labels }
            spec := some
              { initContainers, containers
                serviceAccountName := some account
                volumes := some
                  [{ name := "config"
                     secret := some { secretName := some (SecretName.config uid) } }]
                restartPolicy := some "Never" } } } }

def renderUnit (r : UnitRequest) : Outcome Job := do
  let uid ← r.uid
  let account ← r.serviceAccount
  return r.unitFor uid account

def watcherLabels (r : UnitRequest) (uid namespaceName : String) : Dict String :=
  .ofList [(Label.managedBy, Label.operator), (Label.component, Label.watcher),
    (Label.ownerUid, uid), (Label.ownerName, r.configuration.name),
    (Label.ownerNamespace, namespaceName)]

def watcherFor (r : UnitRequest) (uid namespaceName unit : String) : Job :=
  let labels := r.watcherLabels uid namespaceName
  { metadata :=
      { name := some (watcherName unit)
        namespaceName := some namespaceName
        labels := some labels
        ownerReferences := some
          [{ apiVersion := Group.apiVersion
             kind := Configuration.kindName
             name := r.configuration.name
             uid
             controller := some true
             blockOwnerDeletion := some true }] }
    spec := some
      { backoffLimit := some 0
        ttlSecondsAfterFinished := some 3600
        template :=
          { metadata := some { labels := some labels }
            spec := some
              { containers :=
                  [{ name := "watch"
                     image := some r.settings.executorImage
                     command := some ["terraform-exec"]
                     args := some
                      ["watch", "--namespace", r.settings.namespaceName, "--job", unit] }]
                restartPolicy := some "Never" } } } }

def renderWatcher (r : UnitRequest) (unit : Job) : Outcome Job := do
  let uid ← r.uid
  let namespaceName ← match r.configuration.metadata.namespaceName with
    | some ns => pure ns
    | none => throw (r.failure "configuration has no namespace")
  let unit ← match unit.metadata.name with
    | some name => pure name
    | none => throw (r.failure "unit has no name")
  return r.watcherFor uid namespaceName unit

end UnitRequest

namespace Rendering

def variablesText (c : Configuration) : String :=
  match c.spec.inputs with
  | some inputs => inputs.pretty
  | none => "\x7b\x7d"

def backendText (namespaceName uid : String) : String :=
  "terraform \x7b\n  backend \"kubernetes\" \x7b\n    in_cluster_config = true\n" ++
  "    namespace         = \"" ++ namespaceName ++ "\"\n" ++
  "    secret_suffix     = \"" ++ uid ++ "\"\n  \x7d\n\x7d\n"

def providerText (p : Provider) : String :=
  "provider \"" ++ p.spec.provider.text ++ "\" \x7b\x7d\n"

def configSecretFor (c : Configuration) (p : Provider) (namespaceName uid : String) : Secret :=
  { metadata :=
      { name := some (SecretName.config uid)
        namespaceName := some namespaceName
        labels := some <| .ofList <|
          [(Label.managedBy, Label.operator), (Label.ownerUid, uid), (Label.ownerName, c.name)] ++
          (c.metadata.namespaceName.map fun ns => (Label.ownerNamespace, ns)).toList }
    data := some <| .ofList
      [(variablesKey, .ofText (variablesText c)),
        (backendKey, .ofText (backendText namespaceName uid)),
        (providerKey, .ofText (providerText p))] }

def configSecret (c : Configuration) (p : Provider) (namespaceName : String) : Outcome Secret := do
  return configSecretFor c p namespaceName (← c.ownerUid)

/-- A secret of the configuration's own with its outputs. The configuration owns it if both are
in one namespace. -/
def connectionSecret (c : Configuration) (name namespaceName : String) (data : Dict Bytes) :
    Secret :=
  let owner := do
    if c.metadata.namespaceName = some namespaceName then
      let owner : OwnerReference :=
        { apiVersion := Group.apiVersion
          kind := Configuration.kindName
          name := ← c.metadata.name
          uid := ← c.metadata.uid
          controller := some true
          blockOwnerDeletion := none }
      return [owner]
    else none
  { metadata :=
      { name := some name
        namespaceName := some namespaceName
        labels := some <| .ofList <|
          [(Label.managedBy, Label.operator), (Label.ownerName, c.name)] ++
          (c.metadata.uid.map fun uid => (Label.ownerUid, uid)).toList
        ownerReferences := owner }
    data := some data }

end Rendering

end InfraOperator
