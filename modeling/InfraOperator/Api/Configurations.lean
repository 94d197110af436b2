import InfraOperator.Api.Client
import InfraOperator.Provisioning.Store

/-!
# The store of configurations on the API server

Each call of a cycle as requests to the API server.
-/

set_option autoImplicit false

namespace InfraOperator.Api

def configurations (namespaceName : String) : Collection Configuration :=
  ⟨Collection.pathOf Collection.operatorGroup (some namespaceName) "configurations",
    Configuration.read⟩

def providers : Collection Provider :=
  ⟨Collection.pathOf Collection.operatorGroup none "providers", Provider.read⟩

def policies : Collection Policy :=
  ⟨Collection.pathOf Collection.operatorGroup none "policies", Policy.read⟩

def jobs (namespaceName : String) : Collection Job :=
  ⟨Collection.pathOf "/apis/batch/v1" (some namespaceName) "jobs", Job.read⟩

def secrets (namespaceName : String) : Collection Secret :=
  ⟨Collection.pathOf "/api/v1" (some namespaceName) "secrets", Secret.read⟩

/-- Selects the execution units of an owner, but not the jobs that follow their logs. -/
def unitSelector (ownerUid : String) : String :=
  Label.ownerUid ++ "=" ++ ownerUid ++ "," ++ Label.component ++ "=" ++ Label.executor

def unnamed (message : String) : Failure := .validation Failure.unknown message

def statusPatch (metadata : ObjectMeta) (status : Option Json) : Json :=
  guarded metadata.resourceVersion [("status", Write.option id status)]

def patchConfigurationStatus (c : Configuration) : Client Unit := do
  let name ← Client.orFail c.metadata.name (unnamed "configuration has no name")
  let ns ← Client.orFail c.metadata.namespaceName
    (.validation name "configuration has no namespace")
  (configurations ns).patchStatus name
    (statusPatch c.metadata (c.status.map ConfigurationStatus.toJson))

/-- A job that exists already is as good as a new one. -/
def createJob (job : Job) : Client Unit := do
  let ns ← Client.orFail job.metadata.namespaceName (unnamed "job has no namespace")
  match ← Client.outcome ((jobs ns).create job.toJson) with
  | .ok () => return ()
  | .error e =>
    if e.isConflict then
      Client.log .debug "job already exists" [("job", Text.quotedOption job.metadata.name)]
    else Client.fail e

def createSecret (secret : Secret) : Client Unit := do
  let ns ← Client.orFail secret.metadata.namespaceName (unnamed "secret has no namespace")
  (secrets ns).create secret.toJson

def deleteSecret (name namespaceName : String) : Client Bool := do
  match ← Client.outcome ((secrets namespaceName).delete name) with
  | .ok () => return true
  | .error e => if e.isNotFound then return false else Client.fail e

def configurationCall : (call : ConfigurationCall) → Client call.Answer
  | .getConfiguration name ns => (configurations ns).get? name
  | .patchStatus c => patchConfigurationStatus c
  | .addFinalizer name ns finalizer =>
    (configurations ns).addFinalizer Configuration.metadata name finalizer
  | .removeFinalizer name ns finalizer =>
    (configurations ns).removeFinalizer Configuration.metadata name finalizer
  | .getProvider name => providers.get? name
  | .listPolicies => policies.list none
  | .listUnits ns uid => (jobs ns).list (some (unitSelector uid))
  | .createJob job => createJob job
  | .deleteUnits ns uid => (jobs ns).deleteAll (some (unitSelector uid))
  | .getSecret name ns => (secrets ns).get? name
  | .createSecret secret => createSecret secret
  | .patchSecretData name ns data =>
    (secrets ns).patch name (.obj [("data", Write.dict Write.bytes data)])
  | .deleteSecret name ns => deleteSecret name ns

end InfraOperator.Api
