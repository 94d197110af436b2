import InfraOperator.Provisioning.Rendering
import InfraOperator.Provisioning.Store

/-!
# Steps of a configuration

Before its deletion a configuration goes through plan, policy check and apply, each of them run by
one execution unit per generation and wish for a retry. Once it is deleted, destroy is run, unless
it is orphaned or has no state, and then everything made for it is removed.
-/

set_option autoImplicit false

namespace InfraOperator.Provisioning

def dependencyDelay : Span := .ofSeconds 30

def createdDelay : Span := .ofSeconds 5

def activeDelay : Span := .ofSeconds 10

def outputsDelay : Span := .ofSeconds 10

structure Scratch where
  provider : Option Provider := none
  policy : Option Policy := none
  /-- The execution units of the configuration. -/
  units : List Job := []
  /-- Everything made for the configuration is gone. -/
  cleanedUp : Bool := false

abbrev ConfigurationCycle := Cycle Configuration Scratch

abbrev Run := Staged ConfigurationStore ConfigurationCycle

abbrev ConfigurationStep := Step ConfigurationStore Configuration Scratch

def call (c : ConfigurationCall) : Run (Outcome c.Answer) := Staged.call (S := ConfigurationStore) c

def getProvider (name : String) : Run (Outcome (Option Provider)) := call (.getProvider name)

def listPolicies : Run (Outcome (List Policy)) := call .listPolicies

def listUnits (namespaceName uid : String) : Run (Outcome (List Job)) :=
  call (.listUnits namespaceName uid)

def createJob (job : Job) : Run (Outcome Unit) := call (.createJob job)

def deleteUnits (namespaceName uid : String) : Run (Outcome Unit) :=
  call (.deleteUnits namespaceName uid)

def getSecret (name namespaceName : String) : Run (Outcome (Option Secret)) :=
  call (.getSecret name namespaceName)

def createSecret (secret : Secret) : Run (Outcome Unit) := call (.createSecret secret)

def patchSecretData (name namespaceName : String) (data : Dict Bytes) : Run (Outcome Unit) :=
  call (.patchSecretData name namespaceName data)

def deleteSecret (name namespaceName : String) : Run (Outcome Bool) :=
  call (.deleteSecret name namespaceName)

def setScratch (f : Scratch → Scratch) : Run Unit :=
  modify fun c => { c with scratch := f c.scratch }

/-- Units of other generations are not looked at, so there is nothing to wait for. -/
def ensureNoPreviousGeneration : ConfigurationStep where
  name := "EnsureNoPreviousGeneration"
  run := return .proceed

def ensureProviderReady : ConfigurationStep where
  name := "EnsureProviderReady"
  run := do
    let name := (← get).resource.spec.providerName
    match ← getProvider name with
    | .error e => return .stop e
    | .ok none =>
      mark Configuration.providerReady .actionRequired ("provider " ++ name ++ " not found")
      return .requeue dependencyDelay
    | .ok (some provider) =>
      if provider.isReady then
        mark Configuration.providerReady .success ("provider " ++ name ++ " is ready")
        setScratch ({ · with provider := some provider })
        return .proceed
      else
        mark Configuration.providerReady .warning ("provider " ++ name ++ " is not ready")
        return .requeue dependencyDelay

/-- The first policy that applies counts. -/
def ensurePolicies : ConfigurationStep where
  name := "EnsurePolicies"
  run := do
    match ← listPolicies with
    | .error e => return .stop e
    | .ok policies =>
      let labels := (← get).resource.metadata.labels
      let policy := policies.find? (·.applies labels)
      setScratch ({ · with policy })
      if let some policy := policy then
        Staged.log .debug "policy applies" [("policy", policy.name)]
      return .proceed

def ensureUnitListing (settings : Settings) : ConfigurationStep where
  name := "EnsureUnitListing"
  run := do
    match (← get).resource.ownerUid with
    | .error e => return .stop e
    | .ok uid =>
      match ← listUnits settings.namespaceName uid with
      | .error e => return .stop e
      | .ok units =>
        setScratch ({ · with units })
        return .proceed

def ensureSecret (desired : Secret) : Run (Outcome Unit) := do
  let name := desired.metadata.displayName
  match desired.metadata.namespaceName with
  | none => return .error (.validation name "secret has no namespace")
  | some ns =>
    let data := desired.data.getD ∅
    match ← getSecret name ns with
    | .error e => return .error e
    | .ok none =>
      Staged.log .debug "creating secret" [("secret", name), ("namespace", ns)]
      createSecret desired
    | .ok (some existing) =>
      if existing.data = some data then return .ok ()
      else
        Staged.log .debug "updating secret data" [("secret", name), ("namespace", ns)]
        patchSecretData name ns data

def verdictOf : Outcome Unit → Verdict
  | .ok () => .proceed
  | .error e => .stop e

def ensureJobConfiguration (settings : Settings) : ConfigurationStep where
  name := "EnsureJobConfiguration"
  run := do
    let c ← get
    match c.scratch.provider with
    | none => return .stop (.internal "EnsureJobConfiguration" "provider not resolved")
    | some provider =>
      match Rendering.configSecret c.resource provider settings.namespaceName with
      | .error e => return .stop e
      | .ok secret => return verdictOf (← ensureSecret secret)

structure StageRun where
  stage : Stage
  condition : String
  gated : Bool := false
  deriving DecidableEq

namespace StageRun

def plan : StageRun := { stage := .plan, condition := Configuration.planned }
def verify : StageRun := { stage := .verify, condition := Configuration.checked }
def apply : StageRun := { stage := .apply, condition := Configuration.applied, gated := true }
def destroy : StageRun := { stage := .destroy, condition := Configuration.destroyed }

def name (s : StageRun) : String :=
  match s.stage with
  | .plan => "RunPlan"
  | .verify => "RunPolicyCheck"
  | .apply => "RunApply"
  | .destroy => "RunDestroy"

def request (s : StageRun) (settings : Settings) (c : ConfigurationCycle) (provider : Provider) :
    UnitRequest :=
  { configuration := c.resource
    provider
    policy := c.scratch.policy
    stage := s.stage
    generation := c.generation
    retry := c.resource.retryMarker
    settings }

/-- Starts following the logs of a unit; that this fails is told, and nothing else. -/
def startWatcher (s : StageRun) (watcher : Outcome Job) : Run Unit := do
  let started : Outcome Unit ← match watcher with
    | .ok watcher => createJob watcher
    | .error e => pure (.error e)
  if let .error e := started then
    Staged.log .warn "failed to start log watcher" [("stage", s.stage.text)]
    let c ← get
    Staged.publish
      { object := Resource.reference c.resource
        warning := true
        reason := "WatcherFailed"
        action := s.condition
        note := some ("cannot start log watcher for " ++ s.stage.text ++ " unit: " ++ e.message) }

def launch (s : StageRun) (unit : Job) : Run Verdict := do
  match ← createJob unit with
  | .error e => return .stop e
  | .ok () =>
    let name := unit.metadata.displayName
    let c ← get
    Staged.log .info "created execution unit"
      [("configuration", c.resource.name), ("stage", s.stage.text), ("unit", name)]
    Staged.measure (.unitCreated Configuration.kindName s.stage.text)
    Staged.publish
      { object := Resource.reference c.resource
        warning := false
        reason := "UnitCreated"
        action := s.condition
        note := some ("created " ++ s.stage.text ++ " unit " ++ name) }
    mark s.condition .inProgress (s.stage.text ++ " unit " ++ name ++ " created")
    return .requeue createdDelay

def createFor (s : StageRun) (settings : Settings) (provider : Provider) : Run Verdict := do
  let request := s.request settings (← get) provider
  match request.renderUnit with
  | .error e =>
    mark s.condition .failed
      (failureMessage ("cannot render " ++ s.stage.text ++ " unit") e.message)
    return .pause
  | .ok unit =>
    if settings.watchers then s.startWatcher (request.renderWatcher unit)
    s.launch unit

def createUnit (s : StageRun) (settings : Settings) : Run Verdict := do
  let c ← get
  match c.scratch.provider with
  | some provider => s.createFor settings provider
  | none =>
    let name := c.resource.spec.providerName
    match ← getProvider name with
    | .error e => return .stop e
    | .ok none =>
      mark s.condition .actionRequired ("provider " ++ name ++ " not found")
      return .requeue dependencyDelay
    | .ok (some provider) => s.createFor settings provider

def follow (s : StageRun) (unit : Job) : Run Verdict := do
  let name := s.stage.text ++ " unit " ++ unit.metadata.displayName
  match unit.state with
  | .complete =>
    mark s.condition .success (name ++ " succeeded")
    return .proceed
  | .failed =>
    mark s.condition .failed (failureMessage (name ++ " failed") unit.failureMessage)
    return .pause
  | .active =>
    mark s.condition .inProgress (name ++ " is running")
    return .requeue activeDelay

def waitForApproval (s : StageRun) : Run Verdict := do
  mark s.condition .actionRequired
    ("waiting for approval: set annotation " ++ Annotation.apply ++ "=true")
  return .pause

def run (s : StageRun) (settings : Settings) : Run Verdict := do
  let c ← get
  if c.isComplete s.condition then return .proceed
  else if s.stage = .verify ∧ c.scratch.policy.isNone then
    mark s.condition .disabled "no policy applies"
    return .proceed
  else
    match c.resource.ownerUid with
    | .error e => return .stop e
    | .ok uid =>
      let filter := c.resource.unitFilter settings.namespaceName uid s.stage
      match filter.latest? c.scratch.units with
      | some unit => s.follow unit
      | none =>
        if s.gated ∧ c.resource.applyApproved = false then s.waitForApproval
        else s.createUnit settings

def toStep (s : StageRun) (settings : Settings) : ConfigurationStep where
  name := s.name
  run := s.run settings

end StageRun

def resourceCount (outputs : Secret) : Option Nat := do
  let bytes ← (outputs.data.getD ∅).get? SecretName.resourceCountKey
  let text ← Bytes.toText? bytes
  Text.readNat? .nat32 (String.ofList (Text.trim text.toList))

def recordCount (count : Nat) : Run Unit := do
  let c ← get
  let status := c.resource.status.getD {}
  if status.resources = some count then
    set { c with resource := { c.resource with status := some status } }
  else
    Staged.log .debug "managed resource count changed" [("resources", toString count)]
    set
      { c with
        resource := { c.resource with status := some { status with resources := some count } }
        dirty := true }

/-- Outputs that are missing or carry no count leave the status as it is. -/
def ensureResourceCount (settings : Settings) : ConfigurationStep where
  name := "EnsureResourceCount"
  run := do
    match (← get).resource.ownerUid with
    | .error e => return .stop e
    | .ok uid =>
      match ← getSecret (SecretName.outputs uid) settings.namespaceName with
      | .error e => return .stop e
      | .ok outputs =>
        match outputs.bind resourceCount with
        | none => return .proceed
        | some count =>
          recordCount count
          return .proceed

def connectionData (outputs : Secret) : Dict Bytes :=
  (outputs.data.getD ∅).erase SecretName.resourceCountKey

def ensureConnectionSecret (settings : Settings) : ConfigurationStep where
  name := "EnsureConnectionSecret"
  run := do
    let configuration := (← get).resource
    match configuration.spec.connectionSecret with
    | none => return .proceed
    | some target =>
      match configuration.ownerUid with
      | .error e => return .stop e
      | .ok uid =>
        let outputsName := SecretName.outputs uid
        match ← getSecret outputsName settings.namespaceName with
        | .error e => return .stop e
        | .ok none =>
          mark readyCondition .warning ("waiting for outputs secret " ++ outputsName)
          return .requeue outputsDelay
        | .ok (some outputs) =>
          let ns := (target.namespaceName.or configuration.metadata.namespaceName).getD ""
          let desired := Rendering.connectionSecret configuration target.name ns
            (connectionData outputs)
          return verdictOf (← ensureSecret desired)

def ensureReady : ConfigurationStep where
  name := "EnsureReady"
  run := do
    mark readyCondition .success "configuration is up to date"
    return .proceed

def ensureDestroy (settings : Settings) : ConfigurationStep where
  name := "EnsureDestroy"
  run := do
    let configuration := (← get).resource
    if configuration.isOrphaned then
      Staged.log .info "orphaned, skipping destroy" [("configuration", configuration.name)]
      return .proceed
    else
      match configuration.ownerUid with
      | .error e => return .stop e
      | .ok uid =>
        match ← getSecret (SecretName.state uid) settings.namespaceName with
        | .error e => return .stop e
        | .ok (some _) => StageRun.destroy.run settings
        | .ok none =>
          Staged.log .debug "no terraform state, nothing to destroy" []
          return .proceed

def generatedSecrets (uid : String) : List String :=
  [SecretName.config uid, SecretName.policy uid, SecretName.outputs uid]

/-- Deletes secrets one by one, up to the first that cannot be. -/
def deleteSecrets (namespaceName : String) : List String → Run (Outcome Unit)
  | [] => return .ok ()
  | name :: rest => do
    match ← deleteSecret name namespaceName with
    | .error e => return .error e
    | .ok existed =>
      if existed then Staged.log .debug "deleted secret" [("secret", name)]
      deleteSecrets namespaceName rest

def ensureConfigurationRemoved (settings : Settings) : ConfigurationStep where
  name := "EnsureConfigurationRemoved"
  run := do
    match (← get).resource.ownerUid with
    | .error e => return .stop e
    | .ok uid =>
      match ← deleteSecrets settings.namespaceName (generatedSecrets uid) with
      | .error e => return .stop e
      | .ok () =>
        match ← deleteUnits settings.namespaceName uid with
        | .error e => return .stop e
        | .ok () =>
          setScratch ({ · with cleanedUp := true })
          return .proceed

end InfraOperator.Provisioning
