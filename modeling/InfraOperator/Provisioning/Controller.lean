import InfraOperator.Cycle.Failures
import InfraOperator.Provisioning.Steps

/-!
# The controller of configurations

A cycle runs the pipeline that fits the configuration: the one that provisions it, or, once it is
marked for deletion, the one that tears it down. A cycle that succeeds clears the failures of its
configuration; one that fails is run again after a delay that doubles with each failure.
-/

set_option autoImplicit false

namespace InfraOperator.Provisioning

def controllerName : String := "terrace-configuration-controller"

abbrev ConfigurationPipeline := Pipeline ConfigurationStore Configuration Scratch

def provisioningSteps (settings : Settings) : List ConfigurationStep :=
  [ensureFinalizer ConfigurationStore.finalizers cleanupFinalizer,
    ensureNoPreviousGeneration,
    ensureProviderReady,
    ensurePolicies,
    ensureUnitListing settings,
    ensureJobConfiguration settings,
    StageRun.plan.toStep settings,
    StageRun.verify.toStep settings,
    StageRun.apply.toStep settings,
    ensureResourceCount settings,
    ensureConnectionSecret settings,
    ensureReady]

def deletionSteps (settings : Settings) : List ConfigurationStep :=
  [ensureUnitListing settings,
    ensureDestroy settings,
    ensureConfigurationRemoved settings,
    ensureFinalizerRemoved ConfigurationStore.finalizers cleanupFinalizer]

def pipelineFor (settings : Settings) (deleting : Bool) : Outcome ConfigurationPipeline :=
  if deleting then Pipeline.build "configuration-deletion" (deletionSteps settings)
  else Pipeline.build "configuration" (provisioningSteps settings)

def registeredTypes (deleting : Bool) : List String :=
  if deleting then [Configuration.destroyed] else Configuration.conditionTypes

def failureKey (c : Configuration) : String :=
  Failures.objectKey c.metadata.namespaceName c.name

abbrev Supervision := Program (Supervised ConfigurationStore)

def cleanupNotice (c : Configuration) : Notice :=
  { object := Resource.reference c
    warning := false
    reason := "CleanupComplete"
    action := "Delete"
    note := some ("removed everything generated for " ++ c.name) }

def announceCleanup (c : Configuration) : Supervision Unit := do
  Supervised.log .info "cleanup complete, finalizer released" []
  Supervised.plain (.publish (cleanupNotice c))

def conclude (settings : Settings) (c : Configuration) (failures : Failures)
    (result : Outcome Directive) (cycle : ConfigurationCycle) :
    Supervision (Outcome Action × Failures) := do
  match result with
  | .error e => return (.error e, failures)
  | .ok directive =>
    if c.metadata.isDeleting then
      if directive = .done ∧ cycle.scratch.cleanedUp then announceCleanup c
      return (.ok (directive.toAction none), failures.reset (failureKey c))
    else
      let resync := if c.spec.driftDetection then some settings.resync else none
      return (.ok (directive.toAction resync), failures.reset (failureKey c))

def openCycle (c : Configuration) (now : Instant) : ConfigurationCycle :=
  (Cycle.start c {}).register (registeredTypes c.metadata.isDeleting) now

def announceSteps (pipeline : ConfigurationPipeline) (deleting : Bool) : Supervision Unit :=
  Supervised.log .debug "reconciling configuration"
    [("steps", Text.quotedList pipeline.stepNames), ("deleting", toString deleting)]

def reconcile (settings : Settings) (c : Configuration) (failures : Failures) :
    Supervision (Outcome Action × Failures) := do
  let deleting := c.metadata.isDeleting
  if deleting ∧ c.metadata.isDeletionCandidate cleanupFinalizer = false then
    Supervised.log .debug "deleted without finalizer, nothing to clean up" []
    return (.ok .awaitChange, failures.reset (failureKey c))
  else
    let now ← Supervised.plain .clock
    match pipelineFor settings deleting with
    | .error e => return (.error e, failures)
    | .ok pipeline =>
      announceSteps pipeline deleting
      let (result, cycle) ← pipeline.execute ConfigurationStore.statuses (openCycle c now)
      conclude settings c failures result cycle

def errorPolicy (c : Configuration) (e : Failure) (failures : Failures) (now : Instant) :
    Action × Failures × LogLine :=
  failures.afterFailure (failureKey c) ("configuration", c.name) e now

end InfraOperator.Provisioning
