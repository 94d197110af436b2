import InfraOperator.Catalog.Membership
import InfraOperator.Cycle.Failures
import InfraOperator.Settings

/-!
# The controller of revisions

A cycle keeps a revision listed in its plan and its use counted, or takes a deleted one off its
plan. Consumers come and go without a change of the revision, so a cycle is always run again.
-/

set_option autoImplicit false

namespace InfraOperator.Catalog

def controllerName : String := "terrace-revision-controller"

abbrev RevisionPipeline := Pipeline RevisionStore Revision Scratch

def provisioningSteps : List (RevisionStep Scratch) :=
  [ensureFinalizer RevisionStore.finalizers cleanupFinalizer, ensurePlanMembership,
    ensureInUseCount, ensureReady]

def deletionSteps : List (RevisionStep Scratch) :=
  [ensurePlanMembershipRemoved,
    ensureFinalizerRemoved RevisionStore.finalizers cleanupFinalizer]

def pipelineFor (deleting : Bool) : Outcome RevisionPipeline :=
  if deleting then Pipeline.build "revision-deletion" deletionSteps
  else Pipeline.build "revision" provisioningSteps

def failureKey (r : Revision) : String := Failures.objectKey none r.name

def startCycle (r : Revision) (deleting : Bool) :
    Program (Supervised RevisionStore) (Cycle Revision Scratch) := do
  let cycle := Cycle.start r ({} : Scratch)
  if deleting then return cycle
  else
    let now ← Supervised.plain .clock
    return cycle.register Revision.conditionTypes now

def reconcile (settings : Settings) (r : Revision) (failures : Failures) :
    Program (Supervised RevisionStore) (Outcome Action × Failures) := do
  let deleting := r.metadata.isDeleting
  if deleting ∧ r.metadata.isDeletionCandidate cleanupFinalizer = false then
    return (.ok .awaitChange, failures.reset (failureKey r))
  else
    let cycle ← startCycle r deleting
    match pipelineFor deleting with
    | .error e => return (.error e, failures)
    | .ok pipeline =>
      Supervised.log .debug "reconciling revision"
        [("steps", Text.quotedList pipeline.stepNames), ("deleting", toString deleting)]
      let (result, _) ← pipeline.execute RevisionStore.statuses cycle
      match result with
      | .error e => return (.error e, failures)
      | .ok directive =>
        let resync := if deleting then none else some settings.resync
        return (.ok (directive.toAction resync), failures.reset (failureKey r))

def errorPolicy (r : Revision) (e : Failure) (failures : Failures) (now : Instant) :
    Action × Failures × LogLine :=
  failures.afterFailure (failureKey r) ("revision", r.name) e now

end InfraOperator.Catalog
