import InfraOperator.Catalog.Store
import InfraOperator.Cluster.Basic
import InfraOperator.Provisioning.Store

/-!
# Calls on a cluster in memory

A cluster answers every call of a cycle. Writes of a status and of the revisions of a plan are
refused under a version that is not current, creations of what exists already; a refused call
leaves the cluster as it was.
-/

set_option autoImplicit false

namespace InfraOperator.Cluster

structure Habits where
  /-- Units are listed whatever their namespace and labels. -/
  listsEverything : Bool := false
  /-- When new jobs are created. -/
  createdAt : Option Instant := none
  consumers : Option Nat := none
  deriving DecidableEq

def isUnitOf (namespaceName ownerUid : String) (job : Job) : Bool :=
  job.metadata.namespaceName = some namespaceName && job.ownerUid? = some ownerUid &&
    job.metadata.label? Label.component = some Label.executor

def isConfiguration (name namespaceName : String) (c : Configuration) : Bool :=
  c.metadata.isAt name namespaceName

def isSecret (name namespaceName : String) (s : Secret) : Bool := s.metadata.isAt name namespaceName

def isRevision (name : String) (r : Revision) : Bool := r.metadata.isNamed name

def isPlan (name : String) (p : Plan) : Bool := p.metadata.isNamed name

def withStatusOf (update stored : Configuration) : Configuration :=
  { stored with metadata := stored.metadata.bump, status := update.status }

def patchConfigurationStatus (c : Cluster) (update : Configuration) : Outcome Unit × Cluster :=
  let (outcome, configurations) := Shelf.write
    (fun stored => stored.metadata.sameObject update.metadata)
    (fun stored => !stored.metadata.isStale update.metadata.resourceVersion)
    (withStatusOf update) c.configurations
  (outcome, { c with configurations })

def addConfigurationFinalizer (c : Cluster) (name namespaceName finalizer : String) :
    Outcome Unit × Cluster :=
  let (outcome, configurations) := Shelf.write (isConfiguration name namespaceName)
    (fun _ => true)
    (fun stored => { stored with metadata := stored.metadata.addFinalizer finalizer })
    c.configurations
  (outcome, { c with configurations })

/-- What is left of objects when the finalizer of one is removed: an object that nothing holds
back any longer goes with it. -/
def releasing {α : Type} (metadata : α → ObjectMeta) (withMetadata : α → ObjectMeta → α)
    (isMeant : α → Bool) (finalizer : String) (objects : List α) : List α :=
  match objects.find? isMeant with
  | none => objects
  | some x =>
    let m := (metadata x).removeFinalizer finalizer
    if m.isReleased then Shelf.removeFirst isMeant objects
    else Shelf.updateFirst isMeant (fun stored => withMetadata stored m) objects

def createJob (h : Habits) (c : Cluster) (job : Job) : Cluster :=
  let stored : Job :=
    { job with
      metadata := { job.metadata with creationTimestamp := h.createdAt } }
  { c with jobs := (Shelf.create Job.metadata stored c.jobs).2 }

def patchSecretData (c : Cluster) (name namespaceName : String) (data : Dict Bytes) :
    Outcome Unit × Cluster :=
  let (outcome, secrets) := Shelf.write (isSecret name namespaceName) (fun _ => true)
    (fun stored => { stored with data := some ((stored.data.getD ∅).merge data) }) c.secrets
  (outcome, { c with secrets })

def deleteSecret (c : Cluster) (name namespaceName : String) : Bool × Cluster :=
  (c.secrets.any (isSecret name namespaceName),
    { c with secrets := c.secrets.filter fun stored => !isSecret name namespaceName stored })

def configurationCall (h : Habits) :
    (call : ConfigurationCall) → Cluster → Outcome call.Answer × Cluster
  | .getConfiguration name ns, c => (.ok (c.configurations.find? (isConfiguration name ns)), c)
  | .patchStatus update, c => c.patchConfigurationStatus update
  | .addFinalizer name ns finalizer, c => c.addConfigurationFinalizer name ns finalizer
  | .removeFinalizer name ns finalizer, c =>
    (.ok (), { c with
      configurations := releasing Configuration.metadata Resource.withMetadata
        (isConfiguration name ns) finalizer c.configurations })
  | .getProvider name, c => (.ok (c.providers.find? fun p => p.metadata.isNamed name), c)
  | .listPolicies, c => (.ok c.policies, c)
  | .listUnits ns uid, c =>
    (.ok (if h.listsEverything then c.jobs else c.jobs.filter (isUnitOf ns uid)), c)
  | .createJob job, c => (.ok (), c.createJob h job)
  | .deleteUnits ns uid, c =>
    (.ok (), { c with jobs := c.jobs.filter fun job => !isUnitOf ns uid job })
  | .getSecret name ns, c => (.ok (c.secrets.find? (isSecret name ns)), c)
  | .createSecret secret, c =>
    let (outcome, secrets) := Shelf.create Secret.metadata secret c.secrets
    (outcome, { c with secrets })
  | .patchSecretData name ns data, c => c.patchSecretData name ns data
  | .deleteSecret name ns, c =>
    let (found, c) := c.deleteSecret name ns
    (.ok found, c)

def patchRevisionStatus (c : Cluster) (update : Revision) : Outcome Unit × Cluster :=
  let (outcome, revisions) := Shelf.write
    (fun stored => stored.metadata.name = update.metadata.name)
    (fun stored => !stored.metadata.isStale update.metadata.resourceVersion)
    (fun stored => { stored with metadata := stored.metadata.bump, status := update.status })
    c.revisions
  (outcome, { c with revisions })

def addRevisionFinalizer (c : Cluster) (name finalizer : String) : Outcome Unit × Cluster :=
  let (outcome, revisions) := Shelf.write (isRevision name) (fun _ => true)
    (fun stored => { stored with metadata := stored.metadata.addFinalizer finalizer })
    c.revisions
  (outcome, { c with revisions })

def createPlan (c : Cluster) (plan : Plan) : Outcome Unit × Cluster :=
  if c.plans.any fun stored => stored.metadata.name = plan.metadata.name then
    (.error .conflict, c)
  else (.ok (), { c with plans := c.plans ++ [{ plan with metadata := plan.metadata.bump }] })

def patchPlanRevisions (c : Cluster) (update : Plan) : Outcome Unit × Cluster :=
  let (outcome, plans) := Shelf.write
    (fun stored => stored.metadata.name = update.metadata.name)
    (fun stored => !stored.metadata.isStale update.metadata.resourceVersion)
    (fun stored =>
      { stored with metadata := stored.metadata.bump, revisions := update.revisions })
    c.plans
  (outcome, { c with plans })

def patchPlanStatus (c : Cluster) (name : String) (latest : Option PlanEntry) :
    Outcome Unit × Cluster :=
  let (outcome, plans) := Shelf.write (isPlan name) (fun _ => true)
    (fun stored => { stored with metadata := stored.metadata.bump, status := some latest }) c.plans
  (outcome, { c with plans })

def consumerCount (h : Habits) (c : Cluster) (plan version : String) : Nat :=
  match h.consumers with
  | some count => count
  | none => (c.cloudResources.filter (·.consumes plan version)).length

def revisionCall (h : Habits) : (call : RevisionCall) → Cluster → Outcome call.Answer × Cluster
  | .getRevision name, c => (.ok (c.revisions.find? (isRevision name)), c)
  | .patchStatus update, c => c.patchRevisionStatus update
  | .addFinalizer name finalizer, c => c.addRevisionFinalizer name finalizer
  | .removeFinalizer name finalizer, c =>
    (.ok (), { c with
      revisions := releasing Revision.metadata Resource.withMetadata (isRevision name) finalizer
        c.revisions })
  | .listPlanRevisions plan, c => (.ok (c.revisions.filter (·.spec.planName = plan)), c)
  | .deleteRevision name, c =>
    (.ok (), { c with revisions := c.revisions.filter fun stored => !isRevision name stored })
  | .getPlan name, c => (.ok (c.plans.find? (isPlan name)), c)
  | .createPlan plan, c => c.createPlan plan
  | .patchPlanRevisions plan, c => c.patchPlanRevisions plan
  | .patchPlanStatus name latest, c => c.patchPlanStatus name latest
  | .countConsumers plan version, c => (.ok (c.consumerCount h plan version), c)

end InfraOperator.Cluster
