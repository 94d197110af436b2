import InfraOperator.Failure
import InfraOperator.Object.Job
import InfraOperator.Object.Secret
import InfraOperator.Resource.Configuration
import InfraOperator.Resource.Plan
import InfraOperator.Resource.Policy
import InfraOperator.Resource.Provider
import InfraOperator.Resource.Revision

/-!
# A cluster in memory

The objects of each kind in the order in which they came, found by name and, where they have one,
by namespace. Each write of an object raises its version by one.
-/

set_option autoImplicit false

namespace InfraOperator

namespace ObjectMeta

/-- The version as a number; one that does not read counts as zero. -/
def versionNumber (m : ObjectMeta) : Nat :=
  (m.resourceVersion.bind (Text.readNat? .nat64)).getD 0

def bump (m : ObjectMeta) : ObjectMeta :=
  { m with resourceVersion := some (toString (m.versionNumber + 1)) }

def isNamed (m : ObjectMeta) (name : String) : Bool := m.name = some name

def isAt (m : ObjectMeta) (name namespaceName : String) : Bool :=
  m.name = some name && m.namespaceName = some namespaceName

def sameObject (m other : ObjectMeta) : Bool :=
  m.name = other.name && m.namespaceName = other.namespaceName

def isStale (stored : ObjectMeta) (version : Option String) : Bool :=
  version.isSome && version ≠ stored.resourceVersion

def addFinalizer (m : ObjectMeta) (finalizer : String) : ObjectMeta :=
  if m.hasFinalizer finalizer then m
  else { m with finalizers := some (m.finalizers.getD [] ++ [finalizer]) }.bump

def removeFinalizer (m : ObjectMeta) (finalizer : String) : ObjectMeta :=
  let rest := (m.finalizers.getD []).filter (· ≠ finalizer)
  { m with finalizers := if rest.isEmpty then none else some rest }.bump

def isReleased (m : ObjectMeta) : Bool := m.isDeleting && (m.finalizers.getD []).isEmpty

end ObjectMeta

namespace Shelf

variable {α : Type}

def updateFirst (isMeant : α → Bool) (f : α → α) : List α → List α
  | [] => []
  | x :: rest => if isMeant x then f x :: rest else x :: updateFirst isMeant f rest

def removeFirst (isMeant : α → Bool) : List α → List α
  | [] => []
  | x :: rest => if isMeant x then rest else x :: removeFirst isMeant rest

def put (metadata : α → ObjectMeta) (x : α) (objects : List α) : List α :=
  if objects.any fun y => (metadata y).sameObject (metadata x) then
    updateFirst (fun y => (metadata y).sameObject (metadata x)) (fun _ => x) objects
  else objects ++ [x]

def write (isMeant : α → Bool) (mayWrite : α → Bool) (f : α → α) (objects : List α) :
    Outcome Unit × List α :=
  match objects.find? isMeant with
  | none => (.error .notFound, objects)
  | some x =>
    if mayWrite x then (.ok (), updateFirst isMeant f objects)
    else (.error .conflict, objects)

def create (metadata : α → ObjectMeta) (x : α) (objects : List α) : Outcome Unit × List α :=
  if objects.any fun y => (metadata y).sameObject (metadata x) then (.error .conflict, objects)
  else (.ok (), objects ++ [x])

end Shelf

structure Cluster where
  configurations : List Configuration := []
  providers : List Provider := []
  policies : List Policy := []
  jobs : List Job := []
  secrets : List Secret := []
  revisions : List Revision := []
  plans : List Plan := []
  cloudResources : List CloudResource := []

namespace Cluster

def putConfiguration (c : Cluster) (x : Configuration) : Cluster :=
  { c with configurations := Shelf.put Configuration.metadata x c.configurations }

def putProvider (c : Cluster) (x : Provider) : Cluster :=
  { c with providers := Shelf.put Provider.metadata x c.providers }

def putPolicy (c : Cluster) (x : Policy) : Cluster :=
  { c with policies := Shelf.put Policy.metadata x c.policies }

def putJob (c : Cluster) (x : Job) : Cluster :=
  { c with jobs := Shelf.put Job.metadata x c.jobs }

def putSecret (c : Cluster) (x : Secret) : Cluster :=
  { c with secrets := Shelf.put Secret.metadata x c.secrets }

def putRevision (c : Cluster) (x : Revision) : Cluster :=
  { c with revisions := Shelf.put Revision.metadata x c.revisions }

def putPlan (c : Cluster) (x : Plan) : Cluster :=
  { c with plans := Shelf.put Plan.metadata x c.plans }

def putCloudResource (c : Cluster) (x : CloudResource) : Cluster :=
  { c with cloudResources := Shelf.put CloudResource.metadata x c.cloudResources }

end Cluster

end InfraOperator
