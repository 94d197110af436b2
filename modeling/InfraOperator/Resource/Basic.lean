import InfraOperator.Object.Meta
import InfraOperator.Resource.Condition

/-!
# Resources of the operator

The names that mark the operator's own kinds, labels and annotations, and what is common to the
kinds a cycle may run over: metadata, and a status with conditions.
-/

set_option autoImplicit false

namespace InfraOperator

namespace Group

def name : String := "terrace.dev"
def apiVersion : String := "terrace.dev/v1alpha1"

end Group

namespace Label

def stage : String := "terrace.dev/stage"
def generation : String := "terrace.dev/generation"
def retry : String := "terrace.dev/retry"
def plan : String := "terrace.dev/plan"
def revision : String := "terrace.dev/revision"
def ownerUid : String := "terrace.dev/owner-uid"
def ownerName : String := "terrace.dev/owner-name"
def ownerNamespace : String := "terrace.dev/owner-namespace"
def component : String := "terrace.dev/component"
def managedBy : String := "app.kubernetes.io/managed-by"

def operator : String := "terrace"

/-- The value of `component` on execution units, and on the jobs that follow their logs. -/
def executor : String := "executor"
def watcher : String := "watcher"

end Label

namespace Annotation

def apply : String := "terrace.dev/apply"

def orphan : String := "terrace.dev/orphan"

def retry : String := "terrace.dev/retry"

end Annotation

def cleanupFinalizer : String := "terrace.dev/cleanup"

def readyCondition : String := "Ready"

/-- A kind of resource whose status lists conditions. Setting them makes a status if need be. -/
class Resource (R : Type) where
  kind : String
  metadata : R → ObjectMeta
  withMetadata : R → ObjectMeta → R
  conditions : R → List Condition
  withConditions : R → List Condition → R

namespace Resource

variable {R : Type} [Resource R]

def generation (r : R) : Int := (metadata r).generationOrZero

def condition? (r : R) (type : String) : Option Condition := findCondition (conditions r) type

def reference (r : R) : ObjectReference :=
  let m := metadata r
  { apiVersion := some Group.apiVersion
    kind := some (kind R)
    name := m.name
    namespaceName := m.namespaceName
    uid := m.uid }

def withResourceVersion (r : R) (version : Option String) : R :=
  withMetadata r { metadata r with resourceVersion := version }

def registerConditions (r : R) (types : List String) (now : Instant) : R :=
  withConditions r (registerTypes types now (conditions r))

end Resource

def writeObject (kind : String) (metadata : ObjectMeta) (spec : Json) (status : Option Json) :
    Json :=
  .object <|
    [("apiVersion", .str Group.apiVersion), ("kind", .str kind), ("metadata", metadata.toJson),
      ("spec", spec)] ++ Json.field "status" id status

def readObject (d : Document) : Option Fields :=
  match d with
  | .arr items => if items.length = 3 then Read.record ["metadata", "spec", "status"] d else none
  | _ => Read.record ["metadata", "spec", "status"] d

end InfraOperator
