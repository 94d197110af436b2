import InfraOperator.Failure
import InfraOperator.Object.Job
import InfraOperator.Resource.Basic

/-!
# Execution units

An execution unit is a job that runs one stage for one generation of a resource. Which stage,
generation and resource it runs for, and which wish for a retry it answers, is told by its labels;
whether it is complete, failed or still active by its status.
-/

set_option autoImplicit false

namespace InfraOperator

inductive Stage where
  | plan
  | apply
  | destroy
  | verify
  deriving DecidableEq, Repr

namespace Stage

def text : Stage → String
  | .plan => "plan"
  | .apply => "apply"
  | .destroy => "destroy"
  | .verify => "verify"

def ofText? : String → Option Stage
  | "plan" => some .plan
  | "apply" => some .apply
  | "destroy" => some .destroy
  | "verify" => some .verify
  | _ => none

theorem ofText?_text (s : Stage) : ofText? s.text = some s := by cases s <;> rfl

def parse (label : String) : Outcome Stage :=
  match ofText? label with
  | some stage => .ok stage
  | none => .error (.validation Failure.unknown ("unknown stage label: " ++ label))

end Stage

inductive UnitState where
  | complete
  | failed
  | active
  deriving DecidableEq, Repr

namespace Job

def statusOrEmpty (job : Job) : JobStatus := job.status.getD {}

def activeCount (job : Job) : Int := job.statusOrEmpty.active.getD 0
def succeededCount (job : Job) : Int := job.statusOrEmpty.succeeded.getD 0
def failedCount (job : Job) : Int := job.statusOrEmpty.failed.getD 0
def jobConditions (job : Job) : List JobCondition := job.statusOrEmpty.conditions.getD []

def isComplete (job : Job) : Bool := 0 < job.succeededCount

def isFailed (job : Job) : Bool :=
  0 < job.failedCount || job.jobConditions.any (·.isTrue "Failed")

/-- Anything runs, or nothing has succeeded, or nothing has failed, or nothing is recorded: a
unit may be complete or failed and pass this all the same. -/
def isActive (job : Job) : Bool :=
  0 < job.activeCount || job.succeededCount = 0 || job.failedCount = 0 ||
    job.jobConditions.isEmpty

def isActiveStrict (job : Job) : Bool :=
  0 < job.activeCount || (job.succeededCount = 0 && job.failedCount = 0)

/-- Complete goes before failed. -/
def state (job : Job) : UnitState :=
  if job.isComplete then .complete
  else if job.isFailed then .failed
  else .active

def failureMessage (job : Job) : Option String :=
  (job.jobConditions.find? (·.isTrue "Failed")).bind (·.message)

def stage? (job : Job) : Option Stage := (job.metadata.label? Label.stage).bind Stage.ofText?

def readLabel (job : Job) (key : String) : Option Int :=
  (job.metadata.label? key).bind (Text.readInt? .int64)

def generation? (job : Job) : Option Int := job.readLabel Label.generation

def retry? (job : Job) : Option Int := job.readLabel Label.retry

def ownerUid? (job : Job) : Option String := job.metadata.label? Label.ownerUid

def createdAt? (job : Job) : Option Instant := job.metadata.creationTimestamp

def configuration? (job : Job) : Option (String × String) :=
  if job.metadata.label? Label.component = some Label.executor then do
    return (← job.metadata.label? Label.ownerName, ← job.metadata.label? Label.ownerNamespace)
  else none

end Job

/-- The time a retry is wished for: RFC 3339, or seconds since 1970. -/
def readRetryMarker? (text : String) : Option Instant :=
  let cs := Text.trim text.toList
  match Rfc3339.readStrict? cs with
  | some instant => some instant
  | none => (Text.readInt? .int64 (String.ofList cs)).bind Instant.ofSeconds?

def unitLabels (stage : Stage) (generation : Int) (retry : Option Instant) (owner : ObjectMeta) :
    Dict String :=
  .ofList <|
    [(Label.managedBy, Label.operator), (Label.component, Label.executor),
      (Label.stage, stage.text), (Label.generation, toString generation)] ++
    (retry.map fun i => (Label.retry, toString i.seconds)).toList ++
    (owner.uid.map fun uid => (Label.ownerUid, uid)).toList ++
    (owner.name.map fun name => (Label.ownerName, name)).toList ++
    (owner.namespaceName.map fun ns => (Label.ownerNamespace, ns)).toList

end InfraOperator
