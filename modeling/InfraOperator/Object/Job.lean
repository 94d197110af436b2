import InfraOperator.Object.Pod

/-!
# Jobs

A job runs pods of one template until one of them succeeds or the retries are used up, and counts
in its status how its pods ended. Fields that units do not use are kept in their shapes.
-/

set_option autoImplicit false

namespace InfraOperator

structure JobSpec where
  template : PodTemplate := {}
  backoffLimit : Option Int := none
  ttlSecondsAfterFinished : Option Int := none
  activeDeadlineSeconds : Option Int := none
  completionMode : Option String := none
  completions : Option Int := none
  manualSelector : Option Bool := none
  parallelism : Option Int := none
  suspend : Option Bool := none
  others : List (String × Json) := []
  deriving DecidableEq

structure JobCondition where
  type : String
  status : String
  message : Option String := none
  reason : Option String := none
  lastProbeTime : Option Instant := none
  lastTransitionTime : Option Instant := none
  deriving DecidableEq

structure JobStatus where
  active : Option Int := none
  succeeded : Option Int := none
  failed : Option Int := none
  ready : Option Int := none
  terminating : Option Int := none
  completedIndexes : Option String := none
  failedIndexes : Option String := none
  startTime : Option Instant := none
  completionTime : Option Instant := none
  conditions : Option (List JobCondition) := none
  others : List (String × Json) := []
  deriving DecidableEq

structure Job where
  metadata : ObjectMeta := {}
  spec : Option JobSpec := none
  status : Option JobStatus := none
  deriving DecidableEq

instance : Inhabited Job := ⟨{}⟩

namespace JobSpec

def podFailureRule : Shape :=
  .record [("action", .text)]
    [("onExitCodes", .record [("operator", .text), ("values", .list .int32)]
      [("containerName", .text)]),
      ("onPodConditions", .list (.record [("status", .text), ("type", .text)] []))]

def successRule : Shape := .loose [("succeededCount", .int32), ("succeededIndexes", .text)]

def otherFields : List (String × Shape) :=
  [("backoffLimitPerIndex", .int32), ("managedBy", .text), ("maxFailedIndexes", .int32),
    ("podFailurePolicy", .record [("rules", .list podFailureRule)] []),
    ("podReplacementPolicy", .text), ("selector", Shape.labelSelector),
    ("successPolicy", .record [("rules", .list successRule)] [])]

def read (d : Document) : Option JobSpec := do
  let fields ← Read.object d
  return {
    template := ← fields.filled "template" PodTemplate.read {}
    backoffLimit := ← fields.optional "backoffLimit" (Read.int .int32)
    ttlSecondsAfterFinished := ← fields.optional "ttlSecondsAfterFinished" (Read.int .int32)
    activeDeadlineSeconds := ← fields.optional "activeDeadlineSeconds" (Read.int .int64)
    completionMode := ← fields.optional "completionMode" Read.text
    completions := ← fields.optional "completions" (Read.int .int32)
    manualSelector := ← fields.optional "manualSelector" Read.bool
    parallelism := ← fields.optional "parallelism" (Read.int .int32)
    suspend := ← fields.optional "suspend" Read.bool
    others := ← Shape.readFields otherFields fields }

def toJson (s : JobSpec) : Json :=
  .object <|
    Json.field "activeDeadlineSeconds" Write.int s.activeDeadlineSeconds ++
    Json.field "backoffLimit" Write.int s.backoffLimit ++
    Json.field "completionMode" Write.text s.completionMode ++
    Json.field "completions" Write.int s.completions ++
    Json.field "manualSelector" Write.bool s.manualSelector ++
    Json.field "parallelism" Write.int s.parallelism ++
    Json.field "suspend" Write.bool s.suspend ++
    [("template", s.template.toJson)] ++
    Json.field "ttlSecondsAfterFinished" Write.int s.ttlSecondsAfterFinished ++
    s.others

end JobSpec

namespace JobCondition

def read (d : Document) : Option JobCondition := do
  let fields ← Read.object d
  return {
    type := ← fields.filled "type" Read.text ""
    status := ← fields.filled "status" Read.text ""
    message := ← fields.optional "message" Read.text
    reason := ← fields.optional "reason" Read.text
    lastProbeTime := ← fields.optional "lastProbeTime" Read.instant
    lastTransitionTime := ← fields.optional "lastTransitionTime" Read.instant }

def toJson (c : JobCondition) : Json :=
  .object <|
    Json.field "lastProbeTime" Write.second c.lastProbeTime ++
    Json.field "lastTransitionTime" Write.second c.lastTransitionTime ++
    Json.field "message" Write.text c.message ++
    Json.field "reason" Write.text c.reason ++
    [("status", .str c.status), ("type", .str c.type)]

def isTrue (c : JobCondition) (type : String) : Bool := c.type = type && c.status = "True"

end JobCondition

namespace JobStatus

/-- Pods that ended but are not counted yet. -/
def otherFields : List (String × Shape) :=
  [("uncountedTerminatedPods", .loose [("failed", .texts), ("succeeded", .texts)])]

def read (d : Document) : Option JobStatus := do
  let fields ← Read.object d
  return {
    active := ← fields.optional "active" (Read.int .int32)
    succeeded := ← fields.optional "succeeded" (Read.int .int32)
    failed := ← fields.optional "failed" (Read.int .int32)
    ready := ← fields.optional "ready" (Read.int .int32)
    terminating := ← fields.optional "terminating" (Read.int .int32)
    completedIndexes := ← fields.optional "completedIndexes" Read.text
    failedIndexes := ← fields.optional "failedIndexes" Read.text
    startTime := ← fields.optional "startTime" Read.instant
    completionTime := ← fields.optional "completionTime" Read.instant
    conditions := ← fields.optional "conditions" (Read.list JobCondition.read)
    others := ← Shape.readFields otherFields fields }

def toJson (s : JobStatus) : Json :=
  .object <|
    Json.field "active" Write.int s.active ++
    Json.field "completedIndexes" Write.text s.completedIndexes ++
    Json.field "completionTime" Write.second s.completionTime ++
    Json.field "conditions" (Write.list JobCondition.toJson) s.conditions ++
    Json.field "failed" Write.int s.failed ++
    Json.field "failedIndexes" Write.text s.failedIndexes ++
    Json.field "ready" Write.int s.ready ++
    Json.field "startTime" Write.second s.startTime ++
    Json.field "succeeded" Write.int s.succeeded ++
    Json.field "terminating" Write.int s.terminating ++
    s.others

end JobStatus

namespace Job

def read (d : Document) : Option Job := do
  let fields ← Read.object d
  fields.fixed "apiVersion" "batch/v1"
  fields.fixed "kind" "Job"
  return {
    metadata := ← fields.filled "metadata" ObjectMeta.read {}
    spec := ← fields.optional "spec" JobSpec.read
    status := ← fields.optional "status" JobStatus.read }

def toJson (job : Job) : Json :=
  .object <|
    [("apiVersion", .str "batch/v1"), ("kind", .str "Job"), ("metadata", job.metadata.toJson)] ++
    Json.field "spec" JobSpec.toJson job.spec ++
    Json.field "status" JobStatus.toJson job.status

end Job

end InfraOperator
