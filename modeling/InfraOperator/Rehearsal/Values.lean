import InfraOperator.Cycle.Pipeline
import InfraOperator.Decimal.Shortest
import InfraOperator.Settings
import InfraOperator.Unit.Basic

/-!
# Values of rehearsals

How rehearsals write what a cycle is given and what comes of it: spans of time and instants as
pairs of seconds and nanoseconds, failures by their kind and text, actions by their name.
-/

set_option autoImplicit false

namespace InfraOperator

namespace Read

def span : Reader Span
  | .arr [s, n] => do
    let nanos ← Read.nat .nat32 n
    if nanos < Span.perSecond then return .ofParts (← Read.nat .nat64 s) nanos else none
  | _ => none

/-- Seconds since the epoch and the nanoseconds beyond them; none beyond the calendar. -/
def moment : Reader (Option Instant)
  | .arr [s, n] => do return Instant.ofParts? (← Read.int .int64 s) (← Read.nat .nat32 n)
  | _ => none

def rational : Reader Rat
  | .int i => some i
  | .double bits => some (Decimal.valueOfBits bits)
  | _ => none

def textOrEmpty (fields : Fields) (name : String) : Option String :=
  fields.filled name Read.text ""

def flag (fields : Fields) (name : String) : Option Bool := fields.filled name Read.bool false

def stage (d : Document) : Option Stage := (Read.text d).bind Stage.ofText?

/-- A retry as a marker or as an instant; a marker that says nothing is none. -/
def retry : Reader (Option Instant)
  | .null => some none
  | .str s => some (readRetryMarker? s)
  | d => moment d

def refusal (fields : Fields) (code : Nat) : Option Failure := do
  match ← fields.optional "message" Read.text, ← fields.optional "reason" Read.text with
  | none, none => return .ofCode code
  | message, reason => return .refused ⟨"Failure", message.getD "", reason.getD "", code⟩

def failureOfKind (fields : Fields) (message : String) : String → Option Failure
  | "validation" => do
    let resource ← fields.optional "resource" Read.text
    return .validation (resource.getD Failure.unknown) message
  | "serialization" => do return .serialization message (← fields.optional "for" Read.text)
  | "render" => do return .render (← textOrEmpty fields "stage") message
  | "cancelled" => some .cancelled
  | "internal" => do
    let context ← fields.optional "context" Read.text
    return .internal (context.getD Failure.unknown) message
  | "kube" => some (.api .lineTooLong)
  | _ => none

def failure (d : Document) : Option Failure := do
  let fields ← Read.object d
  match fields.lookup "api" with
  | some code => refusal fields (← Read.nat .nat16 code)
  | none =>
    failureOfKind fields (← textOrEmpty fields "message") (← fields.required "kind" Read.text)

def fault : Reader (Option Failure)
  | .null => some none
  | d => (failure d).map some

def faults : Reader (List (Option Failure))
  | .null => some []
  | d => Read.list fault d

def settings (fields : Fields) : Option Settings := do
  let fields ← fields.filled "settings" Read.object []
  let d : Settings := {}
  return {
    namespaceName := ← fields.filled "namespace" Read.text d.namespaceName
    executorImage := ← fields.filled "executorImage" Read.text d.executorImage
    policyImage := ← fields.filled "policyImage" Read.text d.policyImage
    infracostImage := ← fields.filled "infracostImage" Read.text d.infracostImage
    costAnalysis := ← fields.filled "costAnalysis" Read.bool d.costAnalysis
    watchers := ← fields.filled "watchers" Read.bool d.watchers
    resync := ← fields.filled "resync" span d.resync
    expiration := ← fields.optional "expiration" span
    checkInterval := ← fields.filled "checkInterval" span d.checkInterval }

def measure (name : String) (arguments : List String) : Option Measure :=
  match name, arguments with
  | "reconcile_finished", [kind, outcome] => some (.reconcileFinished kind outcome)
  | "unit_created", [kind, stage] => some (.unitCreated kind stage)
  | "condition_transitioned", [kind, condition, reason] =>
    some (.conditionTransitioned kind condition reason)
  | "revision_expired", [plan] => some (.revisionExpired plan)
  | _, _ => none

end Read

namespace Failure

def kindName : Failure → String
  | .api _ => "Kube"
  | .validation .. => "Validation"
  | .serialization .. => "Serialization"
  | .render .. => "Render"
  | .cancelled => "Cancelled"
  | .internal .. => "Internal"

def apiCause? : Failure → Option ApiFailure
  | .api cause => some cause
  | _ => none

def serializationKind? : Failure → Option String
  | .serialization _ kind => kind
  | _ => none

def fixedMessage? : Failure → Option String
  | .api .unreadableAnswer | .api .invalidRequest => none
  | e => some e.message

end Failure

def ApiFailure.kindName : ApiFailure → String
  | .refused _ => "Api"
  | .unreadableAnswer => "SerdeError"
  | .invalidRequest => "BuildRequest"
  | .lineTooLong => "LinesCodecMaxLineLengthExceeded"

namespace Measure

def name : Measure → String
  | .reconcileFinished .. => "reconcile_finished"
  | .unitCreated .. => "unit_created"
  | .conditionTransitioned .. => "condition_transitioned"
  | .revisionExpired .. => "revision_expired"

def arguments : Measure → List String
  | .reconcileFinished kind outcome => [kind, outcome]
  | .unitCreated kind stage => [kind, stage]
  | .conditionTransitioned kind condition reason => [kind, condition, reason]
  | .revisionExpired plan => [plan]

end Measure

namespace Write

def span (s : Span) : Json := .arr [.int s.seconds, .int s.subsecond]

def moment (i : Instant) : Json := .arr [.int i.seconds, .int i.nanos]

def failureFields (kindKey : String) (e : Failure) : List (String × Json) :=
  [(kindKey, .str e.kindName),
    ("notFound", .bool e.isNotFound), ("conflict", .bool e.isConflict),
    ("retryable", .bool e.isRetryable)] ++
  Json.field "context" .str e.context? ++
  Json.field "kind" .str e.serializationKind? ++
  Json.field "kube" (fun cause => .str cause.kindName) e.apiCause? ++
  Json.field "code" Write.nat e.code?

def failureUnder (kindKey : String) (e : Failure) : Json :=
  .object (failureFields kindKey e ++ Json.field "message" .str e.fixedMessage?)

def failure (e : Failure) : Json := failureUnder "error" e

def outcome {α : Type} (value : α → Json) : Outcome α → Json
  | .ok a => value a
  | .error e => failure e

def action : Action → Json
  | .awaitChange => .str "await_change"
  | .requeue delay => .object [("requeue", span delay)]

def directive : Directive → Json
  | .done => .str "done"
  | .requeueNow => .str "requeue_now"
  | .requeue delay => .object [("requeue", span delay)]

def settings (s : Settings) : Json :=
  .object [
    ("namespace", .str s.namespaceName), ("executorImage", .str s.executorImage),
    ("policyImage", .str s.policyImage), ("infracostImage", .str s.infracostImage),
    ("costAnalysis", .bool s.costAnalysis), ("watchers", .bool s.watchers),
    ("maxConcurrency", .int s.maxConcurrency), ("resync", span s.resync),
    ("expiration", option span s.expiration), ("checkInterval", span s.checkInterval)]

def notice (n : Notice) : Json :=
  .object [("object", option .str n.object.name), ("warning", .bool n.warning),
    ("reason", .str n.reason), ("action", .str n.action), ("note", option .str n.note)]

def logLine (l : LogLine) : Json :=
  .arr [.str l.level.text, .str l.message, labels (.ofList l.fields)]

def conditionEvent (e : ConditionEvent) : Json :=
  .object [("condition", .str e.condition), ("reason", .str e.reason.text),
    ("message", .str e.message), ("warning", .bool e.isWarning)]

end Write

end InfraOperator
