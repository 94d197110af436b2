import InfraOperator.Api.Client

/-!
# Events

A notice is published as an event on the API server. The same notice again within a while only
counts up the series of the event that is there already, which keeps its first note. That an event
cannot be published is logged and otherwise passed over.
-/

set_option autoImplicit false

namespace InfraOperator.Api

structure Reporter where
  controller : String
  podName : Option String := none
  deriving DecidableEq

structure RecordedEvent where
  notice : Notice
  name : String
  time : Instant
  /-- How often it was published, and when last, from the second time on. -/
  series : Option (Nat × Instant) := none
  deriving DecidableEq

structure Recorder where
  reporter : Reporter
  published : List RecordedEvent := []
  deriving DecidableEq

namespace RecordedEvent

def repeats (e : RecordedEvent) (n : Notice) : Bool :=
  e.notice.object = n.object && e.notice.warning = n.warning && e.notice.reason = n.reason &&
    e.notice.action = n.action

def lastTime (e : RecordedEvent) : Instant :=
  match e.series with
  | some (_, last) => last
  | none => e.time

def again (e : RecordedEvent) (now : Instant) : RecordedEvent :=
  match e.series with
  | some (count, _) => { e with series := some (count + 1, now) }
  | none => { e with series := some (2, now) }

/-- Events are named after their object and the time. -/
def first (r : Reporter) (n : Notice) (now : Instant) : RecordedEvent :=
  { notice := n
    name := n.object.name.getD r.controller ++ "." ++
      String.ofList (Nat.toDigits 16 now.sinceEpoch.toNat)
    time := now }

def toJson (e : RecordedEvent) (r : Reporter) : Json :=
  .object <|
    [("apiVersion", .str "events.k8s.io/v1"),
      ("kind", .str "Event"),
      ("action", .str e.notice.action),
      ("eventTime", .str (Rfc3339.printMicros e.time)),
      ("metadata", .object <|
        [("name", .str e.name)] ++ Json.field "namespace" .str e.notice.object.namespaceName),
      ("reason", .str e.notice.reason),
      ("regarding", e.notice.object.toJson),
      ("reportingController", .str r.controller),
      ("reportingInstance", .str (r.podName.getD r.controller)),
      ("type", .str (if e.notice.warning then "Warning" else "Normal"))] ++
    Json.field "note" .str e.notice.note ++
    Json.field "series" (fun (count, last) =>
      .obj [("count", Write.nat count), ("lastObservedTime", .str (Rfc3339.printMicros last))])
      e.series

end RecordedEvent

namespace Read

def series (d : Document) : Option Unit := do
  let fields ← Read.object d
  let _ ← fields.filled "count" (Read.int .int32) 0
  let last ← fields.optional "lastObservedTime" Read.instant
  last.map fun _ => ()

def source (d : Document) : Option Unit := do
  let fields ← Read.object d
  let _ ← fields.optional "component" Read.text
  let _ ← fields.optional "host" Read.text

def event (d : Document) : Option Unit := do
  let fields ← Read.object d
  fields.fixed "apiVersion" "events.k8s.io/v1"
  fields.fixed "kind" "Event"
  for name in ["action", "note", "reason", "reportingController", "reportingInstance", "type"] do
    let _ ← fields.optional name Read.text
  for name in ["eventTime", "deprecatedFirstTimestamp", "deprecatedLastTimestamp"] do
    let _ ← fields.optional name Read.instant
  for name in ["regarding", "related"] do
    let _ ← fields.optional name ObjectReference.read
  let _ ← fields.optional "deprecatedCount" (Read.int .int32)
  let _ ← fields.optional "deprecatedSource" source
  let _ ← fields.optional "metadata" ObjectMeta.read
  let _ ← fields.optional "series" series

end Read

/-- Events of an object live in its namespace, or in the default one. -/
def events (object : ObjectReference) : Collection Unit :=
  ⟨Collection.pathOf "/apis/events.k8s.io/v1" (some (object.namespaceName.getD "default")) "events",
    Read.event⟩

namespace Recorder

/-- Events not published for so long are forgotten. -/
def keptFor : Span := .ofSeconds 360

def sweep (r : Recorder) (now : Instant) : Recorder :=
  { r with published := r.published.filter fun e => now.since e.lastTime < keptFor }

def find? (r : Recorder) (n : Notice) : Option RecordedEvent :=
  r.published.find? (·.repeats n)

def keep (r : Recorder) (e : RecordedEvent) : Recorder :=
  { r with published := r.published.filter (fun p => !p.repeats e.notice) ++ [e] }

def send (r : Recorder) (e : RecordedEvent) : Client Unit :=
  if e.series.isSome then (events e.notice.object).patch e.name (e.toJson r.reporter)
  else (events e.notice.object).create (e.toJson r.reporter)

def publish (n : Notice) (r : Recorder) : Program (Surroundings Http) Recorder := do
  let now ← Program.request (I := Surroundings Http) .clock
  let r := r.sweep now
  let e := match r.find? n with
    | some e => e.again now
    | none => .first r.reporter n now
  match ← (r.send e).run with
  | .ok () => return r.keep e
  | .error _ =>
    let line : LogLine :=
      ⟨.warn, "Failed to publish Kubernetes event", [("reason", n.reason), ("action", n.action)]⟩
    let _ ← Program.request (I := Surroundings Http) (.log line)
    return r

end Recorder

end InfraOperator.Api
