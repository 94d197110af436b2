import InfraOperator.Object.Record

/-!
# Conditions

A condition says of one concern of a resource whether it holds, why, for which generation of the
resource this was found out, and since when.
-/

set_option autoImplicit false

namespace InfraOperator

inductive ConditionStatus where
  | true
  | false
  | unknown
  deriving DecidableEq, Repr

inductive ConditionReason where
  | ready
  | inProgress
  | warning
  | actionRequired
  | error
  | disabled
  deriving DecidableEq, Repr

structure Condition where
  type : String
  status : ConditionStatus
  reason : ConditionReason
  message : String
  observedGeneration : Int
  lastTransitionTime : Instant
  deriving DecidableEq, Repr

namespace ConditionStatus

def text : ConditionStatus → String
  | .true => "True"
  | .false => "False"
  | .unknown => "Unknown"

def ofText? : String → Option ConditionStatus
  | "True" => some .true
  | "False" => some .false
  | "Unknown" => some .unknown
  | _ => none

theorem ofText?_text (s : ConditionStatus) : ofText? s.text = some s := by cases s <;> rfl

end ConditionStatus

namespace ConditionReason

def text : ConditionReason → String
  | .ready => "Ready"
  | .inProgress => "InProgress"
  | .warning => "Warning"
  | .actionRequired => "ActionRequired"
  | .error => "Error"
  | .disabled => "Disabled"

def ofText? : String → Option ConditionReason
  | "Ready" => some .ready
  | "InProgress" => some .inProgress
  | "Warning" => some .warning
  | "ActionRequired" => some .actionRequired
  | "Error" => some .error
  | "Disabled" => some .disabled
  | _ => none

theorem ofText?_text (r : ConditionReason) : ofText? r.text = some r := by cases r <;> rfl

end ConditionReason

namespace Condition

def registered (type : String) (now : Instant) : Condition :=
  ⟨type, .unknown, .inProgress, "", 0, now⟩

def isComplete (c : Condition) (generation : Int) : Bool :=
  c.status = .true && c.observedGeneration = generation

def display (c : Condition) : String := c.status.text ++ "/" ++ c.reason.text

def read (d : Document) : Option Condition := do
  let fields ← Read.record
    ["type", "status", "reason", "message", "observedGeneration", "lastTransitionTime"] d
  return {
    type := ← fields.required "type" Read.text
    status := ← fields.required "status" fun d => (Read.tag d).bind ConditionStatus.ofText?
    reason := ← fields.required "reason" fun d => (Read.tag d).bind ConditionReason.ofText?
    message := ← fields.defaulting "message" Read.text ""
    observedGeneration := ← fields.defaulting "observedGeneration" (Read.int .int64) 0
    lastTransitionTime := ← fields.required "lastTransitionTime" Read.instant }

def toJson (c : Condition) : Json :=
  .object [("lastTransitionTime", Write.instant c.lastTransitionTime), ("message", .str c.message),
    ("observedGeneration", .int c.observedGeneration), ("reason", .str c.reason.text),
    ("status", .str c.status.text), ("type", .str c.type)]

def readStatus (d : Document) : Option (List Condition) := do
  (← Read.record ["conditions"] d).defaulting "conditions" (Read.list read) []

def statusJson (conditions : List Condition) : Json :=
  .object [("conditions", Write.list toJson conditions)]

end Condition

def findCondition (conditions : List Condition) (type : String) : Option Condition :=
  conditions.find? (·.type = type)

/-- The conditions with what is missing of the types, unknown as yet, in their order. -/
def registerTypes (types : List String) (now : Instant) (conditions : List Condition) :
    List Condition :=
  types.foldl (fun conditions type =>
    if conditions.any (·.type = type) then conditions
    else conditions ++ [Condition.registered type now]) conditions

end InfraOperator
