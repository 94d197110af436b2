import InfraOperator.Cycle.Surroundings
import InfraOperator.Resource.Basic

/-!
# Cycles

A cycle owns a copy of the resource it was started for. Conditions are marked on the copy: a mark
that changes what the first condition of its type says is stamped with the time and leaves an
event, and one that repeats it only moves the condition to the current generation.
-/

set_option autoImplicit false

namespace InfraOperator

inductive Mark where
  | success
  | failed
  | inProgress
  | warning
  | actionRequired
  | disabled
  deriving DecidableEq, Repr

namespace Mark

def status : Mark → ConditionStatus
  | .success => .true
  | _ => .false

def reason : Mark → ConditionReason
  | .success => .ready
  | .failed => .error
  | .inProgress => .inProgress
  | .warning => .warning
  | .actionRequired => .actionRequired
  | .disabled => .disabled

end Mark

namespace Condition

def shows (c : Condition) (mark : Mark) (message : String) : Bool :=
  c.status = mark.status && c.reason = mark.reason && c.message = message

def marked (type : String) (mark : Mark) (message : String) (generation : Int) (now : Instant) :
    Condition :=
  ⟨type, mark.status, mark.reason, message, generation, now⟩

end Condition

namespace Conditions

def updateFirst (type : String) (f : Condition → Condition) : List Condition → List Condition
  | [] => []
  | c :: rest => if c.type = type then f c :: rest else c :: updateFirst type f rest

def shows (conditions : List Condition) (type : String) (mark : Mark) (message : String) : Bool :=
  match findCondition conditions type with
  | some c => c.shows mark message
  | none => false

def confirm (conditions : List Condition) (type : String) (generation : Int) : List Condition :=
  updateFirst type (fun c => { c with observedGeneration := generation }) conditions

def put (conditions : List Condition) (c : Condition) : List Condition :=
  if conditions.any (·.type = c.type) then updateFirst c.type (fun _ => c) conditions
  else conditions ++ [c]

end Conditions

structure ConditionEvent where
  condition : String
  reason : ConditionReason
  message : String
  deriving DecidableEq, Repr

def ConditionEvent.isWarning (e : ConditionEvent) : Bool := e.reason ≠ .ready

structure Cycle (R X : Type) where
  resource : R
  /-- Found out by one step for a later one. -/
  scratch : X
  /-- Conditions as read when the cycle began. -/
  initialConditions : List Condition
  events : List ConditionEvent := []
  /-- The status was changed beside its conditions. -/
  dirty : Bool := false

namespace Cycle

variable {R X : Type} [Resource R]

def start (resource : R) (scratch : X) : Cycle R X :=
  { resource, scratch, initialConditions := Resource.conditions resource }

def conditions (c : Cycle R X) : List Condition := Resource.conditions c.resource

def withConditions (c : Cycle R X) (conditions : List Condition) : Cycle R X :=
  { c with resource := Resource.withConditions c.resource conditions }

/-- The same conditions, in a status that is there from now on. -/
def track (c : Cycle R X) : Cycle R X := c.withConditions c.conditions

def generation (c : Cycle R X) : Int := Resource.generation c.resource

/-- The first condition of the type holds for the current generation. -/
def isComplete (c : Cycle R X) (type : String) : Bool :=
  match findCondition c.conditions type with
  | some condition => condition.isComplete c.generation
  | none => false

/-- Some condition of the type holds for the current generation. -/
def hasComplete (c : Cycle R X) (type : String) : Bool :=
  c.conditions.any fun condition => condition.type = type && condition.isComplete c.generation

def statusChanged (c : Cycle R X) : Bool := c.dirty || c.conditions ≠ c.initialConditions

def isDeleting (c : Cycle R X) : Bool := (Resource.metadata c.resource).isDeleting

def markDirty (c : Cycle R X) : Cycle R X := { c with dirty := true }

def confirm (c : Cycle R X) (type : String) : Cycle R X :=
  c.withConditions (Conditions.confirm c.conditions type c.generation)

def change (c : Cycle R X) (type : String) (mark : Mark) (message : String) (now : Instant) :
    Cycle R X :=
  { c.withConditions
      (Conditions.put c.conditions (Condition.marked type mark message c.generation now)) with
    events := c.events ++ [⟨type, mark.reason, message⟩] }

/-- Marks a condition at a time; whether that changed what it says. -/
def markAt (c : Cycle R X) (type : String) (mark : Mark) (message : String) (now : Instant) :
    Bool × Cycle R X :=
  if Conditions.shows c.conditions type mark message then (false, c.confirm type)
  else (true, c.change type mark message now)

def register (c : Cycle R X) (types : List String) (now : Instant) : Cycle R X :=
  { c with resource := Resource.registerConditions c.resource types now }

end Cycle

/-- Marks a condition of the cycle; the clock is read only if that changes what it says. -/
def mark {S : Interface} {R X : Type} [Resource R] (type : String) (mark : Mark)
    (message : String) : Staged S (Cycle R X) Unit := do
  let c ← get
  if Conditions.shows c.conditions type mark message then
    set (c.confirm type)
  else
    let now ← Staged.clock
    set (c.change type mark message now)

def failureMessage (message : String) : Option String → String
  | some detail => message ++ ": " ++ detail
  | none => message

end InfraOperator
