import InfraOperator.Resource.Basic

/-!
# Policies

A policy is a set of checks run against a plan before it is applied, for the configurations whose
labels its selector asks for.
-/

set_option autoImplicit false

namespace InfraOperator

structure CheckConstraint where
  /-- Checks to run, all if there are none. -/
  checks : List String := []
  skipChecks : List String := []
  /-- Labels a configuration has to carry. -/
  selector : Dict String := ∅
  deriving DecidableEq

structure Policy where
  metadata : ObjectMeta
  constraint : CheckConstraint
  deriving DecidableEq

namespace CheckConstraint

def read (d : Document) : Option CheckConstraint := do
  let fields ← Read.record ["checks", "skipChecks", "selector"] d
  return {
    checks := ← fields.defaulting "checks" Read.texts []
    skipChecks := ← fields.defaulting "skipChecks" Read.texts []
    selector := ← fields.defaulting "selector" Read.labels ∅ }

def toJson (c : CheckConstraint) : Json :=
  .object <|
    (if c.checks.isEmpty then [] else [("checks", Write.texts c.checks)]) ++
    (if c.selector.isEmpty then [] else [("selector", Write.labels c.selector)]) ++
    (if c.skipChecks.isEmpty then [] else [("skipChecks", Write.texts c.skipChecks)])

end CheckConstraint

namespace Policy

def kindName : String := "Policy"

def readSpec (d : Document) : Option CheckConstraint := do
  (← Read.record ["constraint"] d).required "constraint" CheckConstraint.read

def specJson (c : CheckConstraint) : Json := .object [("constraint", c.toJson)]

def read (d : Document) : Option Policy := do
  let fields ← Read.record ["metadata", "spec"] d
  return {
    metadata := ← fields.required "metadata" ObjectMeta.read
    constraint := ← fields.required "spec" readSpec }

def toJson (p : Policy) : Json := writeObject kindName p.metadata (specJson p.constraint) none

def name (p : Policy) : String := p.metadata.displayName

/-- Every selected label is there with its value; missing labels match an empty selector only. -/
def applies (p : Policy) : Option (Dict String) → Bool
  | none => p.constraint.selector.isEmpty
  | some labels => p.constraint.selector.entries.all fun e => labels.get? e.1 = some e.2

end Policy

end InfraOperator
