import InfraOperator.Unit.Basic

/-!
# Selecting execution units

A filter is what is asked of a unit, each part of it optional. A unit whose label is missing or
does not read never meets a demand on it. The latest unit is the first of the newest ones; a unit
without a creation time is older than any with one.
-/

set_option autoImplicit false

namespace InfraOperator

structure UnitFilter where
  stage : Option Stage := none
  generation : Option Int := none
  ownerUid : Option String := none
  namespaceName : Option String := none
  name : Option String := none
  /-- The second of the wish for a retry. -/
  retry : Option Int := none
  deriving DecidableEq

def meets {α : Type} [DecidableEq α] (found demand : Option α) : Bool :=
  demand.isNone || found = demand

/-- The time of `a` is not after that of `b`; no time is before all times. -/
def notNewer (a b : Option Instant) : Bool :=
  match a, b with
  | none, _ => true
  | some _, none => false
  | some a, some b => a ≤ b

namespace UnitFilter

def accepts (f : UnitFilter) (job : Job) : Bool :=
  meets job.stage? f.stage && meets job.generation? f.generation &&
    meets job.ownerUid? f.ownerUid && meets job.metadata.namespaceName f.namespaceName &&
    meets job.metadata.name f.name && meets job.retry? f.retry

def select (f : UnitFilter) (units : List Job) : List Job := units.filter f.accepts

def list? (f : UnitFilter) (units : List Job) : Option (List Job) :=
  if (f.select units).isEmpty then none else some (f.select units)

def newer (best : Option Job) (job : Job) : Option Job :=
  match best with
  | some current => if notNewer job.createdAt? current.createdAt? then some current else some job
  | none => some job

def latest? (f : UnitFilter) (units : List Job) : Option Job :=
  (f.select units).foldl newer none

end UnitFilter

end InfraOperator
