import InfraOperator.Unit.Filter
import InfraOperator.Resource.Configuration

/-!
# Names of what is made for a configuration

Everything made for a configuration is named after its uid: four secrets, and the unit of each
stage, generation and wish for a retry. Making the same unit twice therefore meets the first one.
-/

set_option autoImplicit false

namespace InfraOperator

namespace SecretName

def config (uid : String) : String := "config-" ++ uid

def policy (uid : String) : String := "policy-" ++ uid

def outputs (uid : String) : String := "outputs-" ++ uid

def state (uid : String) : String := "tfstate-default-" ++ uid

/-- The key in the outputs under which the number of resources is left. -/
def resourceCountKey : String := "terrace.resources"

end SecretName

def compactUid (uid : String) : String := String.ofList (uid.toList.filter (· ≠ '-'))

def unitName (stage : Stage) (uid : String) (generation : Int) (retry : Option Instant) : String :=
  stage.text ++ "-" ++ compactUid uid ++ "-" ++ toString generation ++
    match retry with
    | some marker => "-" ++ toString marker.seconds
    | none => ""

def watcherName (unit : String) : String := "watch-" ++ unit

namespace Configuration

def retryMarker (c : Configuration) : Option Instant :=
  (c.metadata.annotation? Annotation.retry).bind readRetryMarker?

def ownerUid (c : Configuration) : Outcome String :=
  match c.metadata.uid with
  | some uid => .ok uid
  | none => .error (.validation c.name "configuration has no uid")

def identity (c : Configuration) : Outcome (String × String) :=
  match c.metadata.namespaceName with
  | some ns => .ok (c.name, ns)
  | none => .error (.validation c.name "configuration has no namespace")

def unitFilter (c : Configuration) (namespaceName uid : String) (stage : Stage) : UnitFilter :=
  { stage := some stage
    generation := some (Resource.generation c)
    ownerUid := some uid
    namespaceName := some namespaceName
    retry := c.retryMarker.map (·.seconds) }

end Configuration

end InfraOperator
