import InfraOperator.Time.Span

/-!
# Operator settings

What the command line fixes for every controller, with its defaults, and the image the executor
of a module runs when the module asks for another tool version.
-/

set_option autoImplicit false

namespace InfraOperator

structure Settings where
  /-- Namespace of execution units and generated secrets. -/
  namespaceName : String := "terrace-system"
  executorImage : String := "ghcr.io/terrace-dev/terraform:1.9"
  policyImage : String := "bridgecrew/checkov:3"
  infracostImage : String := "infracost/infracost:ci-0.10"
  costAnalysis : Bool := false
  watchers : Bool := true
  maxConcurrency : Nat := 10
  /-- Time between forced re-checks. -/
  resync : Span := .ofSeconds 300
  /-- Age past which an unused revision is deleted. -/
  expiration : Option Span := none
  checkInterval : Span := .ofSeconds 3600
  deriving DecidableEq, Repr

instance : Inhabited Settings := ⟨{}⟩

def beforeLast? (sep : Char) (cs : List Char) : Option (List Char) :=
  match cs.reverse.dropWhile (· ≠ sep) with
  | [] => none
  | _ :: front => some front.reverse

/-- The executor image with what follows its last colon replaced by the version. -/
def Settings.executorImageFor (s : Settings) : Option String → String
  | none => s.executorImage
  | some version =>
    let front := (beforeLast? ':' s.executorImage.toList).getD s.executorImage.toList
    String.ofList front ++ ":" ++ version

end InfraOperator
