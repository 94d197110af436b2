import InfraOperator.Cycle.Retry

/-!
# Trials of a retried operation

An operation that ends as written down beforehand, in the last of these ways from then on, and
what a loop of retries makes of it.
-/

set_option autoImplicit false

namespace InfraOperator

structure Trial where
  calls : Nat := 0
  waits : List Span := []

namespace Trial

def attempt (outcomes : List (Option String)) : StateM Trial (Except String Nat) := fun t =>
  let outcome := (outcomes[min t.calls (outcomes.length - 1)]?).getD none
  let ended := match outcome with
    | none => .ok t.calls
    | some failure => .error failure
  (ended, { t with calls := t.calls + 1 })

def hooks : Retry.Hooks (StateM Trial) where
  draw _ := return .one
  wait span := modify fun t => { t with waits := t.waits ++ [span] }
  log _ := return ()

def run (config : RetryConfig) (outcomes : List (Option String)) (retryable : List String) :
    Retried String Nat × Trial :=
  (Retry.retryIf hooks config "trial" retryable.contains (attempt outcomes)).run {}

end Trial

end InfraOperator
