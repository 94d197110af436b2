import InfraOperator.Cycle.Pipeline

/-!
# Failures in a row

How often each object has failed since its last success, so that the next attempt can be put off.
An object not heard of for long is forgotten.
-/

set_option autoImplicit false

namespace InfraOperator

namespace Failures

def baseDelay : Span := .ofSeconds 5
def maxDelay : Span := .ofSeconds 300
def staleAfter : Span := .ofSeconds 1200

def countLimit : Nat := 4294967295

def objectKey (namespaceName : Option String) (name : String) : String :=
  match namespaceName with
  | some ns => ns ++ "/" ++ name
  | none => name

structure Entry where
  count : Nat
  last : Instant
  deriving DecidableEq, Repr

end Failures

structure Failures where
  entries : Dict Failures.Entry
  deriving DecidableEq

namespace Failures

def none : Failures := ⟨∅⟩

instance : Inhabited Failures := ⟨none⟩

def count (t : Failures) (key : String) : Nat :=
  match t.entries.get? key with
  | some e => e.count
  | .none => 0

def forgetStale (t : Failures) (age : Span) (now : Instant) : Failures :=
  ⟨t.entries.filter fun _ e => now.since e.last < age⟩

def reset (t : Failures) (key : String) : Failures := ⟨t.entries.erase key⟩

def record (t : Failures) (key : String) (now : Instant) : Span × Failures :=
  let swept := t.forgetStale staleAfter now
  let count := min (swept.count key + 1) countLimit
  (backoffDelay count baseDelay maxDelay, ⟨swept.entries.insert key ⟨count, now⟩⟩)

def afterFailure (t : Failures) (key : String) (name : String × String) (e : Failure)
    (now : Instant) : Action × Failures × LogLine :=
  let (delay, t) := t.record key now
  let line : LogLine :=
    if e = .cancelled then ⟨.debug, "reconciliation cancelled", [name]⟩
    else ⟨.error, "reconciliation failed", [name, ("retry_in_secs", toString delay.seconds)]⟩
  (.requeue delay, t, line)

end Failures

end InfraOperator
