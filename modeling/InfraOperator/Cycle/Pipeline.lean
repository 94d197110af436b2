import InfraOperator.Cycle.Basic
import InfraOperator.Cycle.Retry

/-!
# Pipelines

A pipeline is a list of steps run in order until one of them stops the cycle. A step that releases
the finalizer stands last, since the API server may remove the object right after it. However the
steps end, the status is written once if it changed, and then the events of the cycle are
published.
-/

set_option autoImplicit false

namespace InfraOperator

inductive Verdict where
  | proceed
  /-- Run the cycle again after the delay; without a delay, proceed. -/
  | requeue (delay : Span)
  | requeueNow
  /-- Nothing more to do before something else changes. -/
  | pause
  | stop (failure : Failure)
  deriving DecidableEq, Repr

inductive Directive where
  | done
  | requeue (delay : Span)
  | requeueNow
  deriving DecidableEq, Repr

inductive Action where
  | awaitChange
  | requeue (delay : Span)
  deriving DecidableEq, Repr

def Directive.toAction (d : Directive) (resync : Option Span) : Action :=
  match d with
  | .requeue delay => .requeue delay
  | .requeueNow => .requeue .zero
  | .done =>
    match resync with
    | some delay => .requeue delay
    | none => .awaitChange

structure Ending where
  outcome : Outcome Directive
  message : String
  fields : List (String × String) := []

def Verdict.ending? : Verdict → Option Ending
  | .proceed => none
  | .requeue delay =>
    if delay.isZero then none
    else
      some ⟨.ok (.requeue delay), "step requested requeue",
        [("delay_secs", toString delay.seconds)]⟩
  | .requeueNow => some { outcome := .ok .requeueNow, message := "step requested immediate requeue" }
  | .pause => some { outcome := .ok .done, message := "step paused cycle" }
  | .stop failure => some { outcome := .error failure, message := "step failed" }

structure Step (S : Interface) (R X : Type) where
  name : String
  /-- The object may be gone after this step. -/
  releasesFinalizer : Bool := false
  run : Staged S (Cycle R X) Verdict

structure Pipeline (S : Interface) (R X : Type) where
  name : String
  steps : List (Step S R X)
  nonempty : steps ≠ []
  releases_last : ∀ step ∈ steps.dropLast, step.releasesFinalizer = false

namespace Pipeline

variable {S : Interface} {R X : Type}

/-- A pipeline of these steps, unless there are none or the finalizer would be released early. -/
def build (name : String) (steps : List (Step S R X)) : Outcome (Pipeline S R X) :=
  if nonempty : steps = [] then
    .error (.internal "pipeline" ("pipeline " ++ name ++ " has no steps"))
  else
    match early : steps.dropLast.find? (·.releasesFinalizer) with
    | some step =>
      .error (.internal "pipeline" ("pipeline " ++ name ++ ": step " ++ step.name ++
        " releases the finalizer and must be last"))
    | none =>
      .ok ⟨name, steps, nonempty, fun step h => by
        simpa using List.find?_eq_none.1 early step h⟩

def stepNames (p : Pipeline S R X) : List String := p.steps.map (·.name)

def logStep (pipeline : String) (step : Step S R X) (message : String)
    (fields : List (String × String)) : Program (Supervised S) Unit :=
  Supervised.log .debug message ([("pipeline", pipeline), ("step", step.name)] ++ fields)

def runSteps (pipeline : String) : List (Step S R X) → Cycle R X →
    Program (Supervised S) (Outcome Directive × Cycle R X)
  | [], c => return (.ok .done, c)
  | step :: rest, c => do
    if ← Supervised.isCancelled then
      return (.error .cancelled, c)
    else
      let (verdict, c) ← Staged.watch (step.run.run c)
      match verdict with
      | none => return (.error .cancelled, c)
      | some verdict =>
        match verdict.ending? with
        | none => runSteps pipeline rest c
        | some ending =>
          logStep pipeline step ending.message ending.fields
          return (ending.outcome, c)

def run (p : Pipeline S R X) (c : Cycle R X) :
    Program (Supervised S) (Outcome Directive × Cycle R X) :=
  runSteps p.name p.steps c

end Pipeline

structure StatusStore (S : Interface) (R : Type) where
  write : R → Program (Surroundings S) (Outcome Unit)
  reload : R → Program (Surroundings S) (Outcome (Option R))

namespace StatusStore

variable {S : Interface} {R : Type} [Resource R]

/-- Waits are asked for as they are before chance spreads them out. -/
def hooks {τ : Type} : Retry.Hooks (StateT τ (Program (Surroundings S))) where
  draw _ := return .one
  wait span := StateT.lift (Program.request (I := Surroundings S) (.wait span))
  log line := StateT.lift (Program.request (I := Surroundings S) (.log line))

/-- Writes the status under the version held; after a conflict, takes over the version of the
object as it is now. -/
def attempt (store : StatusStore S R) (r : R) :
    StateT (Option String) (Program (Surroundings S)) (Outcome Unit) := do
  let candidate := Resource.withResourceVersion r (← get)
  match ← store.write candidate with
  | .ok () => return .ok ()
  | .error e =>
    if e.isConflict then
      match ← store.reload candidate with
      | .error e => return .error e
      | .ok (some fresh) =>
        set (Resource.metadata fresh).resourceVersion
        return .error e
      | .ok none => return .error e
    else return .error e

/-- Writes the status, again after each conflict. That the object is gone is no failure while it
is being deleted. -/
def persist (store : StatusStore S R) (r : R) (deleting : Bool) :
    Program (Surroundings S) (Outcome Unit) := do
  let retried ← (Retry.retryIf hooks .statusWrite "write_status" Failure.isConflict
    (store.attempt r)).run' (Resource.metadata r).resourceVersion
  match retried with
  | .ended (.error e) =>
    return if deleting && e.isNotFound then .ok () else .error e
  | .ended (.ok ()) => return .ok ()
  | .noDelay => return .error (.internal "write_status" "no delay")

end StatusStore

namespace Pipeline

variable {S : Interface} {R X : Type} [Resource R]

def outcomeLabel : Outcome Directive → String
  | .ok .done => "done"
  | .ok _ => "requeue"
  | .error _ => "error"

def publishEvents (object : ObjectReference) : List ConditionEvent →
    Program (Supervised S) Unit
  | [] => return ()
  | e :: rest => do
    Supervised.plain
      (.measure (.conditionTransitioned (Resource.kind R) e.condition e.reason.text))
    Supervised.plain
      (.publish ⟨object, e.isWarning, e.reason.text, e.condition, some e.message⟩)
    publishEvents object rest

def writeStatus (store : StatusStore S R) (c : Cycle R X) : Program (Supervised S) (Outcome Unit) :=
  if c.statusChanged then Supervised.unwatched (store.persist c.resource c.isDeleting)
  else return .ok ()

/-- Publishes the events unless the write of the status failed. A failure of the steps goes before
one of the write. -/
def report (p : Pipeline S R X) (outcome : Outcome Directive) (persisted : Outcome Unit)
    (c : Cycle R X) : Program (Supervised S) (Outcome Directive × Cycle R X) := do
  let (result, c) ← match outcome, persisted with
    | outcome, .ok () => do
      publishEvents (R := R) (Resource.reference c.resource) c.events
      pure (outcome, { c with events := [] })
    | .error e, .error _ => do
      Supervised.log .warn "status write failed after step error" [("pipeline", p.name)]
      pure (.error e, c)
    | .ok _, .error e => pure (.error e, c)
  Supervised.plain (.measure (.reconcileFinished (Resource.kind R) (outcomeLabel result)))
  return (result, c)

def settle (p : Pipeline S R X) (store : StatusStore S R) (outcome : Outcome Directive)
    (c : Cycle R X) : Program (Supervised S) (Outcome Directive × Cycle R X) := do
  let persisted ← writeStatus store c
  p.report outcome persisted c

def execute (p : Pipeline S R X) (store : StatusStore S R) (c : Cycle R X) :
    Program (Supervised S) (Outcome Directive × Cycle R X) := do
  let (outcome, c) ← p.run c
  p.settle store outcome c

end Pipeline

end InfraOperator
