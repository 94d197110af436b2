import InfraOperator.Cycle.Finalizer
import InfraOperator.Resource.Configuration

/-!
# Scripted pipelines

A pipeline over a configuration whose steps and whose surroundings do what a script says: each
step leaves its name, its marks and its verdict, and each call of the store ends as the script has
it next, or well when the script has nothing more for it.
-/

set_option autoImplicit false

namespace InfraOperator.Script

inductive Call where
  | enter (step : String)
  | cancel
  /-- Asks what is never answered. -/
  | hang
  | writeStatus (configuration : Configuration)
  | reload (configuration : Configuration)
  | addFinalizer (finalizer : String)
  | removeFinalizer (finalizer : String)

def Call.Answer : Call → Type
  | .reload _ => Option Configuration
  | _ => Unit

def Store : Interface := ⟨Call, Call.Answer⟩

abbrev ScriptCycle := Cycle Configuration (List String)

inductive MarkOrder where
  | mark (type : String) (mark : Mark) (message : String)
  /-- Only asks for it. -/
  | track

structure StepOrder where
  name : String
  verdict : Verdict
  releases : Bool := false
  marks : List MarkOrder := []
  dirty : Bool := false
  cancels : Bool := false
  hangs : Bool := false

inductive StepScript where
  | ordered (order : StepOrder)
  | ensureFinalizer (finalizer : String)
  | ensureFinalizerRemoved (finalizer : String)

def call (c : Call) : Staged Store ScriptCycle (Outcome c.Answer) := Staged.call (S := Store) c

namespace StepOrder

def markAll : List MarkOrder → Staged Store ScriptCycle Unit
  | [] => return ()
  | .mark type m message :: rest => do
    mark type m message
    markAll rest
  | .track :: rest => do
    modify Cycle.track
    markAll rest

def run (o : StepOrder) : Staged Store ScriptCycle Verdict := do
  let _ ← call (.enter o.name)
  modify fun c => { c with scratch := c.scratch ++ [o.name] }
  markAll o.marks
  if o.dirty then modify Cycle.markDirty
  if o.cancels then let _ ← call .cancel
  if o.hangs then let _ ← call .hang
  return o.verdict

end StepOrder

def finalizers : FinalizerStore Store Configuration where
  add _ finalizer := Staged.call (S := Store) (.addFinalizer finalizer)
  remove _ finalizer := Staged.call (S := Store) (.removeFinalizer finalizer)

def statuses : StatusStore Store Configuration where
  write c := Program.request (I := Surroundings Store) (.store (.writeStatus c))
  reload c := Program.request (I := Surroundings Store) (.store (.reload c))

def StepScript.toStep : StepScript → Step Store Configuration (List String)
  | .ordered o => { name := o.name, releasesFinalizer := o.releases, run := o.run }
  | .ensureFinalizer finalizer => InfraOperator.ensureFinalizer finalizers finalizer
  | .ensureFinalizerRemoved finalizer => InfraOperator.ensureFinalizerRemoved finalizers finalizer

inductive Reload where
  | found (version : Option String)
  | missing
  | failed (failure : Failure)

structure Outcomes where
  write : List (Option Failure) := []
  reload : List Reload := []
  addFinalizer : List (Option Failure) := []
  removeFinalizer : List (Option Failure) := []

inductive Entry where
  | entered (step : String)
  | wroteStatus (configuration : Configuration) (outcome : Outcome Unit)
  | reloaded
  | addedFinalizer (finalizer : String)
  | removedFinalizer (finalizer : String)
  | measured (m : Measure)

structure Performance where
  outcomes : Outcomes
  clock : Instant
  cancelled : Bool := false
  entries : List Entry := []
  notices : List Notice := []

namespace Performance

def note (p : Performance) (e : Entry) : Performance := { p with entries := p.entries ++ [e] }

def ended : Option (Option Failure) → Outcome Unit
  | some (some e) => .error e
  | _ => .ok ()

def answer : (call : Call) → Performance → Outcome call.Answer × Performance
  | .enter step, p => (.ok (), p.note (.entered step))
  | .cancel, p => (.ok (), { p with cancelled := true })
  | .hang, p => (.ok (), p)
  | .writeStatus c, p =>
    let outcome := ended p.outcomes.write.head?
    (outcome, { p with outcomes.write := p.outcomes.write.tail }.note (.wroteStatus c outcome))
  | .reload c, p =>
    let outcome := match p.outcomes.reload.head? with
      | some (.found version) => .ok (some (Resource.withResourceVersion c version))
      | some (.failed e) => .error e
      | some .missing | none => .ok none
    (outcome, { p with outcomes.reload := p.outcomes.reload.tail }.note .reloaded)
  | .addFinalizer finalizer, p =>
    (ended p.outcomes.addFinalizer.head?,
      { p with outcomes.addFinalizer := p.outcomes.addFinalizer.tail }.note
        (.addedFinalizer finalizer))
  | .removeFinalizer finalizer, p =>
    (ended p.outcomes.removeFinalizer.head?,
      { p with outcomes.removeFinalizer := p.outcomes.removeFinalizer.tail }.note
        (.removedFinalizer finalizer))

def serve :
    (r : Surroundings.Request Store) → Performance → Surroundings.Answer r × Performance
  | .store call, p => answer call p
  | .clock, p => (p.clock, { p with clock := p.clock.advance .microsecond })
  | .publish notice, p => ((), { p with notices := p.notices ++ [notice] })
  | .measure m, p => ((), p.note (.measured m))
  | .log _, p => ((), p)
  | .wait _, p => ((), p)

def supervise :
    (r : Supervised.Request Store) → Performance → Supervised.Answer r × Performance
  | .cancelled, p => (p.cancelled, p)
  | .plain r, p => serve r p
  | .watched (.store .hang), p => (none, p)
  | .watched r, p => (serve r p).map some id

end Performance

def perform (pipeline : Pipeline Store Configuration (List String)) (stepsOnly : Bool)
    (configuration : Configuration) (p : Performance) :
    (Outcome Directive × ScriptCycle) × Performance :=
  let cycle := Cycle.start configuration []
  let program := if stepsOnly then pipeline.run cycle else pipeline.execute statuses cycle
  program.run Performance.supervise p

end InfraOperator.Script
