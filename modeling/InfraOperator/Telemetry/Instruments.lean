import InfraOperator.Cycle.Surroundings

/-!
# Instruments

An instrument counts under attributes: each measure is counted by one instrument, and a finished
cycle by two, one of which also keeps how long the cycle took. An instrument that has counted
nothing does not show.
-/

set_option autoImplicit false

namespace InfraOperator

structure Instrument where
  name : String
  description : String
  unit : String
  deriving DecidableEq, Repr

namespace Instrument

def reconcileDuration : Instrument :=
  ⟨"terrace_reconcile_duration_seconds", "Duration of reconciliation cycles in seconds", "s"⟩

def reconcileTotal : Instrument :=
  ⟨"terrace_reconcile_total", "Total reconciliation cycles by outcome", "\x7bcycles\x7d"⟩

def unitsCreated : Instrument :=
  ⟨"terrace_execution_units_created_total", "Execution units created by stage", "\x7bunits\x7d"⟩

def conditionTransitions : Instrument :=
  ⟨"terrace_condition_transitions_total", "Condition transitions by type and reason",
    "\x7btransitions\x7d"⟩

def revisionsExpired : Instrument :=
  ⟨"terrace_revisions_expired_total", "Revisions deleted after expiring", "\x7brevisions\x7d"⟩

end Instrument

abbrev Attributes := List (String × String)

namespace Measure

def instruments : Measure → List Instrument
  | .reconcileFinished .. => [.reconcileDuration, .reconcileTotal]
  | .unitCreated .. => [.unitsCreated]
  | .conditionTransitioned .. => [.conditionTransitions]
  | .revisionExpired .. => [.revisionsExpired]

def attributes : Measure → Attributes
  | .reconcileFinished kind outcome => [("kind", kind), ("outcome", outcome)]
  | .unitCreated kind stage => [("kind", kind), ("stage", stage)]
  | .conditionTransitioned kind condition reason =>
    [("condition", condition), ("kind", kind), ("reason", reason)]
  | .revisionExpired plan => [("plan", plan)]

end Measure

structure CountedPoint where
  instrument : Instrument
  attributes : Attributes
  count : Nat
  deriving DecidableEq, Repr

abbrev Counts := List CountedPoint

namespace Counts

def add (instrument : Instrument) (attributes : Attributes) : Counts → Counts
  | [] => [⟨instrument, attributes, 1⟩]
  | p :: rest =>
    if p.instrument = instrument ∧ p.attributes = attributes then
      { p with count := p.count + 1 } :: rest
    else p :: add instrument attributes rest

def record (counts : Counts) (m : Measure) : Counts :=
  m.instruments.foldl (fun counts i => add i m.attributes counts) counts

def ofMeasures (measures : List Measure) : Counts := measures.foldl record []

end Counts

end InfraOperator
