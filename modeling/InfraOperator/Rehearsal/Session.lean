import InfraOperator.Catalog.Controller
import InfraOperator.Catalog.Expiration
import InfraOperator.Cluster.Answer
import InfraOperator.Provisioning.Controller

/-!
# Rehearsals

A rehearsal runs cycles on a cluster in memory and writes down what they ask. Calls can be made to
fail beforehand. The clock moves a little each time it is read, so no two readings are equal.
-/

set_option autoImplicit false

namespace InfraOperator

inductive JournalEntry (S : Interface) where
  | called (call : S.Request) (outcome : Outcome (S.Answer call))
  | measured (m : Measure)

structure Service (S : Interface) where
  /-- Under this name a call can be made to fail. -/
  callName : S.Request → String
  arguments : S.Request → List Json
  noted : (call : S.Request) → S.Answer call → Json
  answer : (call : S.Request) → Cluster → Outcome (S.Answer call) × Cluster

structure Rehearsal (S : Interface) where
  cluster : Cluster
  /-- For each call by name what its next uses end in; no failure is to be made up for none. -/
  faults : Dict (List (Option Failure)) := ∅
  clock : Instant
  cancelled : Bool := false
  /-- Notices and measures are dropped. -/
  quiet : Bool := false
  failures : Failures := .none
  journal : List (JournalEntry S) := []
  notices : List Notice := []
  log : List LogLine := []

namespace Rehearsal

variable {S : Interface} {α : Type}

def readClock (s : Rehearsal S) : Instant × Rehearsal S :=
  (s.clock, { s with clock := s.clock.advance .microsecond })

def nextFault (s : Rehearsal S) (name : String) : Option Failure × Rehearsal S :=
  match s.faults.get? name with
  | some (fault :: rest) => (fault, { s with faults := s.faults.insert name rest })
  | _ => (none, s)

def perform (service : Service S) (s : Rehearsal S) (call : S.Request) :
    Outcome (S.Answer call) × Rehearsal S :=
  let (fault, s) := s.nextFault (service.callName call)
  let (outcome, cluster) : Outcome (S.Answer call) × Cluster := match fault with
    | some e => (.error e, s.cluster)
    | none => service.answer call s.cluster
  (outcome, { s with cluster, journal := s.journal ++ [JournalEntry.called call outcome] })

def serve (service : Service S) :
    (r : Surroundings.Request S) → Rehearsal S → Surroundings.Answer r × Rehearsal S
  | .store call, s => s.perform service call
  | .clock, s => s.readClock
  | .publish notice, s =>
    ((), if s.quiet then s else { s with notices := s.notices ++ [notice] })
  | .measure m, s =>
    ((), if s.quiet then s else { s with journal := s.journal ++ [.measured m] })
  | .log line, s => ((), { s with log := s.log ++ [line] })
  | .wait _, s => ((), s)

def supervise (service : Service S) :
    (r : Supervised.Request S) → Rehearsal S → Supervised.Answer r × Rehearsal S
  | .cancelled, s => (s.cancelled, s)
  | .plain r, s => serve service r s
  | .watched r, s => ((serve service r s).map some id)

def run (service : Service S) (p : Program (Supervised S) α) (s : Rehearsal S) :
    α × Rehearsal S :=
  p.run (supervise service) s

def fresh (s : Rehearsal S) : Rehearsal S := { s with journal := [], notices := [], log := [] }

def cycle (service : Service S)
    (p : Failures → Program (Supervised S) (Outcome Action × Failures)) (s : Rehearsal S) :
    Outcome Action × Rehearsal S :=
  let ((outcome, failures), s) := s.run service (p s.failures)
  (outcome, { s with failures })

def afterFailure (policy : Failures → Instant → Action × Failures × LogLine)
    (s : Rehearsal S) : Action × Rehearsal S :=
  let (now, s) := s.readClock
  let (action, failures, line) := policy s.failures now
  (action, { s with failures, log := s.log ++ [line] })

end Rehearsal

end InfraOperator
