import InfraOperator.Rehearsal.Calls
import InfraOperator.Rehearsal.World

/-!
# Scenarios

A scenario is a rehearsal of one controller: commands run its cycles on objects of the cluster and
change the cluster in between. An object can be kept, to run a later cycle on what has become an
outdated copy of it.
-/

set_option autoImplicit false

namespace InfraOperator

structure Controller (S : Interface) (R : Type) where
  managed : Managed R
  service : Cluster.Habits → Service S
  reconcile : Settings → R → Failures → Program (Supervised S) (Outcome Action × Failures)
  /-- The cycle that looks for what has expired, for objects that do. -/
  expire : Option (Settings → R → Program (Supervised S) (Outcome Action))
  errorPolicy : R → Failure → Failures → Instant → Action × Failures × LogLine

namespace Controller

def configurations : Controller ConfigurationStore Configuration where
  managed := .configurations
  service habits :=
    ⟨ConfigurationCall.name, ConfigurationCall.arguments, ConfigurationCall.noted,
      Cluster.configurationCall habits⟩
  reconcile := Provisioning.reconcile
  expire := none
  errorPolicy := Provisioning.errorPolicy

def revisions : Controller RevisionStore Revision where
  managed := .revisions
  service habits :=
    ⟨RevisionCall.name, RevisionCall.arguments, RevisionCall.noted, Cluster.revisionCall habits⟩
  reconcile := Catalog.reconcile
  expire := some Catalog.reconcileExpiration
  errorPolicy := Catalog.errorPolicy

end Controller

namespace Scenario

inductive Subject where
  | kept
  | stored (index : Nat)
  deriving DecidableEq, Repr

inductive Command where
  | reconcile (subject : Subject)
  | expire (subject : Subject)
  | afterFailure (failure : Failure) (subject : Subject)
  | keep (subject : Subject)
  | put (object : AgedObject)
  | remove (kind : ObjectKind) (name : String) (namespaceName : Option String)
  | merge (patch : Json) (index : Nat)
  | delete (index : Nat)
  | setJobStatus (name : String) (namespaceName : Option String) (status : JobStatus)
  /-- What the next uses of a call end in. -/
  | fail (callName : String) (outcomes : List (Option Failure))
  /-- When jobs are created from now on. -/
  | setCreationTime (time : Option Instant)
  | cancel
  | countFailures (key : String)
  | showCluster

inductive Reply where
  | ended (outcome : Outcome Action)
  | decided (action : Action)
  | noObject
  | done
  | noJob
  | failures (count : Nat)
  | cluster (cluster : Cluster)

end Scenario

structure Scenario (S : Interface) (R : Type) where
  settings : Settings
  habits : Cluster.Habits
  rehearsal : Rehearsal S
  kept : Option R := none

namespace Scenario

variable {S : Interface} {R : Type} (c : Controller S R) (s : Scenario S R)

def object? : Subject → Option R
  | .kept => s.kept
  | .stored index => (c.managed.objects s.rehearsal.cluster)[index]?

def withCluster (cluster : Cluster) : Scenario S R :=
  { s with rehearsal := { s.rehearsal with cluster } }

def runOn (subject : Subject) (cycle : R → Rehearsal S → Reply × Rehearsal S) :
    Reply × Scenario S R :=
  match s.object? c subject with
  | some object =>
    let (reply, rehearsal) := cycle object s.rehearsal.fresh
    (reply, { s with rehearsal })
  | none => (.noObject, s)

def merge (patch : Json) (index : Nat) : Option (Reply × Scenario S R) :=
  if (c.managed.objects s.rehearsal.cluster)[index]?.isNone then some (.done, s)
  else do return (.done, s.withCluster (← c.managed.merge s.rehearsal.cluster index patch))

/-- There is no reply where an object cannot be edited that way, or does not expire. -/
def run : Command → Option (Reply × Scenario S R)
  | .reconcile subject =>
    some <| s.runOn c subject fun object r =>
      (r.cycle (c.service s.habits) (c.reconcile s.settings object)).map .ended id
  | .expire subject => do
    let expire ← c.expire
    return s.runOn c subject fun object r =>
      (r.run (c.service s.habits) (expire s.settings object)).map .ended id
  | .afterFailure failure subject =>
    some <| s.runOn c subject fun object r =>
      (r.afterFailure (c.errorPolicy object failure)).map .decided id
  | .keep subject => some (.done, { s with kept := s.object? c subject })
  | .put object =>
    some (.done, s.withCluster (s.rehearsal.cluster.put (object.asOf s.rehearsal.clock)))
  | .remove kind name ns => some (.done, s.withCluster (s.rehearsal.cluster.remove kind name ns))
  | .merge patch index => s.merge c patch index
  | .delete index =>
    let cluster := s.rehearsal.cluster
    some (.done, s.withCluster ((c.managed.delete cluster index).getD cluster))
  | .setJobStatus name ns status =>
    match s.rehearsal.cluster.setJobStatus name ns status with
    | some cluster => some (.done, s.withCluster cluster)
    | none => some (.noJob, s)
  | .fail callName outcomes =>
    let faults := s.rehearsal.faults.insert callName outcomes
    some (.done, { s with rehearsal := { s.rehearsal with faults } })
  | .setCreationTime time => some (.done, { s with habits := { s.habits with createdAt := time } })
  | .cancel => some (.done, { s with rehearsal := { s.rehearsal with cancelled := true } })
  | .countFailures key => some (.failures (s.rehearsal.failures.count key), s)
  | .showCluster => some (.cluster s.rehearsal.cluster, s)

end Scenario

end InfraOperator
