import InfraOperator.Cycle.Finalizer
import InfraOperator.Resource.Plan
import InfraOperator.Resource.Revision

/-!
# The store of revisions

The calls a cycle of a revision makes on the API server. Reading an object that does not exist is
no failure, neither is deleting a revision that does not.
-/

set_option autoImplicit false

namespace InfraOperator

inductive RevisionCall where
  | getRevision (name : String)
  /-- Guarded by the version the object carries. -/
  | patchStatus (revision : Revision)
  | addFinalizer (name finalizer : String)
  | removeFinalizer (name finalizer : String)
  | listPlanRevisions (plan : String)
  | deleteRevision (name : String)
  | getPlan (name : String)
  | createPlan (plan : Plan)
  /-- Guarded by the version the object carries. -/
  | patchPlanRevisions (plan : Plan)
  | patchPlanStatus (name : String) (latest : Option PlanEntry)
  | countConsumers (plan version : String)

def RevisionCall.Answer : RevisionCall → Type
  | .getRevision _ => Option Revision
  | .listPlanRevisions _ => List Revision
  | .getPlan _ => Option Plan
  | .countConsumers _ _ => Nat
  | .patchStatus _ | .addFinalizer _ _ | .removeFinalizer _ _ | .deleteRevision _ | .createPlan _
  | .patchPlanRevisions _ | .patchPlanStatus _ _ => Unit

def RevisionStore : Interface := ⟨RevisionCall, RevisionCall.Answer⟩

namespace RevisionStore

def finalizers : FinalizerStore RevisionStore Revision where
  add r finalizer := Staged.call (S := RevisionStore) (.addFinalizer r.name finalizer)
  remove r finalizer := Staged.call (S := RevisionStore) (.removeFinalizer r.name finalizer)

def statuses : StatusStore RevisionStore Revision where
  write r := Program.request (I := Surroundings RevisionStore) (.store (.patchStatus r))
  reload r := Program.request (I := Surroundings RevisionStore) (.store (.getRevision r.name))

end RevisionStore

namespace Catalog

variable {X : Type}

abbrev Run (X : Type) := Staged RevisionStore (Cycle Revision X)

abbrev RevisionStep (X : Type) := Step RevisionStore Revision X

def call (c : RevisionCall) : Run X (Outcome c.Answer) := Staged.call (S := RevisionStore) c

def listPlanRevisions (plan : String) : Run X (Outcome (List Revision)) :=
  call (.listPlanRevisions plan)

def deleteRevision (name : String) : Run X (Outcome Unit) := call (.deleteRevision name)

def getPlan (name : String) : Run X (Outcome (Option Plan)) := call (.getPlan name)

def createPlan (plan : Plan) : Run X (Outcome Unit) := call (.createPlan plan)

def patchPlanRevisions (plan : Plan) : Run X (Outcome Unit) := call (.patchPlanRevisions plan)

def patchPlanStatus (name : String) (latest : Option PlanEntry) : Run X (Outcome Unit) :=
  call (.patchPlanStatus name latest)

def countConsumers (plan version : String) : Run X (Outcome Nat) :=
  call (.countConsumers plan version)

end Catalog

end InfraOperator
