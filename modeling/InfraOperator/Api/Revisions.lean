import InfraOperator.Api.Configurations
import InfraOperator.Catalog.Store

/-!
# The store of revisions on the API server

Each call of a cycle as requests to the API server. Consumers are selected by labels where the
plan and the version can be label values, and their specification decides in any case.
-/

set_option autoImplicit false

namespace InfraOperator.Api

def revisions : Collection Revision :=
  ⟨Collection.pathOf Collection.operatorGroup none "revisions", Revision.read⟩

def plans : Collection Plan :=
  ⟨Collection.pathOf Collection.operatorGroup none "plans", Plan.read⟩

def cloudResources : Collection CloudResource :=
  ⟨Collection.pathOf Collection.operatorGroup none "cloudresources", CloudResource.read⟩

def isLabelChar (c : Char) : Bool := c.isAlphanum || c = '-' || c = '_' || c = '.'

/-- At most 63 letters, digits, dashes, underscores and dots between a letter or digit at either
end. -/
def isLabelValue (text : String) : Bool :=
  let cs := text.toList
  !cs.isEmpty && cs.length ≤ 63 && (cs.head?.any Char.isAlphanum) &&
    (cs.getLast?.any Char.isAlphanum) && cs.all isLabelChar

def consumerSelector (plan version : String) : Option String :=
  if isLabelValue plan && isLabelValue version then
    some (Label.plan ++ "=" ++ plan ++ "," ++ Label.revision ++ "=" ++ version)
  else none

/-- Counts stop at the greatest number a status can hold. -/
def consumerCount (resources : List CloudResource) (plan version : String) : Nat :=
  min (resources.filter (·.consumes plan version)).length Bounds.nat32.greatest.toNat

def patchRevisionStatus (r : Revision) : Client Unit := do
  let name ← Client.orFail r.metadata.name (unnamed "revision has no name")
  revisions.patchStatus name (statusPatch r.metadata (r.status.map RevisionStatus.toJson))

def deleteRevision (name : String) : Client Unit := do
  match ← Client.outcome (revisions.delete name) with
  | .ok () => return ()
  | .error e =>
    if e.isNotFound then Client.log .debug "revision already gone" [("revision", name)]
    else Client.fail e

def patchPlanRevisions (p : Plan) : Client Unit := do
  let name ← Client.orFail p.metadata.name (unnamed "plan has no name")
  plans.patch name (guarded p.metadata.resourceVersion [("spec", Plan.specJson p.revisions)])

def countConsumers (plan version : String) : Client Nat := do
  let resources ← cloudResources.list (consumerSelector plan version)
  return consumerCount resources plan version

def revisionCall : (call : RevisionCall) → Client call.Answer
  | .getRevision name => revisions.get? name
  | .patchStatus r => patchRevisionStatus r
  | .addFinalizer name finalizer => revisions.addFinalizer Revision.metadata name finalizer
  | .removeFinalizer name finalizer =>
    revisions.removeFinalizer Revision.metadata name finalizer
  | .listPlanRevisions plan => do
    let all ← revisions.list none
    return all.filter (·.spec.planName = plan)
  | .deleteRevision name => deleteRevision name
  | .getPlan name => plans.get? name
  | .createPlan plan => plans.create plan.toJson
  | .patchPlanRevisions plan => patchPlanRevisions plan
  | .patchPlanStatus name latest =>
    plans.patchStatus name (.obj [("status", Plan.statusJson latest)])
  | .countConsumers plan version => countConsumers plan version

end InfraOperator.Api
