import InfraOperator.Catalog.Store
import InfraOperator.Provisioning.Store
import InfraOperator.Rehearsal.Values

/-!
# Calls of rehearsals

How rehearsals name the calls on a store, read them, and write down what they were given and what
came of them. A journal keeps a note of an answer, and a client's answer is written out in full.
-/

set_option autoImplicit false

namespace InfraOperator

namespace Write

def done : Json := .str "ok"

def found {α : Type} : Option α → Json
  | some _ => .str "found"
  | none => .str "none"

def configurationStatus (c : Configuration) : Json := option ConfigurationStatus.toJson c.status

end Write

namespace ConfigurationCall

def name : ConfigurationCall → String
  | .getConfiguration .. => "get_configuration"
  | .patchStatus .. => "patch_configuration_status"
  | .addFinalizer .. => "add_finalizer"
  | .removeFinalizer .. => "remove_finalizer"
  | .getProvider .. => "get_provider"
  | .listPolicies => "list_policies"
  | .listUnits .. => "list_units"
  | .createJob .. => "create_job"
  | .deleteUnits .. => "delete_units"
  | .getSecret .. => "get_secret"
  | .createSecret .. => "create_secret"
  | .patchSecretData .. => "patch_secret_data"
  | .deleteSecret .. => "delete_secret"

def arguments : ConfigurationCall → List Json
  | .getConfiguration name ns => [.str name, .str ns]
  | .patchStatus c =>
    [Write.option .str c.metadata.name, Write.option .str c.metadata.namespaceName,
      Write.option .str c.metadata.resourceVersion, Write.configurationStatus c]
  | .addFinalizer name ns f | .removeFinalizer name ns f => [.str name, .str ns, .str f]
  | .getProvider name => [.str name]
  | .listPolicies => []
  | .listUnits ns uid | .deleteUnits ns uid => [.str ns, .str uid]
  | .createJob job => [job.toJson]
  | .getSecret name ns | .deleteSecret name ns => [.str name, .str ns]
  | .createSecret s => [s.toJson]
  | .patchSecretData name ns data => [.str name, .str ns, Write.dict Write.bytes data]

def noted : (call : ConfigurationCall) → call.Answer → Json
  | .getConfiguration _ _, answer => Write.found answer
  | .getProvider _, answer => Write.found answer
  | .listPolicies, policies => Write.nat policies.length
  | .listUnits _ _, units => Write.nat units.length
  | .getSecret _ _, answer => Write.found answer
  | .deleteSecret _ _, deleted => .bool deleted
  | .patchStatus _, _ | .addFinalizer _ _ _, _ | .removeFinalizer _ _ _, _ | .createJob _, _
  | .deleteUnits _ _, _ | .createSecret _, _ | .patchSecretData _ _ _, _ => Write.done

def written : (call : ConfigurationCall) → call.Answer → Json
  | .getConfiguration _ _, answer => Write.option Configuration.toJson answer
  | .getProvider _, answer => Write.option Provider.toJson answer
  | .listPolicies, policies => Write.list Policy.toJson policies
  | .listUnits _ _, units => Write.list Job.toJson units
  | .getSecret _ _, answer => Write.option Secret.toJson answer
  | .deleteSecret _ _, deleted => .bool deleted
  | .patchStatus _, _ | .addFinalizer _ _ _, _ | .removeFinalizer _ _ _, _ | .createJob _, _
  | .deleteUnits _ _, _ | .createSecret _, _ | .patchSecretData _ _ _, _ => .null

def read (fields : Fields) : Option ConfigurationCall := do
  let name ← Read.textOrEmpty fields "name"
  let ns ← Read.textOrEmpty fields "namespace"
  let finalizer ← Read.textOrEmpty fields "finalizer"
  let uid ← Read.textOrEmpty fields "uid"
  match ← fields.required "call" Read.text with
  | "get_configuration" => return .getConfiguration name ns
  | "patch_configuration_status" =>
    return .patchStatus (← fields.required "object" Configuration.read)
  | "add_finalizer" => return .addFinalizer name ns finalizer
  | "remove_finalizer" => return .removeFinalizer name ns finalizer
  | "get_provider" => return .getProvider name
  | "list_policies" => return .listPolicies
  | "list_units" => return .listUnits ns uid
  | "create_job" => return .createJob (← fields.required "object" Job.read)
  | "delete_units" => return .deleteUnits ns uid
  | "get_secret" => return .getSecret name ns
  | "create_secret" => return .createSecret (← fields.required "object" Secret.read)
  | "patch_secret_data" =>
    return .patchSecretData name ns (← fields.filled "data" (Read.dict Read.bytes) ∅)
  | "delete_secret" => return .deleteSecret name ns
  | _ => none

end ConfigurationCall

namespace RevisionCall

def name : RevisionCall → String
  | .getRevision .. => "get_revision"
  | .patchStatus .. => "patch_revision_status"
  | .addFinalizer .. => "add_finalizer"
  | .removeFinalizer .. => "remove_finalizer"
  | .listPlanRevisions .. => "list_plan_revisions"
  | .deleteRevision .. => "delete_revision"
  | .getPlan .. => "get_plan"
  | .createPlan .. => "create_plan"
  | .patchPlanRevisions .. => "patch_plan_revisions"
  | .patchPlanStatus .. => "patch_plan_status"
  | .countConsumers .. => "count_consumers"

def arguments : RevisionCall → List Json
  | .getRevision name | .listPlanRevisions name | .deleteRevision name | .getPlan name =>
    [.str name]
  | .patchStatus r =>
    [Write.option .str r.metadata.name, Write.option .str r.metadata.resourceVersion,
      Write.option RevisionStatus.toJson r.status]
  | .addFinalizer name f | .removeFinalizer name f => [.str name, .str f]
  | .createPlan p => [p.toJson]
  | .patchPlanRevisions p =>
    [Write.option .str p.metadata.name, Write.option .str p.metadata.resourceVersion,
      Write.list PlanEntry.toJson p.revisions]
  | .patchPlanStatus name latest => [.str name, Plan.statusJson latest]
  | .countConsumers plan version => [.str plan, .str version]

def noted : (call : RevisionCall) → call.Answer → Json
  | .getRevision _, answer => Write.found answer
  | .listPlanRevisions _, revisions => Write.nat revisions.length
  | .getPlan _, answer => Write.found answer
  | .countConsumers _ _, count => Write.nat count
  | .patchStatus _, _ | .addFinalizer _ _, _ | .removeFinalizer _ _, _ | .deleteRevision _, _
  | .createPlan _, _ | .patchPlanRevisions _, _ | .patchPlanStatus _ _, _ => Write.done

def written : (call : RevisionCall) → call.Answer → Json
  | .getRevision _, answer => Write.option Revision.toJson answer
  | .listPlanRevisions _, revisions => Write.list Revision.toJson revisions
  | .getPlan _, answer => Write.option Plan.toJson answer
  | .countConsumers _ _, count => Write.nat count
  | .patchStatus _, _ | .addFinalizer _ _, _ | .removeFinalizer _ _, _ | .deleteRevision _, _
  | .createPlan _, _ | .patchPlanRevisions _, _ | .patchPlanStatus _ _, _ => .null

def read (fields : Fields) : Option RevisionCall := do
  let name ← Read.textOrEmpty fields "name"
  let finalizer ← Read.textOrEmpty fields "finalizer"
  match ← fields.required "call" Read.text with
  | "get_revision" => return .getRevision name
  | "patch_revision_status" => return .patchStatus (← fields.required "object" Revision.read)
  | "add_finalizer" => return .addFinalizer name finalizer
  | "remove_finalizer" => return .removeFinalizer name finalizer
  | "list_plan_revisions" => return .listPlanRevisions name
  | "delete_revision" => return .deleteRevision name
  | "get_plan" => return .getPlan name
  | "create_plan" => return .createPlan (← fields.required "object" Plan.read)
  | "patch_plan_revisions" => return .patchPlanRevisions (← fields.required "object" Plan.read)
  | "patch_plan_status" =>
    return .patchPlanStatus name (← fields.filled "status" Plan.readStatus none)
  | "count_consumers" =>
    return .countConsumers name (← Read.textOrEmpty fields "revision")
  | _ => none

end RevisionCall

end InfraOperator
