import InfraOperator.Catalog.Store

/-!
# Membership in a plan

A revision is listed in its plan under its name, with the version it has now, and the plan shows
the latest of its revisions. A deleted revision is taken off the list. Listing and showing are two
writes, the second of which is made up for by the next cycle if it is missed.
-/

set_option autoImplicit false

namespace InfraOperator.Catalog

structure Scratch where
  inUse : Option Nat := none

abbrev Membership := Run Scratch

def showLatest (plan : Plan) : Membership (Outcome Unit) := do
  let latest := plan.latest?
  if latest = plan.shownLatest then return .ok ()
  else
    Staged.log .debug "updating latest revision" [("plan", plan.name)]
    patchPlanStatus plan.name latest

def showAfter (written : Outcome Unit) (plan : Plan) : Membership (Outcome Unit) :=
  match written with
  | .ok () => showLatest plan
  | .error e => return .error e

def planWith (name : String) (entry : PlanEntry) : Plan :=
  { metadata := { name := some name }, revisions := [entry] }

def enlist (plan : Plan) (entry : PlanEntry) : Plan :=
  let rest := plan.without entry.name
  { rest with revisions := rest.revisions ++ [entry] }

def join (planName : String) (entry : PlanEntry) : Membership (Outcome Unit) := do
  match ← getPlan planName with
  | .error e => return .error e
  | .ok none =>
    let plan := planWith planName entry
    Staged.log .info "creating plan" [("plan", planName), ("revision", entry.version)]
    showAfter (← createPlan plan) plan
  | .ok (some plan) =>
    if plan.lists entry then showLatest plan
    else
      let plan := enlist plan entry
      Staged.log .info "adding revision to plan" [("plan", planName), ("revision", entry.version)]
      showAfter (← patchPlanRevisions plan) plan

def ensurePlanMembership : RevisionStep Scratch where
  name := "EnsurePlanMembership"
  run := do
    let revision := (← get).resource
    match revision.version? with
    | none =>
      mark Revision.listed .failed (revision.spec.version ++ " is not a semantic version")
      return .pause
    | some _ =>
      match ← join revision.spec.planName ⟨revision.name, revision.spec.version⟩ with
      | .error e => return .stop e
      | .ok () =>
        mark Revision.listed .success ("listed in plan " ++ revision.spec.planName)
        return .proceed

def leave (planName name : String) : Membership (Outcome Unit) := do
  match ← getPlan planName with
  | .error e => return .error e
  | .ok none => return .ok ()
  | .ok (some plan) =>
    if plan.mentions name then
      let plan := plan.without name
      Staged.log .info "removing revision from plan" [("plan", planName), ("revision", name)]
      match ← showAfter (← patchPlanRevisions plan) plan with
      | .ok () => return .ok ()
      | .error e => if e.isNotFound then return .ok () else return .error e
    else return .ok ()

def ensurePlanMembershipRemoved : RevisionStep Scratch where
  name := "EnsurePlanMembershipRemoved"
  run := do
    let revision := (← get).resource
    match ← leave revision.spec.planName revision.name with
    | .error e => return .stop e
    | .ok () => return .proceed

def ensureInUseCount : RevisionStep Scratch where
  name := "EnsureInUseCount"
  run := do
    let spec := (← get).resource.spec
    match ← countConsumers spec.planName spec.version with
    | .error e => return .stop e
    | .ok count =>
      modify fun c =>
        let status := c.resource.status.getD {}
        { c with
          resource := { c.resource with status := some { status with inUse := count } }
          dirty := c.dirty || status.inUse ≠ count
          scratch := { inUse := some count } }
      return .proceed

def usage : Option Nat → String
  | some n => if n = 0 then "not in use" else "in use by " ++ toString n ++ " resources"
  | none => "not in use"

def ensureReady : RevisionStep Scratch where
  name := "EnsureReady"
  run := do
    mark readyCondition .success (usage (← get).scratch.inUse)
    return .proceed

end InfraOperator.Catalog
