import InfraOperator.Catalog.Store
import InfraOperator.Settings

/-!
# Expiration

A revision is deleted once it is older than the threshold, its plan has other revisions, one of
them has a greater version, and no cloud resource is built from it. A check that fails ends the
cycle without a failure; the checks are made again after a while.
-/

set_option autoImplicit false

namespace InfraOperator.Catalog

structure ExpiryScratch where
  /-- The revisions of the plan, this one included. -/
  siblings : List Revision := []

def checkExpiryAge (maxAge : Span) : RevisionStep ExpiryScratch where
  name := "CheckExpiryAge"
  run := do
    match (← get).resource.metadata.creationTimestamp with
    | none => return .pause
    | some created =>
      let now ← Staged.clock
      if now.since created ≤ maxAge then return .pause else return .proceed

def checkSiblings : RevisionStep ExpiryScratch where
  name := "CheckSiblings"
  run := do
    match ← listPlanRevisions (← get).resource.spec.planName with
    | .error e => return .stop e
    | .ok siblings =>
      if siblings.length < 2 then
        Staged.log .debug "too few revisions to expire one"
          [("count", toString siblings.length)]
        return .pause
      else
        modify fun c => { c with scratch := { siblings } }
        return .proceed

def isExceeded (own : Version) (versions : List Version) : Bool :=
  versions.any fun v => compare own v = .lt

def checkNotLatest : RevisionStep ExpiryScratch where
  name := "CheckNotLatest"
  run := do
    let c ← get
    match c.resource.version? with
    | none => return .pause
    | some own =>
      if isExceeded own (c.scratch.siblings.filterMap Revision.version?) then return .proceed
      else return .pause

/-- The consumers are counted anew, whatever the status says. -/
def checkNotInUse : RevisionStep ExpiryScratch where
  name := "CheckNotInUse"
  run := do
    let spec := (← get).resource.spec
    match ← countConsumers spec.planName spec.version with
    | .error e => return .stop e
    | .ok count =>
      if count = 0 then return .proceed
      else
        Staged.log .debug "revision still in use" [("consumers", toString count)]
        return .pause

def deleteExpired : RevisionStep ExpiryScratch where
  name := "DeleteRevision"
  run := do
    let revision := (← get).resource
    match ← deleteRevision revision.name with
    | .error e => return .stop e
    | .ok () =>
      let plan := revision.spec.planName
      Staged.log .info "expired revision deleted" [("revision", revision.name), ("plan", plan)]
      Staged.measure (.revisionExpired plan)
      Staged.publish
        { object := Resource.reference revision
          warning := false
          reason := "RevisionExpired"
          action := "Delete"
          note := some
            ("revision " ++ revision.spec.version ++ " of plan " ++ plan ++ " expired unused") }
      return .proceed

def expirationSteps (maxAge : Span) : List (RevisionStep ExpiryScratch) :=
  [checkExpiryAge maxAge, checkSiblings, checkNotLatest, checkNotInUse, deleteExpired]

/-- Checks whether the revision has expired, and deletes it if so. Without a threshold, and while
the revision is being deleted, there is nothing to check. -/
def reconcileExpiration (settings : Settings) (r : Revision) :
    Program (Supervised RevisionStore) (Outcome Action) := do
  match settings.expiration with
  | none => return .ok .awaitChange
  | some maxAge =>
    if maxAge.isZero ∨ r.metadata.isDeleting then return .ok .awaitChange
    else
      match Pipeline.build "revision-expiration" (expirationSteps maxAge) with
      | .error e => return .error e
      | .ok pipeline =>
        let (result, _) ← pipeline.run (Cycle.start r {})
        match result with
        | .error e => return .error e
        | .ok _ => return .ok (.requeue settings.checkInterval)

end InfraOperator.Catalog
