import InfraOperator.Resource.Basic
import InfraOperator.Version

/-!
# Plans

A plan lists the revisions of one blueprint by name and version. Its latest revision is the last
of those with the greatest version; versions that do not parse are passed over.
-/

set_option autoImplicit false

namespace InfraOperator

structure PlanEntry where
  name : String
  version : String
  deriving DecidableEq, Repr

structure Plan where
  metadata : ObjectMeta
  revisions : List PlanEntry
  /-- The latest revision as last written, in a status that may be missing. -/
  status : Option (Option PlanEntry) := none
  deriving DecidableEq

namespace PlanEntry

def read (d : Document) : Option PlanEntry := do
  let fields ← Read.record ["name", "revision"] d
  return {
    name := ← fields.required "name" Read.text
    version := ← fields.required "revision" Read.text }

def toJson (e : PlanEntry) : Json :=
  .object [("name", .str e.name), ("revision", .str e.version)]

def versioned (entries : List PlanEntry) : List (Version × PlanEntry) :=
  entries.filterMap fun e => (Version.parse? e.version).map fun v => (v, e)

def latest? (entries : List PlanEntry) : Option PlanEntry :=
  (Version.lastGreatest? (versioned entries)).map Prod.snd

end PlanEntry

namespace Plan

def kindName : String := "Plan"

def readSpec (d : Document) : Option (List PlanEntry) := do
  (← Read.record ["revisions"] d).defaulting "revisions" (Read.list PlanEntry.read) []

def specJson (entries : List PlanEntry) : Json :=
  .object [("revisions", Write.list PlanEntry.toJson entries)]

def readStatus (d : Document) : Option (Option PlanEntry) := do
  (← Read.record ["latest"] d).optional "latest" PlanEntry.read

def statusJson (latest : Option PlanEntry) : Json :=
  .object (Json.field "latest" PlanEntry.toJson latest)

def read (d : Document) : Option Plan := do
  let fields ← readObject d
  return {
    metadata := ← fields.required "metadata" ObjectMeta.read
    revisions := ← fields.required "spec" readSpec
    status := ← fields.optional "status" readStatus }

def toJson (p : Plan) : Json :=
  writeObject kindName p.metadata (specJson p.revisions) (p.status.map statusJson)

def name (p : Plan) : String := p.metadata.displayName

def latest? (p : Plan) : Option PlanEntry := PlanEntry.latest? p.revisions

def shownLatest (p : Plan) : Option PlanEntry := p.status.getD none

def lists (p : Plan) (entry : PlanEntry) : Bool := p.revisions.contains entry

def mentions (p : Plan) (name : String) : Bool := p.revisions.any (·.name = name)

def without (p : Plan) (name : String) : Plan :=
  { p with revisions := p.revisions.filter (·.name ≠ name) }

end Plan

end InfraOperator
