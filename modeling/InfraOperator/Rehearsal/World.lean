import InfraOperator.Rehearsal.Session

/-!
# Changes from outside

Between the cycles of a rehearsal its objects change: they are put, removed, merged with a patch
and marked for deletion, and jobs make progress.
-/

set_option autoImplicit false

namespace InfraOperator

inductive WorldObject where
  | configuration (object : Configuration)
  | provider (object : Provider)
  | policy (object : Policy)
  | job (object : Job)
  | secret (object : Secret)
  | revision (object : Revision)
  | plan (object : Plan)
  | cloudResource (object : CloudResource)

inductive ObjectKind where
  | configuration
  | provider
  | policy
  | job
  | secret
  | revision
  | plan
  | cloudResource
  deriving DecidableEq, Repr

def ObjectKind.ofName? : String → Option ObjectKind
  | "Configuration" => some .configuration
  | "Provider" => some .provider
  | "Policy" => some .policy
  | "Job" => some .job
  | "Secret" => some .secret
  | "Revision" => some .revision
  | "Plan" => some .plan
  | "CloudResource" => some .cloudResource
  | _ => none

namespace WorldObject

def read (kind : ObjectKind) (d : Document) : Option WorldObject :=
  match kind with
  | .configuration => configuration <$> Configuration.read d
  | .provider => provider <$> Provider.read d
  | .policy => policy <$> Policy.read d
  | .job => job <$> Job.read d
  | .secret => secret <$> Secret.read d
  | .revision => revision <$> Revision.read d
  | .plan => plan <$> Plan.read d
  | .cloudResource => cloudResource <$> CloudResource.read d

def created (time : Instant) (m : ObjectMeta) : ObjectMeta :=
  { m with creationTimestamp := some time }

def createdAt (time : Instant) : WorldObject → WorldObject
  | .configuration o => .configuration { o with metadata := created time o.metadata }
  | .provider o => .provider { o with metadata := created time o.metadata }
  | .policy o => .policy { o with metadata := created time o.metadata }
  | .job o => .job { o with metadata := created time o.metadata }
  | .secret o => .secret { o with metadata := created time o.metadata }
  | .revision o => .revision { o with metadata := created time o.metadata }
  | .plan o => .plan { o with metadata := created time o.metadata }
  | .cloudResource o => .cloudResource { o with metadata := created time o.metadata }

end WorldObject

structure AgedObject where
  object : WorldObject
  age : Option Int

namespace AgedObject

def read (fields : Fields) : Option AgedObject := do
  let kind ← ObjectKind.ofName? (← fields.required "kind" Read.text)
  return ⟨← fields.required "object" (WorldObject.read kind),
    ← fields.optional "ageSecs" (Read.int .int64)⟩

def asOf (o : AgedObject) (now : Instant) : WorldObject :=
  match o.age with
  | some age => o.object.createdAt (.ofNanos (now.sinceEpoch - age * Span.perSecond))
  | none => o.object

end AgedObject

namespace Cluster

def put (c : Cluster) : WorldObject → Cluster
  | .configuration o => c.putConfiguration o
  | .provider o => c.putProvider o
  | .policy o => c.putPolicy o
  | .job o => c.putJob o
  | .secret o => c.putSecret o
  | .revision o => c.putRevision o
  | .plan o => c.putPlan o
  | .cloudResource o => c.putCloudResource o

def remove (c : Cluster) (kind : ObjectKind) (name : String) (namespaceName : Option String) :
    Cluster :=
  let kept {α : Type} (metadata : α → ObjectMeta) (objects : List α) : List α :=
    objects.filter fun x =>
      !((metadata x).isNamed name &&
        (namespaceName.isNone || (metadata x).namespaceName = namespaceName))
  match kind with
  | .configuration => { c with configurations := kept Configuration.metadata c.configurations }
  | .provider => { c with providers := kept Provider.metadata c.providers }
  | .policy => { c with policies := kept Policy.metadata c.policies }
  | .job => { c with jobs := kept Job.metadata c.jobs }
  | .secret => { c with secrets := kept Secret.metadata c.secrets }
  | .revision => { c with revisions := kept Revision.metadata c.revisions }
  | .plan => { c with plans := kept Plan.metadata c.plans }
  | .cloudResource => { c with cloudResources := kept CloudResource.metadata c.cloudResources }

def setJobStatus (c : Cluster) (name : String) (namespaceName : Option String)
    (status : JobStatus) : Option Cluster :=
  let isMeant (job : Job) : Bool :=
    job.metadata.isNamed name &&
      (namespaceName.isNone || job.metadata.namespaceName = namespaceName)
  if c.jobs.any isMeant then
    some { c with
      jobs := Shelf.updateFirst isMeant (fun job => { job with status := some status }) c.jobs }
  else none

end Cluster

structure Managed (R : Type) where
  objects : Cluster → List R
  withObjects : Cluster → List R → Cluster
  metadata : R → ObjectMeta
  withMetadata : R → ObjectMeta → R
  read : Reader R
  toJson : R → Json

namespace Managed

variable {R : Type} (managed : Managed R)

def configurations : Managed Configuration where
  objects := Cluster.configurations
  withObjects c configurations := { c with configurations }
  metadata := Configuration.metadata
  withMetadata := Resource.withMetadata
  read := Configuration.read
  toJson := Configuration.toJson

def revisions : Managed Revision where
  objects := Cluster.revisions
  withObjects c revisions := { c with revisions }
  metadata := Revision.metadata
  withMetadata := Resource.withMetadata
  read := Revision.read
  toJson := Revision.toJson

def deletionTime : Instant := .ofSeconds 1704067200

/-- The object after an edit; one of its specification begins another generation. -/
def merged (object : R) (patch : Json) : Option R := do
  let object ← managed.read (.ofJson ((managed.toJson object).mergePatch patch))
  let m := (managed.metadata object).bump
  let edited := (patch.get? "spec").any fun spec => decide (spec ≠ .null)
  let m := if edited then { m with generation := some (m.generationOrZero + 1) } else m
  return managed.withMetadata object m

def merge (c : Cluster) (index : Nat) (patch : Json) : Option Cluster := do
  let objects := managed.objects c
  let object ← objects[index]?
  return managed.withObjects c (objects.set index (← managed.merged object patch))

def delete (c : Cluster) (index : Nat) : Option Cluster := do
  let objects := managed.objects c
  let object ← objects[index]?
  let m := { managed.metadata object with deletionTimestamp := some deletionTime }.bump
  return managed.withObjects c <|
    if m.isReleased then objects.eraseIdx index
    else objects.set index (managed.withMetadata object m)

end Managed

end InfraOperator
