import InfraOperator.Object.Record

/-!
# Object metadata

What every object carries beside its content: its name and namespace, its labels and annotations,
its owners and finalizers, and what the API server keeps about its age and its versions.
-/

set_option autoImplicit false

namespace InfraOperator

structure OwnerReference where
  apiVersion : String
  kind : String
  name : String
  uid : String
  controller : Option Bool := none
  blockOwnerDeletion : Option Bool := none
  deriving DecidableEq

structure ManagedFields where
  apiVersion : Option String
  fieldsType : Option String
  fieldsV1 : Option Json
  manager : Option String
  operation : Option String
  subresource : Option String
  time : Option Instant
  deriving DecidableEq

structure ObjectMeta where
  name : Option String := none
  namespaceName : Option String := none
  generateName : Option String := none
  uid : Option String := none
  generation : Option Int := none
  resourceVersion : Option String := none
  labels : Option (Dict String) := none
  annotations : Option (Dict String) := none
  finalizers : Option (List String) := none
  ownerReferences : Option (List OwnerReference) := none
  creationTimestamp : Option Instant := none
  deletionTimestamp : Option Instant := none
  deletionGracePeriodSeconds : Option Int := none
  managedFields : Option (List ManagedFields) := none
  selfLink : Option String := none
  deriving DecidableEq

instance : Inhabited ObjectMeta := ⟨{}⟩

namespace OwnerReference

def read (d : Document) : Option OwnerReference := do
  let fields ← Read.object d
  return {
    apiVersion := ← fields.filled "apiVersion" Read.text ""
    kind := ← fields.filled "kind" Read.text ""
    name := ← fields.filled "name" Read.text ""
    uid := ← fields.filled "uid" Read.text ""
    controller := ← fields.optional "controller" Read.bool
    blockOwnerDeletion := ← fields.optional "blockOwnerDeletion" Read.bool }

def toJson (o : OwnerReference) : Json :=
  .object <|
    [("apiVersion", .str o.apiVersion)] ++
    Json.field "blockOwnerDeletion" Write.bool o.blockOwnerDeletion ++
    Json.field "controller" Write.bool o.controller ++
    [("kind", .str o.kind), ("name", .str o.name), ("uid", .str o.uid)]

end OwnerReference

namespace ManagedFields

def read (d : Document) : Option ManagedFields := do
  let fields ← Read.object d
  return {
    apiVersion := ← fields.optional "apiVersion" Read.text
    fieldsType := ← fields.optional "fieldsType" Read.text
    fieldsV1 := ← fields.optional "fieldsV1" Read.value
    manager := ← fields.optional "manager" Read.text
    operation := ← fields.optional "operation" Read.text
    subresource := ← fields.optional "subresource" Read.text
    time := ← fields.optional "time" Read.instant }

def toJson (m : ManagedFields) : Json :=
  .object <|
    Json.field "apiVersion" Write.text m.apiVersion ++
    Json.field "fieldsType" Write.text m.fieldsType ++
    Json.field "fieldsV1" id m.fieldsV1 ++
    Json.field "manager" Write.text m.manager ++
    Json.field "operation" Write.text m.operation ++
    Json.field "subresource" Write.text m.subresource ++
    Json.field "time" Write.second m.time

end ManagedFields

namespace ObjectMeta

def read (d : Document) : Option ObjectMeta := do
  let fields ← Read.object d
  return {
    name := ← fields.optional "name" Read.text
    namespaceName := ← fields.optional "namespace" Read.text
    generateName := ← fields.optional "generateName" Read.text
    uid := ← fields.optional "uid" Read.text
    generation := ← fields.optional "generation" (Read.int .int64)
    resourceVersion := ← fields.optional "resourceVersion" Read.text
    labels := ← fields.optional "labels" Read.labels
    annotations := ← fields.optional "annotations" Read.labels
    finalizers := ← fields.optional "finalizers" Read.texts
    ownerReferences := ← fields.optional "ownerReferences" (Read.list OwnerReference.read)
    creationTimestamp := ← fields.optional "creationTimestamp" Read.instant
    deletionTimestamp := ← fields.optional "deletionTimestamp" Read.instant
    deletionGracePeriodSeconds :=
      ← fields.optional "deletionGracePeriodSeconds" (Read.int .int64)
    managedFields := ← fields.optional "managedFields" (Read.list ManagedFields.read)
    selfLink := ← fields.optional "selfLink" Read.text }

def toJson (m : ObjectMeta) : Json :=
  .object <|
    Json.field "annotations" Write.labels m.annotations ++
    Json.field "creationTimestamp" Write.second m.creationTimestamp ++
    Json.field "deletionGracePeriodSeconds" Write.int m.deletionGracePeriodSeconds ++
    Json.field "deletionTimestamp" Write.second m.deletionTimestamp ++
    Json.field "finalizers" Write.texts m.finalizers ++
    Json.field "generateName" Write.text m.generateName ++
    Json.field "generation" Write.int m.generation ++
    Json.field "labels" Write.labels m.labels ++
    Json.field "managedFields" (Write.list ManagedFields.toJson) m.managedFields ++
    Json.field "name" Write.text m.name ++
    Json.field "namespace" Write.text m.namespaceName ++
    Json.field "ownerReferences" (Write.list OwnerReference.toJson) m.ownerReferences ++
    Json.field "resourceVersion" Write.text m.resourceVersion ++
    Json.field "selfLink" Write.text m.selfLink ++
    Json.field "uid" Write.text m.uid

/-- The name, or the prefix the API server makes one from, or nothing. -/
def displayName (m : ObjectMeta) : String := (m.name.or m.generateName).getD ""

def isDeleting (m : ObjectMeta) : Bool := m.deletionTimestamp.isSome

def hasFinalizer (m : ObjectMeta) (finalizer : String) : Bool :=
  (m.finalizers.getD []).contains finalizer

def isDeletionCandidate (m : ObjectMeta) (finalizer : String) : Bool :=
  m.isDeleting && m.hasFinalizer finalizer

def generationOrZero (m : ObjectMeta) : Int := m.generation.getD 0

def label? (m : ObjectMeta) (key : String) : Option String := (m.labels.getD ∅).get? key

def annotation? (m : ObjectMeta) (key : String) : Option String :=
  (m.annotations.getD ∅).get? key

end ObjectMeta

/-- Whether the annotation is there and says `true`, in capitals or not. -/
def annotationIsTrue (annotations : Option (Dict String)) (key : String) : Bool :=
  match (annotations.getD ∅).get? key with
  | some value => value.toList.map Char.toLower = "true".toList
  | none => false

structure ObjectReference where
  apiVersion : Option String := none
  kind : Option String := none
  name : Option String := none
  namespaceName : Option String := none
  uid : Option String := none
  resourceVersion : Option String := none
  fieldPath : Option String := none
  deriving DecidableEq

namespace ObjectReference

def read (d : Document) : Option ObjectReference := do
  let fields ← Read.object d
  return {
    apiVersion := ← fields.optional "apiVersion" Read.text
    kind := ← fields.optional "kind" Read.text
    name := ← fields.optional "name" Read.text
    namespaceName := ← fields.optional "namespace" Read.text
    uid := ← fields.optional "uid" Read.text
    resourceVersion := ← fields.optional "resourceVersion" Read.text
    fieldPath := ← fields.optional "fieldPath" Read.text }

def toJson (o : ObjectReference) : Json :=
  .object <|
    Json.field "apiVersion" Write.text o.apiVersion ++
    Json.field "fieldPath" Write.text o.fieldPath ++
    Json.field "kind" Write.text o.kind ++
    Json.field "name" Write.text o.name ++
    Json.field "namespace" Write.text o.namespaceName ++
    Json.field "resourceVersion" Write.text o.resourceVersion ++
    Json.field "uid" Write.text o.uid

end ObjectReference

end InfraOperator
