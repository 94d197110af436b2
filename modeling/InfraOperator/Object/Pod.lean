import InfraOperator.Object.Shape.Pod

/-!
# Pods

A pod template by what execution units use of it: containers with their environment and the volumes
mounted into them. The other fields of each record are kept in their shapes, in `others`.
-/

set_option autoImplicit false

namespace InfraOperator

structure EnvVar where
  name : String
  value : Option String := none
  others : List (String × Json) := []
  deriving DecidableEq

structure SecretEnvSource where
  name : String
  optional : Option Bool := none
  deriving DecidableEq

structure EnvFromSource where
  namePrefix : Option String := none
  secretRef : Option SecretEnvSource := none
  others : List (String × Json) := []
  deriving DecidableEq

structure VolumeMount where
  name : String
  mountPath : String
  readOnly : Option Bool := none
  subPath : Option String := none
  others : List (String × Json) := []
  deriving DecidableEq

structure Container where
  name : String
  image : Option String := none
  imagePullPolicy : Option String := none
  command : Option (List String) := none
  args : Option (List String) := none
  workingDir : Option String := none
  env : Option (List EnvVar) := none
  envFrom : Option (List EnvFromSource) := none
  volumeMounts : Option (List VolumeMount) := none
  others : List (String × Json) := []
  deriving DecidableEq

structure SecretVolumeSource where
  secretName : Option String := none
  defaultMode : Option Int := none
  optional : Option Bool := none
  others : List (String × Json) := []
  deriving DecidableEq

structure Volume where
  name : String
  secret : Option SecretVolumeSource := none
  others : List (String × Json) := []
  deriving DecidableEq

structure PodSpec where
  containers : List Container := []
  initContainers : Option (List Container) := none
  serviceAccountName : Option String := none
  restartPolicy : Option String := none
  volumes : Option (List Volume) := none
  others : List (String × Json) := []
  deriving DecidableEq

structure PodTemplate where
  metadata : Option ObjectMeta := none
  spec : Option PodSpec := none
  deriving DecidableEq

namespace EnvVar

def read (d : Document) : Option EnvVar := do
  let fields ← Read.object d
  return {
    name := ← fields.filled "name" Read.text ""
    value := ← fields.optional "value" Read.text
    others := ← Shape.readFields Shape.envVarFields fields }

def toJson (e : EnvVar) : Json :=
  .object <| [("name", .str e.name)] ++ Json.field "value" Write.text e.value ++ e.others

end EnvVar

namespace SecretEnvSource

def read (d : Document) : Option SecretEnvSource := do
  let fields ← Read.object d
  return {
    name := ← fields.filled "name" Read.text ""
    optional := ← fields.optional "optional" Read.bool }

def toJson (s : SecretEnvSource) : Json :=
  .object <| [("name", .str s.name)] ++ Json.field "optional" Write.bool s.optional

end SecretEnvSource

namespace EnvFromSource

def read (d : Document) : Option EnvFromSource := do
  let fields ← Read.object d
  return {
    namePrefix := ← fields.optional "prefix" Read.text
    secretRef := ← fields.optional "secretRef" SecretEnvSource.read
    others := ← Shape.readFields Shape.envFromFields fields }

def toJson (e : EnvFromSource) : Json :=
  .object <|
    Json.field "prefix" Write.text e.namePrefix ++
    Json.field "secretRef" SecretEnvSource.toJson e.secretRef ++
    e.others

end EnvFromSource

namespace VolumeMount

def read (d : Document) : Option VolumeMount := do
  let fields ← Read.object d
  return {
    name := ← fields.filled "name" Read.text ""
    mountPath := ← fields.filled "mountPath" Read.text ""
    readOnly := ← fields.optional "readOnly" Read.bool
    subPath := ← fields.optional "subPath" Read.text
    others := ← Shape.readFields Shape.volumeMountFields fields }

def toJson (v : VolumeMount) : Json :=
  .object <|
    [("mountPath", .str v.mountPath), ("name", .str v.name)] ++
    Json.field "readOnly" Write.bool v.readOnly ++
    Json.field "subPath" Write.text v.subPath ++
    v.others

end VolumeMount

namespace Container

def read (d : Document) : Option Container := do
  let fields ← Read.object d
  return {
    name := ← fields.filled "name" Read.text ""
    image := ← fields.optional "image" Read.text
    imagePullPolicy := ← fields.optional "imagePullPolicy" Read.text
    command := ← fields.optional "command" Read.texts
    args := ← fields.optional "args" Read.texts
    workingDir := ← fields.optional "workingDir" Read.text
    env := ← fields.optional "env" (Read.list EnvVar.read)
    envFrom := ← fields.optional "envFrom" (Read.list EnvFromSource.read)
    volumeMounts := ← fields.optional "volumeMounts" (Read.list VolumeMount.read)
    others := ← Shape.readFields Shape.containerFields fields }

def toJson (c : Container) : Json :=
  .object <|
    Json.field "args" Write.texts c.args ++
    Json.field "command" Write.texts c.command ++
    Json.field "env" (Write.list EnvVar.toJson) c.env ++
    Json.field "envFrom" (Write.list EnvFromSource.toJson) c.envFrom ++
    Json.field "image" Write.text c.image ++
    Json.field "imagePullPolicy" Write.text c.imagePullPolicy ++
    [("name", .str c.name)] ++
    Json.field "volumeMounts" (Write.list VolumeMount.toJson) c.volumeMounts ++
    Json.field "workingDir" Write.text c.workingDir ++
    c.others

end Container

namespace SecretVolumeSource

def read (d : Document) : Option SecretVolumeSource := do
  let fields ← Read.object d
  return {
    secretName := ← fields.optional "secretName" Read.text
    defaultMode := ← fields.optional "defaultMode" (Read.int .int32)
    optional := ← fields.optional "optional" Read.bool
    others := ← Shape.readFields Shape.secretVolumeFields fields }

def toJson (s : SecretVolumeSource) : Json :=
  .object <|
    Json.field "defaultMode" Write.int s.defaultMode ++
    Json.field "optional" Write.bool s.optional ++
    Json.field "secretName" Write.text s.secretName ++
    s.others

end SecretVolumeSource

namespace Volume

def read (d : Document) : Option Volume := do
  let fields ← Read.object d
  return {
    name := ← fields.filled "name" Read.text ""
    secret := ← fields.optional "secret" SecretVolumeSource.read
    others := ← Shape.readFields Shape.volumeSources fields }

def toJson (v : Volume) : Json :=
  .object <|
    [("name", .str v.name)] ++ Json.field "secret" SecretVolumeSource.toJson v.secret ++
    v.others

end Volume

namespace PodSpec

def read (d : Document) : Option PodSpec := do
  let fields ← Read.object d
  return {
    containers := ← fields.filled "containers" (Read.list Container.read) []
    initContainers := ← fields.optional "initContainers" (Read.list Container.read)
    serviceAccountName := ← fields.optional "serviceAccountName" Read.text
    restartPolicy := ← fields.optional "restartPolicy" Read.text
    volumes := ← fields.optional "volumes" (Read.list Volume.read)
    others := ← Shape.readFields Shape.podFields fields }

def toJson (p : PodSpec) : Json :=
  .object <|
    [("containers", Write.list Container.toJson p.containers)] ++
    Json.field "initContainers" (Write.list Container.toJson) p.initContainers ++
    Json.field "restartPolicy" Write.text p.restartPolicy ++
    Json.field "serviceAccountName" Write.text p.serviceAccountName ++
    Json.field "volumes" (Write.list Volume.toJson) p.volumes ++
    p.others

end PodSpec

namespace PodTemplate

def read (d : Document) : Option PodTemplate := do
  let fields ← Read.object d
  return {
    metadata := ← fields.optional "metadata" ObjectMeta.read
    spec := ← fields.optional "spec" PodSpec.read }

def toJson (t : PodTemplate) : Json :=
  .object <|
    Json.field "metadata" ObjectMeta.toJson t.metadata ++
    Json.field "spec" PodSpec.toJson t.spec

end PodTemplate

end InfraOperator
