import InfraOperator.Object.Meta

/-!
# Secrets

Named bytes under one name; JSON carries the bytes in Base64.
-/

set_option autoImplicit false

namespace InfraOperator

structure Secret where
  metadata : ObjectMeta := {}
  data : Option (Dict Bytes) := none
  immutable : Option Bool := none
  stringData : Option (Dict String) := none
  type : Option String := none
  deriving DecidableEq

namespace Secret

def read (d : Document) : Option Secret := do
  let fields ← Read.object d
  fields.fixed "apiVersion" "v1"
  fields.fixed "kind" "Secret"
  return {
    metadata := ← fields.filled "metadata" ObjectMeta.read {}
    data := ← fields.optional "data" (Read.dict Read.bytes)
    immutable := ← fields.optional "immutable" Read.bool
    stringData := ← fields.optional "stringData" Read.labels
    type := ← fields.optional "type" Read.text }

def toJson (s : Secret) : Json :=
  .object <|
    [("apiVersion", .str "v1"), ("kind", .str "Secret")] ++
    Json.field "data" (Write.dict Write.bytes) s.data ++
    Json.field "immutable" Write.bool s.immutable ++
    [("metadata", s.metadata.toJson)] ++
    Json.field "stringData" Write.labels s.stringData ++
    Json.field "type" Write.text s.type

end Secret

end InfraOperator
