import InfraOperator.Json.Basic

/-!
# Schemas of objects

What the API server is told of the fields of an object: for each its type, whether it has to be
there, whether it may be null, what stands in for it, and what it is for.
-/

set_option autoImplicit false

namespace InfraOperator

structure Notes where
  description : Option String := none
  nullable : Bool := false
  default : Option Json := none

inductive Schema where
  /-- A type with keywords of its own. -/
  | leaf (notes : Notes) (type : String) (keywords : List (String × Json))
  | list (notes : Notes) (item : Schema)
  /-- Fields with their names, and the names of those that have to be there. -/
  | record (notes : Notes) (required : List String) (fields : List (String × Schema))

namespace Notes

def keywords (n : Notes) : List (String × Json) :=
  Json.field "description" Json.str n.description ++
  (if n.nullable then [("nullable", .bool true)] else []) ++
  Json.field "default" id n.default

end Notes

namespace Schema

def withNotes (notes : Notes) : Schema → Schema
  | leaf _ type keywords => leaf notes type keywords
  | list _ item => list notes item
  | record _ required fields => record notes required fields

def text : Schema := leaf {} "string" []
def dateTime : Schema := leaf {} "string" [("format", .str "date-time")]
def boolean : Schema := leaf {} "boolean" []
def int64 : Schema := leaf {} "integer" [("format", .str "int64")]

def zeroBits : UInt64 := 0

def nat32 : Schema :=
  leaf {} "integer" [("format", .str "uint32"), ("minimum", .double zeroBits)]

def choice (texts : List String) : Schema :=
  leaf {} "string" [("enum", .arr (texts.map .str))]

def labels : Schema :=
  leaf {} "object" [("additionalProperties", .obj [("type", .str "string")])]

def anything : Schema :=
  leaf {} "object" [("x-kubernetes-preserve-unknown-fields", .bool true)]

def items (item : Schema) : Schema := list {} item

def fields (required : List String) (fields : List (String × Schema)) : Schema :=
  record {} required fields

def described (s : Schema) (description : String) : Schema :=
  s.withNotes { description := some description }

def optional (s : Schema) (description : String) : Schema :=
  s.withNotes { description := some description, nullable := true }

def defaulting (s : Schema) (default : Json) (description : String) : Schema :=
  s.withNotes { description := some description, default := some default }

mutual

def toJson : Schema → Json
  | leaf notes type keywords =>
    .object <| [("type", .str type)] ++ keywords ++ notes.keywords
  | list notes item =>
    .object <| [("type", .str "array"), ("items", toJson item)] ++ notes.keywords
  | record notes required fields =>
    .object <|
      [("type", .str "object"), ("properties", .object (fieldsJson fields))] ++
      (if required.isEmpty then [] else [("required", .arr (required.map .str))]) ++
      notes.keywords

def fieldsJson : List (String × Schema) → List (String × Json)
  | [] => []
  | (name, schema) :: rest => (name, toJson schema) :: fieldsJson rest

end

end Schema

end InfraOperator
