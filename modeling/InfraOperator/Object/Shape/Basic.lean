import InfraOperator.Object.Meta

/-!
# Shapes

Records of the API server's own kinds have many fields that units never use. A shape says what
such a field may hold, so that it can be checked and kept: fields that a record does not know are
dropped, a null counts as a missing field, and a field that is always there is filled with the
empty value of its shape.
-/

set_option autoImplicit false

namespace InfraOperator

inductive Shape where
  | text
  | bool
  | int (bounds : Bounds)
  /-- A number, or the name of one. -/
  | port
  | metadata
  | list (item : Shape)
  | dict (value : Shape)
  /-- Fields that are always there, and fields that may be missing. -/
  | record (always sometimes : List (String × Shape))

namespace Shape

def texts : Shape := .list .text

def labels : Shape := .dict .text

def int32 : Shape := .int .int32

def int64 : Shape := .int .int64

def loose (sometimes : List (String × Shape)) : Shape := .record [] sometimes

mutual

def empty : Shape → Json
  | .text => .str ""
  | .bool => .bool false
  | .int _ | .port => .int 0
  | .list _ => .arr []
  | .metadata | .dict _ => .obj []
  | .record always _ => .object (emptyFields always)

def emptyFields : List (String × Shape) → List (String × Json)
  | [] => []
  | (name, shape) :: rest => (name, shape.empty) :: emptyFields rest

end

mutual

/-- A value of the shape, without what the shape does not know. -/
def read : Shape → Reader Json
  | .text, d => (Read.text d).map .str
  | .bool, d => (Read.bool d).map .bool
  | .int bounds, d => (Read.int bounds d).map .int
  | .port, d => ((Read.text d).map .str).or ((Read.int .int32 d).map .int)
  | .metadata, d => (ObjectMeta.read d).map ObjectMeta.toJson
  | .list item, d => (Read.list item.read d).map .arr
  | .dict value, d => (Read.dict value.read d).map Json.ofDict
  | .record always sometimes, d => do
    let fields ← Read.object d
    return .object ((← readAlways always fields) ++ (← readFields sometimes fields))

def readAlways : List (String × Shape) → Fields → Option (List (String × Json))
  | [], _ => some []
  | (name, shape) :: rest, fields => do
    return (name, ← fields.filled name shape.read shape.empty) :: (← readAlways rest fields)

def readFields : List (String × Shape) → Fields → Option (List (String × Json))
  | [], _ => some []
  | (name, shape) :: rest, fields => do
    return Json.field name id (← fields.optional name shape.read) ++ (← readFields rest fields)

end

end Shape

end InfraOperator
