import InfraOperator.Json.Document
import InfraOperator.Text.Base64
import InfraOperator.Time.Rfc3339

/-!
# Reading records

Typed values are read from documents field by field; a field nobody asks for is ignored, whatever
is in it. Objects of the API server's own kinds take a null for a missing field, and of several
equal fields the last, though all of them have to be readable. Custom resources take a null only
where a field may be missing and no field twice, but also the array of their fields in order for
the record.
-/

set_option autoImplicit false

namespace InfraOperator

abbrev Reader (α : Type) := Document → Option α

abbrev Fields := List (String × Document)

namespace Read

variable {α : Type}

def text : Reader String
  | .str s => some s
  | _ => none

def bool : Reader Bool
  | .bool b => some b
  | _ => none

def int (bounds : Bounds) : Reader Int
  | .int i => bounds.check i
  | _ => none

def nat (bounds : Bounds) (d : Document) : Option Nat := (int bounds d).map Int.toNat

def value : Reader Json := Document.value?

def list (item : Reader α) : Reader (List α)
  | .arr items => items.mapM item
  | _ => none

def dict (value : Reader α) : Reader (Dict α)
  | .obj fields => (fields.mapM fun e => (value e.2).map (e.1, ·)).map Dict.ofList
  | _ => none

def texts : Reader (List String) := list text

def labels : Reader (Dict String) := dict text

def instant (d : Document) : Option Instant := (text d).bind Rfc3339.read?

def bytes : Reader Bytes
  | .null => some []
  | d => (text d).bind Text.Base64.decode

def tag : Reader String
  | .str s => some s
  | .obj [(s, .null)] => some s
  | _ => none

def object : Reader Fields
  | .obj fields => some fields
  | _ => none

def record (names : List String) : Reader Fields
  | .obj fields =>
    if ((fields.map Prod.fst).filter names.contains).Nodup then some fields else none
  | .arr items => if items.length ≤ names.length then some (names.zip items) else none
  | _ => none

end Read

namespace Fields

variable {α : Type} (fields : Fields) (name : String) (read : Reader α)

def named : List Document := (fields.filter (·.1 = name)).map Prod.snd

/-- The last value of that name, if there is one; all of them have to be readable. -/
def last? : Option (Option α) := ((fields.named name).mapM read).map List.getLast?

theorem last?_of_named_nil (h : fields.named name = []) : fields.last? name read = some none := by
  simp [last?, h]

theorem last?_of_named_singleton {d : Document} (h : fields.named name = [d]) :
    fields.last? name read = (read d).map some := by
  cases hd : read d <;> simp [last?, h, hd]

def required : Option α := (fields.last? name read).bind id

/-- None for a field that is missing or null. -/
def optional : Option (Option α) :=
  (fields.last? name fun
    | .null => some none
    | d => (read d).map some).map Option.join

/-- The default for a missing field; a null is read like any value. -/
def defaulting (default : α) : Option α := (fields.last? name read).map (·.getD default)

/-- The default for a field that is missing or null. -/
def filled (default : α) : Option α := (fields.optional name read).map (·.getD default)

/-- The field may be missing but has to be that text. -/
def fixed (value : String) : Option Unit :=
  if (fields.named name).all fun
    | .str s => s = value
    | _ => false
  then some () else none

end Fields

namespace Write

def text (s : String) : Json := .str s
def bool (b : Bool) : Json := .bool b
def int (i : Int) : Json := .int i
def nat (n : Nat) : Json := .int n
def list {α : Type} (item : α → Json) (items : List α) : Json := .arr (items.map item)
def texts (items : List String) : Json := list text items
def dict {α : Type} (value : α → Json) (d : Dict α) : Json :=
  .obj (d.entries.map fun e => (e.1, value e.2))
def labels (d : Dict String) : Json := dict text d
def instant (i : Instant) : Json := .str (Rfc3339.print i)
def second (i : Instant) : Json := .str (Rfc3339.printSeconds i)
def bytes (b : Bytes) : Json := .str (Text.Base64.encode b)
def option {α : Type} (value : α → Json) : Option α → Json
  | some a => value a
  | none => .null

end Write

end InfraOperator
