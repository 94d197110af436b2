import InfraOperator.Json.Basic

/-!
# JSON documents

A document is a JSON text before anyone asks for its values. An object lists its fields as they
were written, equal keys included, and a part of the text that is well formed but stands for no
value is a blot. Whoever ignores a field may ignore a blot in it; whoever wants the whole value
gets none, and of several equal keys the last.
-/

set_option autoImplicit false

namespace InfraOperator

inductive Document where
  | null
  | bool (b : Bool)
  | int (i : Int)
  | double (bits : UInt64)
  | str (s : String)
  | arr (items : List Document)
  | obj (fields : List (String × Document))
  /-- A number beyond all doubles, half of a surrogate pair, or containers nested too deep. -/
  | blot
  deriving Inhabited

namespace Document

mutual

def ofJson : Json → Document
  | .null => .null
  | .bool b => .bool b
  | .int i => .int i
  | .double bits => .double bits
  | .str s => .str s
  | .arr items => .arr (ofItems items)
  | .obj fields => .obj (ofFields fields)

def ofItems : List Json → List Document
  | [] => []
  | item :: rest => ofJson item :: ofItems rest

def ofFields : List (String × Json) → List (String × Document)
  | [] => []
  | (key, j) :: rest => (key, ofJson j) :: ofFields rest

end

mutual

def value? : Document → Option Json
  | .null => some .null
  | .bool b => some (.bool b)
  | .int i => some (.int i)
  | .double bits => some (.double bits)
  | .str s => some (.str s)
  | .arr items => (itemValues? items).map .arr
  | .obj fields => (fieldValues? fields).map Json.object
  | .blot => none

def itemValues? : List Document → Option (List Json)
  | [] => some []
  | item :: rest => do return (← item.value?) :: (← itemValues? rest)

def fieldValues? : List (String × Document) → Option (List (String × Json))
  | [] => some []
  | (key, d) :: rest => do return (key, ← d.value?) :: (← fieldValues? rest)

end

/-- The fields that have a value can be read back as they are. -/
theorem fieldValues?_ofFields (fields : List (String × Json))
    (h : ∀ e ∈ fields, (ofJson e.2).value? = some e.2) :
    fieldValues? (ofFields fields) = some fields := by
  induction fields with
  | nil => rfl
  | cons e rest ih =>
    have hrest := ih fun e he => h e (List.mem_cons_of_mem _ he)
    simp [ofFields, fieldValues?, h e List.mem_cons_self, hrest]

theorem itemValues?_ofItems (items : List Json)
    (h : ∀ j ∈ items, (ofJson j).value? = some j) :
    itemValues? (ofItems items) = some items := by
  induction items with
  | nil => rfl
  | cons j rest ih =>
    have hrest := ih fun j hj => h j (List.mem_cons_of_mem _ hj)
    simp [ofItems, itemValues?, h j List.mem_cons_self, hrest]

end Document

end InfraOperator
