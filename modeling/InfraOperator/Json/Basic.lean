import InfraOperator.Dict

/-!
# JSON values

Integers keep all their digits; a number outside the 64-bit words, or written with a fraction or
an exponent, is a double and is kept as its bits. Objects built by `Json.object` list their keys
in ascending order, each once.
-/

set_option autoImplicit false

namespace InfraOperator

inductive Json where
  | null
  | bool (b : Bool)
  | int (i : Int)
  | double (bits : UInt64)
  | str (s : String)
  | arr (items : List Json)
  | obj (fields : List (String × Json))
  deriving Inhabited

namespace Json

mutual

def decEq : (a b : Json) → Decidable (a = b)
  | .null, .null => isTrue rfl
  | .bool a, .bool b => decidable_of_iff (a = b) (by simp)
  | .int a, .int b => decidable_of_iff (a = b) (by simp)
  | .double a, .double b => decidable_of_iff (a = b) (by simp)
  | .str a, .str b => decidable_of_iff (a = b) (by simp)
  | .arr a, .arr b => @decidable_of_iff _ (a = b) (by simp) (decEqItems a b)
  | .obj a, .obj b => @decidable_of_iff _ (a = b) (by simp) (decEqFields a b)
  | .null, .bool _ | .null, .int _ | .null, .double _ | .null, .str _ | .null, .arr _
  | .null, .obj _ | .bool _, .null | .bool _, .int _ | .bool _, .double _ | .bool _, .str _
  | .bool _, .arr _ | .bool _, .obj _ | .int _, .null | .int _, .bool _ | .int _, .double _
  | .int _, .str _ | .int _, .arr _ | .int _, .obj _ | .double _, .null | .double _, .bool _
  | .double _, .int _ | .double _, .str _ | .double _, .arr _ | .double _, .obj _
  | .str _, .null | .str _, .bool _ | .str _, .int _ | .str _, .double _ | .str _, .arr _
  | .str _, .obj _ | .arr _, .null | .arr _, .bool _ | .arr _, .int _ | .arr _, .double _
  | .arr _, .str _ | .arr _, .obj _ | .obj _, .null | .obj _, .bool _ | .obj _, .int _
  | .obj _, .double _ | .obj _, .str _ | .obj _, .arr _ => isFalse (by simp)

def decEqItems : (a b : List Json) → Decidable (a = b)
  | [], [] => isTrue rfl
  | a :: as, b :: bs =>
    @decidable_of_iff _ (a = b ∧ as = bs) (by simp)
      (@instDecidableAnd _ _ (decEq a b) (decEqItems as bs))
  | [], _ :: _ | _ :: _, [] => isFalse (by simp)

def decEqFields : (a b : List (String × Json)) → Decidable (a = b)
  | [], [] => isTrue rfl
  | (k, a) :: as, (l, b) :: bs =>
    @decidable_of_iff _ (k = l ∧ a = b ∧ as = bs) (by simp [and_assoc])
      (@instDecidableAnd _ _ inferInstance
        (@instDecidableAnd _ _ (decEq a b) (decEqFields as bs)))
  | [], _ :: _ | _ :: _, [] => isFalse (by simp)

end

instance : DecidableEq Json := decEq

def ofDict (d : Dict Json) : Json := .obj d.entries

def object (fields : List (String × Json)) : Json := ofDict (Dict.ofList fields)

def field {α : Type} (name : String) (encode : α → Json) : Option α → List (String × Json)
  | some value => [(name, encode value)]
  | none => []

def get? (j : Json) (key : String) : Option Json :=
  match j with
  | .obj fields => fields.lookup key
  | _ => none

def texts (d : Dict String) : Json := .obj (d.entries.map fun e => (e.1, .str e.2))

mutual

/-- What a merge patch makes of a value: objects are patched field by field, a null drops the
field, and anything else replaces the value. -/
def mergePatch (target : Json) : Json → Json
  | .obj patch =>
    let fields := match target with
      | .obj fields => Dict.ofList fields
      | _ => ∅
    ofDict (mergeFields fields patch)
  | patch => patch

def mergeFields (fields : Dict Json) : List (String × Json) → Dict Json
  | [] => fields
  | (key, .null) :: rest => mergeFields (fields.erase key) rest
  | (key, patch) :: rest =>
    mergeFields (fields.insert key (mergePatch ((fields.get? key).getD .null) patch)) rest

end

end Json

end InfraOperator
