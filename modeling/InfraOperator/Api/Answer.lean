import InfraOperator.Api.Http
import InfraOperator.Failure
import InfraOperator.Json.Reader
import InfraOperator.Object.Record

/-!
# Answers of the API server

A refusal carries a status that says why; one that does not is given a status made from its code
and body. Other answers are objects, lists of objects, or, after a deletion, a status as well.
-/

set_option autoImplicit false

namespace InfraOperator

namespace ApiStatus

def read (d : Document) : Option ApiStatus := do
  let fields ← Read.record ["status", "message", "reason", "code"] d
  return {
    status := ← fields.required "status" Read.text
    message := ← fields.defaulting "message" Read.text ""
    reason := ← fields.defaulting "reason" Read.text ""
    code := ← fields.required "code" (Read.nat .nat16) }

def ofResponse (r : HttpResponse) : ApiStatus :=
  ⟨toString r.status ++ " " ++ reasonPhrase r.status, Text.quoted r.body,
    "Failed to parse error data", r.status⟩

end ApiStatus

namespace HttpResponse

def isRefusal (r : HttpResponse) : Bool := 400 ≤ r.status && r.status < 600

def accepted (r : HttpResponse) : Outcome String :=
  if r.isRefusal then
    .error <| .refused <|
      ((Document.parse? r.body).bind ApiStatus.read).getD (ApiStatus.ofResponse r)
  else .ok r.body

def unreadable : Failure := .api .unreadableAnswer

variable {α : Type}

def decode (read : Reader α) (r : HttpResponse) : Outcome α := do
  match (Document.parse? (← r.accepted)).bind read with
  | some value => return value
  | none => throw unreadable

end HttpResponse

namespace Read

variable {α : Type}

def listMeta (d : Document) : Option Unit := do
  let fields ← Read.object d
  let _ ← fields.optional "continue" Read.text
  let _ ← fields.optional "remainingItemCount" (Read.int .int64)
  let _ ← fields.optional "resourceVersion" Read.text
  let _ ← fields.optional "selfLink" Read.text

/-- The items of a list of objects; the items may be null but not missing. All that is beside the
items and what is told of the list has to have a value. -/
def objectList (item : Reader α) : Reader (List α)
  | .obj all => do
    let fields ← Read.record ["metadata", "items"] (.obj all)
    let others := fields.filter fun e => e.1 ≠ "metadata" ∧ e.1 ≠ "items"
    let _ ← others.mapM fun e => Read.value e.2
    fields.defaulting "metadata" listMeta ()
    fields.required "items" fun
      | .null => some []
      | items => Read.list item items
  | _ => none

def cause (d : Document) : Option Unit := do
  let fields ← Read.record ["reason", "message", "field"] d
  let _ ← fields.defaulting "reason" Read.text ""
  let _ ← fields.defaulting "message" Read.text ""
  let _ ← fields.defaulting "field" Read.text ""

def statusDetails (d : Document) : Option Unit := do
  let fields ← Read.record ["name", "group", "kind", "uid", "causes", "retryAfterSeconds"] d
  let _ ← fields.defaulting "name" Read.text ""
  let _ ← fields.defaulting "group" Read.text ""
  let _ ← fields.defaulting "kind" Read.text ""
  let _ ← fields.defaulting "uid" Read.text ""
  let _ ← fields.defaulting "causes" (Read.list cause) []
  let _ ← fields.defaulting "retryAfterSeconds" (Read.nat .nat32) 0

def summary (d : Document) : Option Unit := do
  let tag ← Read.tag d
  if tag = "Success" ∨ tag = "Failure" then return () else none

def deletionStatus (d : Document) : Option Unit := do
  let fields ← Read.record ["status", "code", "message", "reason", "details"] d
  let _ ← fields.optional "status" summary
  let _ ← fields.defaulting "code" (Read.nat .nat16) 0
  let _ ← fields.defaulting "message" Read.text ""
  let _ ← fields.defaulting "reason" Read.text ""
  let _ ← fields.optional "details" statusDetails

def deleted (read : Reader α) (d : Document) : Option Unit := do
  if (← Read.value d).get? "kind" = some (.str "Status") then deletionStatus d
  else (read d).map fun _ => ()

end Read

end InfraOperator
