import InfraOperator.Api.Answer
import InfraOperator.Cycle.Surroundings
import InfraOperator.Resource.Basic

/-!
# A client of the API server

Objects of one kind live under one path, those of a namespace under a path of their own. Reading
an object that does not exist may count as an answer; so may deleting one.
-/

set_option autoImplicit false

namespace InfraOperator

abbrev Client := ExceptT Failure (Program (Surroundings Http))

namespace Client

variable {α : Type}

def ask (r : Surroundings.Request Http) : Client (Surroundings.Answer r) :=
  ExceptT.lift (Program.request (I := Surroundings Http) r)

def log (level : LogLevel) (message : String) (fields : List (String × String)) : Client Unit :=
  ask (.log ⟨level, message, fields⟩)

def fail (e : Failure) : Client α := throw e

def outcome (c : Client α) : Client (Outcome α) := ExceptT.lift c.run

def ofOutcome (o : Outcome α) : Client α := ExceptT.mk (pure o)

def orFail (value : Option α) (e : Failure) : Client α :=
  match value with
  | some value => pure value
  | none => fail e

def send (method : HttpMethod) (target : String) (contentType accept : Option String)
    (body : Option Json) : Client HttpResponse :=
  match Target.parse? target with
  | none => fail (.api .invalidRequest)
  | some target => do
    ofOutcome (← ask (.store (⟨method, target, contentType, accept, body⟩ : HttpRequest)))

end Client

structure Collection (α : Type) where
  path : String
  read : Reader α

namespace Collection

def pathOf (group : String) (namespaceName : Option String) (plural : String) : String :=
  match namespaceName with
  | some ns => group ++ "/namespaces/" ++ ns ++ "/" ++ plural
  | none => group ++ "/" ++ plural

def operatorGroup : String := "/apis/" ++ Group.apiVersion

variable {α : Type} (c : Collection α)

def json : Option String := some "application/json"

def below (name : String) (rest : String) : Client String :=
  if name = "" then Client.fail (.api .invalidRequest)
  else pure (c.path ++ "/" ++ name ++ rest)

def get (name : String) : Client α := do
  let response ← Client.send .get (← c.below name "") none none none
  Client.ofOutcome (response.decode c.read)

def get? (name : String) : Client (Option α) := do
  match ← Client.outcome (c.get name) with
  | .ok object => return some object
  | .error e =>
    match e with
    | .api (.refused status) => if status.reason = "NotFound" then return none else Client.fail e
    | _ => Client.fail e

def query : Option String → String
  | some selector => "?&labelSelector=" ++ Target.formValue selector
  | none => "?"

def list (selector : Option String) : Client (List α) := do
  let response ← Client.send .get (c.path ++ query selector) none none none
  Client.ofOutcome (response.decode (Read.objectList c.read))

def create (object : Json) : Client Unit := do
  let response ← Client.send .post (c.path ++ "?") json none (some object)
  let _ ← Client.ofOutcome (response.decode c.read)

def patchAt (name rest : String) (patch : Json) : Client Unit := do
  let response ← Client.send .patch (← c.below name (rest ++ "?"))
    (some "application/merge-patch+json") json (some patch)
  let _ ← Client.ofOutcome (response.decode c.read)

def patch (name : String) (patch : Json) : Client Unit := c.patchAt name "" patch

def patchStatus (name : String) (patch : Json) : Client Unit := c.patchAt name "/status" patch

def delete (name : String) : Client Unit := do
  let response ← Client.send .delete (← c.below name "?") json none (some (.obj []))
  Client.ofOutcome (response.decode (Read.deleted c.read))

def deleteAll (selector : Option String) : Client Unit := do
  let response ← Client.send .delete (c.path ++ query selector) json none
    (some (.obj [("propagationPolicy", .str "Background")]))
  Client.ofOutcome (response.decode (Read.deleted (Read.objectList c.read)))

end Collection

/-- Patches of a field beside the version that the patched object has to have. -/
def guarded (version : Option String) (fields : List (String × Json)) : Json :=
  .object (fields ++ [("metadata", .obj [("resourceVersion", Write.option .str version)])])

def finalizerPatch (m : ObjectMeta) (finalizers : List String) : Json :=
  .object [("metadata", .object
    [("finalizers", Write.texts finalizers),
      ("resourceVersion", Write.option .str m.resourceVersion)])]

namespace Collection

variable {α : Type} (c : Collection α)

def addFinalizer (metadata : α → ObjectMeta) (name finalizer : String) : Client Unit := do
  let m := metadata (← c.get name)
  if m.hasFinalizer finalizer then return ()
  else c.patch name (finalizerPatch m (m.finalizers.getD [] ++ [finalizer]))

/-- Leaves the other finalizers; an object that is gone already needs no more. -/
def removeFinalizer (metadata : α → ObjectMeta) (name finalizer : String) : Client Unit := do
  match ← c.get? name with
  | none => return ()
  | some object =>
    let m := metadata object
    c.patch name (finalizerPatch m ((m.finalizers.getD []).filter (· ≠ finalizer)))

end Collection

end InfraOperator
