import InfraOperator.Api.Revisions
import InfraOperator.Proofs.Runs

/-!
# What a client asks for an object

A client asks for an object at a target made of the path of its kind and of its name. Reading it is
one request, changing its finalizers is a read and at most one patch of what was read
(`Collection.edited`), both of them at the same path (`Collection.path_eq_of_target?`).
-/

set_option autoImplicit false

namespace InfraOperator

/-! ## Targets -/

theorem Target.path_of_parse? {text : String} {target : Target}
    (h : Target.parse? text = some target) :
    target.path = String.ofList ((text.toList.takeWhile (· ≠ '#')).takeWhile (· ≠ '?')) := by
  unfold Target.parse? at h
  simp only at h
  split at h
  · split at h
    · cases h
      rfl
    · split at h
      · cases h
        rfl
      · cases h
  · cases h

/-- A question mark at the end does not change the path. -/
theorem Target.path_eq_of_parse? {text : String} {target target' : Target}
    (h : Target.parse? text = some target) (h' : Target.parse? (text ++ "?") = some target') :
    target'.path = target.path := by
  have same : ∀ cs : List Char, ((cs ++ ['?']).takeWhile (· ≠ '#')).takeWhile (· ≠ '?') =
      (cs.takeWhile (· ≠ '#')).takeWhile (· ≠ '?') := by
    intro cs
    induction cs with
    | nil => rfl
    | cons c cs ih =>
      rw [List.cons_append, List.takeWhile_cons, List.takeWhile_cons]
      split
      · rw [List.takeWhile_cons, List.takeWhile_cons, ih]
      · rfl
  rw [path_of_parse? h, path_of_parse? h', ← same text.toList, String.toList_append]
  rfl

def Collection.target? {α : Type} (c : Collection α) (name rest : String) : Option Target :=
  if name = "" then none else Target.parse? (c.path ++ "/" ++ name ++ rest)

theorem Collection.path_eq_of_target? {α : Type} {c : Collection α} {name : String}
    {target target' : Target} (h : c.target? name "" = some target)
    (h' : c.target? name "?" = some target') : target'.path = target.path := by
  unfold target? at h h'
  split at h
  · cases h
  · next named =>
    rw [if_neg named] at h'
    rw [String.append_empty] at h
    exact Target.path_eq_of_parse? h h'

/-! ## Programs -/

def Failure.meansMissing : Failure → Bool
  | .api (.refused status) => status.reason = "NotFound"
  | _ => false

def asking {α : Type} (target : Option Target) (request : Target → HttpRequest)
    (next : Outcome HttpResponse → Program (Surroundings Http) (Outcome α)) :
    Program (Surroundings Http) (Outcome α) :=
  match target with
  | none => .done (.error (.api .invalidRequest))
  | some target => Program.ask (I := Surroundings Http) (.store (request target)) next

theorem asking_bind {α β : Type} {target : Option Target} {request : Target → HttpRequest}
    {next : Outcome HttpResponse → Program (Surroundings Http) (Outcome α)}
    {f : Outcome α → Program (Surroundings Http) (Outcome β)}
    (fails : f (.error (.api .invalidRequest)) = .done (.error (.api .invalidRequest))) :
    asking target request next >>= f = asking target request fun answer => next answer >>= f := by
  cases target with
  | none => exact fails
  | some target => rfl

def exchange (request : HttpRequest) (answer : Outcome HttpResponse) :
    Answered (Surroundings Http) :=
  ⟨.store request, answer⟩

theorem reaches_asking_iff {α : Type} {target : Option Target} {request : Target → HttpRequest}
    {next : Outcome HttpResponse → Program (Surroundings Http) (Outcome α)}
    {run : List (Answered (Surroundings Http))} {outcome : Outcome α} :
    (asking target request next).Reaches run (.done outcome) ↔
      (target = none ∧ run = [] ∧ outcome = .error (.api .invalidRequest)) ∨
      ∃ t answer later, target = some t ∧ run = exchange (request t) answer :: later ∧
        (next answer).Reaches later (.done outcome) := by
  cases target with
  | none => simp [asking, Program.reaches_done_iff]
  | some t =>
    refine Program.reaches_ask_iff.trans ?_
    constructor
    · rintro ⟨answer, later, rfl, reached⟩
      exact .inr ⟨t, answer, later, rfl, rfl, reached⟩
    · rintro (⟨⟨⟩, -⟩ | ⟨_, answer, later, ⟨⟩, rfl, reached⟩)
      exact ⟨answer, later, rfl, reached⟩

def readAt (target : Target) : HttpRequest := ⟨.get, target, none, none, none⟩

def patchAt (patch : Json) (target : Target) : HttpRequest :=
  ⟨.patch, target, some "application/merge-patch+json", Collection.json, some patch⟩

theorem Client.run_send_bind {α : Type} {method : HttpMethod} {text : String}
    {contentType accept : Option String} {body : Option Json} {f : HttpResponse → Client α} :
    (Client.send method text contentType accept body >>= f).run =
      asking (Target.parse? text) (fun target => ⟨method, target, contentType, accept, body⟩)
        fun answer =>
          match answer with
          | .ok response => (f response).run
          | .error e => .done (.error e) := by
  unfold Client.send
  cases Target.parse? text with
  | none => rfl
  | some target =>
    refine congrArg (Program.ask (I := Surroundings Http) _) (funext fun answer => ?_)
    cases answer <;> rfl

namespace Collection

variable {α : Type} (c : Collection α) {metadata : α → ObjectMeta} {name finalizer : String}

def decoded (answer : Outcome HttpResponse) : Outcome α := answer.bind (·.decode c.read)

theorem run_below_bind {β : Type} (rest : String) (f : String → Client β) :
    (c.below name rest >>= f).run =
      if name = "" then .done (.error (.api .invalidRequest))
      else (f (c.path ++ "/" ++ name ++ rest)).run := by
  unfold below
  split <;> rfl

theorem run_get (name : String) :
    (c.get name).run = asking (c.target? name "") readAt fun answer => .done (c.decoded answer) := by
  unfold get target?
  rw [run_below_bind, Client.run_send_bind]
  split
  · rfl
  · refine congrArg (asking _ _) (funext fun answer => ?_)
    cases answer <;> rfl

theorem run_patch (name : String) (patch : Json) :
    (c.patch name patch).run = asking (c.target? name "?") (InfraOperator.patchAt patch)
      fun answer => .done ((c.decoded answer).map fun _ => ()) := by
  unfold Collection.patch Collection.patchAt target?
  rw [run_below_bind, Client.run_send_bind]
  split
  · rfl
  · refine congrArg (asking _ _) (funext fun answer => ?_)
    cases answer with
    | error e => rfl
    | ok response =>
      show (Client.ofOutcome (response.decode c.read) >>= fun _ => pure () : Client Unit).run =
        .done ((response.decode c.read).map fun _ => ())
      cases response.decode c.read <;> rfl

/-- Reads an object and patches its finalizers: `next` are those it is to have, none where nothing
is to be done, and `unread` is what comes of it if the object is not read. -/
def edited (metadata : α → ObjectMeta) (name : String) (unread : Failure → Outcome Unit)
    (next : ObjectMeta → Option (List String)) : Program (Surroundings Http) (Outcome Unit) :=
  asking (c.target? name "") readAt fun answer =>
    match c.decoded answer with
    | .error e => .done (unread e)
    | .ok object =>
      match next (metadata object) with
      | none => .done (.ok ())
      | some finalizers =>
        asking (c.target? name "?")
          (InfraOperator.patchAt (finalizerPatch (metadata object) finalizers)) fun answer =>
            .done ((c.decoded answer).map fun _ => ())

def withFinalizer (finalizer : String) (m : ObjectMeta) : Option (List String) :=
  if m.hasFinalizer finalizer then none else some (m.finalizers.getD [] ++ [finalizer])

def withoutFinalizer (finalizer : String) (m : ObjectMeta) : Option (List String) :=
  some ((m.finalizers.getD []).filter (· ≠ finalizer))

def unlessMissing (e : Failure) : Outcome Unit := if e.meansMissing then .ok () else .error e

theorem run_get? (name : String) :
    (c.get? name).run = asking (c.target? name "") readAt fun answer =>
      .done (match c.decoded answer with
        | .ok object => .ok (some object)
        | .error e => (unlessMissing e).map fun _ => none) := by
  unfold get? Client.outcome
  rw [ExceptT.run_bind_lift, run_get, asking_bind (by exact rfl)]
  refine congrArg (asking _ _) (funext fun answer => ?_)
  rw [Program.done_bind]
  cases c.decoded answer with
  | ok object => rfl
  | error e =>
    cases e with
    | api cause =>
      cases cause with
      | refused status =>
        by_cases missing : status.reason = "NotFound"
        · simp only [unlessMissing, Failure.meansMissing, missing]
          rfl
        · simp only [unlessMissing, Failure.meansMissing, missing]
          rfl
      | _ => rfl
    | _ => rfl

theorem run_addFinalizer : (c.addFinalizer metadata name finalizer).run =
    c.edited metadata name .error (withFinalizer finalizer) := by
  unfold addFinalizer edited
  rw [ExceptT.run_bind, run_get, asking_bind (by exact rfl)]
  refine congrArg (asking _ _) (funext fun answer => ?_)
  rw [Program.done_bind]
  cases c.decoded answer with
  | error e => rfl
  | ok object =>
    by_cases held : (metadata object).hasFinalizer finalizer = true
    · simp only [withFinalizer, held, if_true]
      rfl
    · simp only [withFinalizer, held]
      exact c.run_patch name _

theorem run_removeFinalizer : (c.removeFinalizer metadata name finalizer).run =
    c.edited metadata name unlessMissing (withoutFinalizer finalizer) := by
  unfold removeFinalizer edited
  rw [ExceptT.run_bind, run_get?, asking_bind (by exact rfl)]
  refine congrArg (asking _ _) (funext fun answer => ?_)
  rw [Program.done_bind]
  cases c.decoded answer with
  | error e =>
    simp only
    cases unlessMissing e <;> rfl
  | ok object => exact c.run_patch name _

/-- What is asked to change the finalizers, with the answers, and what comes of it. -/
inductive EditRun (c : Collection α) (metadata : α → ObjectMeta) (name : String)
    (unread : Failure → Outcome Unit) (next : ObjectMeta → Option (List String)) :
    List (Answered (Surroundings Http)) → Outcome Unit → Prop
  | unaddressed (h : c.target? name "" = none) :
      EditRun c metadata name unread next [] (.error (.api .invalidRequest))
  | unread {target : Target} {answer : Outcome HttpResponse} {e : Failure}
      (addressed : c.target? name "" = some target) (h : c.decoded answer = .error e) :
      EditRun c metadata name unread next [exchange (readAt target) answer] (unread e)
  | left {target : Target} {answer : Outcome HttpResponse} {object : α}
      (addressed : c.target? name "" = some target) (read : c.decoded answer = .ok object)
      (h : next (metadata object) = none) :
      EditRun c metadata name unread next [exchange (readAt target) answer] (.ok ())
  | unwritten {target : Target} {answer : Outcome HttpResponse} {object : α}
      {finalizers : List String} (addressed : c.target? name "" = some target)
      (read : c.decoded answer = .ok object) (h : next (metadata object) = some finalizers)
      (unaddressed : c.target? name "?" = none) :
      EditRun c metadata name unread next [exchange (readAt target) answer]
        (.error (.api .invalidRequest))
  | written {target target' : Target} {answer answer' : Outcome HttpResponse} {object : α}
      {finalizers : List String} (addressed : c.target? name "" = some target)
      (read : c.decoded answer = .ok object) (h : next (metadata object) = some finalizers)
      (addressed' : c.target? name "?" = some target') :
      EditRun c metadata name unread next
        [exchange (readAt target) answer,
          exchange (InfraOperator.patchAt (finalizerPatch (metadata object) finalizers) target')
            answer']
        ((c.decoded answer').map fun _ => ())

variable {c} in
theorem reaches_edited_iff {unread : Failure → Outcome Unit}
    {next : ObjectMeta → Option (List String)} {run : List (Answered (Surroundings Http))}
    {outcome : Outcome Unit} :
    (c.edited metadata name unread next).Reaches run (.done outcome) ↔
      c.EditRun metadata name unread next run outcome := by
  rw [edited, reaches_asking_iff]
  constructor
  · rintro (⟨unaddressed, rfl, rfl⟩ | ⟨target, answer, later, addressed, rfl, reached⟩)
    · exact .unaddressed unaddressed
    cases read : c.decoded answer with
    | error e =>
      rw [read] at reached
      obtain ⟨rfl, rfl⟩ := Program.reaches_done_iff.1 reached
      exact .unread addressed read
    | ok object =>
      simp only [read] at reached
      cases wanted : next (metadata object) with
      | none =>
        rw [wanted] at reached
        obtain ⟨rfl, rfl⟩ := Program.reaches_done_iff.1 reached
        exact .left addressed read wanted
      | some finalizers =>
        simp only [wanted] at reached
        rcases reaches_asking_iff.1 reached with ⟨unaddressed, rfl, rfl⟩ |
          ⟨target', answer', last, addressed', rfl, patched⟩
        · exact .unwritten addressed read wanted unaddressed
        · obtain ⟨rfl, rfl⟩ := Program.reaches_done_iff.1 patched
          exact .written addressed read wanted addressed'
  · intro edits
    cases edits with
    | unaddressed h => exact .inl ⟨h, rfl, rfl⟩
    | unread addressed h =>
      refine .inr ⟨_, _, [], addressed, rfl, ?_⟩
      rw [h]
      exact .here _
    | left addressed read h =>
      refine .inr ⟨_, _, [], addressed, rfl, ?_⟩
      simp only [read, h]
      exact .here _
    | unwritten addressed read h unaddressed =>
      refine .inr ⟨_, _, [], addressed, rfl, ?_⟩
      simp only [read, h]
      exact reaches_asking_iff.2 (.inl ⟨unaddressed, rfl, rfl⟩)
    | written addressed read h addressed' =>
      refine .inr ⟨_, _, _, addressed, rfl, ?_⟩
      simp only [read, h]
      exact reaches_asking_iff.2 (.inr ⟨_, _, [], addressed', rfl, .here _⟩)

end Collection

end InfraOperator
