import InfraOperator.Proofs.Queries
import InfraOperator.Proofs.Runs

/-!
# The consumers of a revision

The consumers of a revision are counted among those that the API server lists under the labels for
its plan and version, or among all cloud resources where these cannot be labels. Both ways the count
is that of the resources built from the revision, as long as resources carry the labels that they
can carry.
-/

set_option autoImplicit false

namespace InfraOperator.Api

abbrev Replies := (q : Surroundings.Request Http) → Surroundings.Answer q

def carries (m : ObjectMeta) (wanted : List Requirement) : Bool :=
  wanted.all fun w => m.label? w.1 = some w.2

/-- Asked for the cloud resources of all namespaces, the server tells those that carry what is
required, in whatever order. -/
def Lists (answer : Replies) (all : List CloudResource) : Prop :=
  ∀ (target : Target) (wanted : List Requirement), target.path = cloudResources.path →
    target.wanted? = some wanted →
    ∃ (response : HttpResponse) (items : List CloudResource),
      answer (.store ⟨.get, target, none, none, none⟩) = .ok response ∧
      response.decode (Read.objectList CloudResource.read) = .ok items ∧
      items.Perm (all.filter fun c => carries c.metadata wanted)

/-- Resources whose plan and version can be labels carry them as labels. -/
def Labelled (all : List CloudResource) : Prop :=
  ∀ c ∈ all, LabelValue c.planName → LabelValue c.version →
    c.metadata.label? Label.plan = some c.planName ∧
      c.metadata.label? Label.revision = some c.version

def consumers (all : List CloudResource) (plan version : String) : Nat :=
  all.countP fun c => c.planName = plan ∧ c.version = version

/-- What is required of the consumers of a revision: the labels, where there can be such labels. -/
def consumerLabels (plan version : String) : List Requirement :=
  if isLabelValue plan && isLabelValue version then
    [(Label.plan, plan), (Label.revision, version)]
  else []

variable {answer : Replies} {all items : List CloudResource} {plan version : String}

theorem consumerCount_eq :
    consumerCount items plan version = min (consumers items plan version) (2 ^ 32 - 1) := by
  have same : ∀ c : CloudResource, c.consumes plan version =
      decide (c.planName = plan ∧ c.version = version) := by
    intro c
    rw [CloudResource.consumes, Bool.decide_and]
  unfold consumerCount consumers
  rw [List.countP_eq_length_filter]
  simp only [same]
  rfl

theorem carries_of_consumer {c : CloudResource} (labelled : Labelled all) (mem : c ∈ all)
    (planned : c.planName = plan) (versioned : c.version = version) :
    carries c.metadata (consumerLabels plan version) = true := by
  subst planned versioned
  unfold consumerLabels
  split
  · next labels =>
    obtain ⟨plan_label, version_label⟩ := Bool.and_eq_true_iff.1 labels
    obtain ⟨carried, carried'⟩ :=
      labelled c mem (isLabelValue_iff.1 plan_label) (isLabelValue_iff.1 version_label)
    simp [carries, carried, carried']
  · rfl

/-- Among those that carry what is required there are all consumers. -/
theorem consumers_of_perm (labelled : Labelled all)
    (listed : items.Perm (all.filter fun c => carries c.metadata (consumerLabels plan version))) :
    consumers items plan version = consumers all plan version := by
  unfold consumers
  rw [listed.countP_eq, List.countP_filter]
  refine List.countP_congr fun c mem => ?_
  simp only [decide_eq_true_eq, Bool.and_eq_true]
  exact and_iff_left_of_imp fun consumes => carries_of_consumer labelled mem consumes.1 consumes.2

theorem wanted?_consumers :
    Target.wanted? ⟨cloudResources.path, some (Target.queryText (consumerSelector plan version))⟩ =
      some (consumerLabels plan version) := by
  rw [Target.wanted?_queryText]
  cases selected : consumerSelector plan version with
  | none =>
    have other : (isLabelValue plan && isLabelValue version) = false := by
      unfold consumerSelector at selected
      split at selected
      · cases selected
      · next other => exact Bool.eq_false_iff.2 other
    rw [consumerLabels, other]
    rfl
  | some selector =>
    obtain ⟨⟨planned, versioned⟩, -⟩ := consumerSelector_eq_some_iff.1 selected
    rw [consumerLabels, isLabelValue_iff.2 planned, isLabelValue_iff.2 versioned]
    exact requirements?_of_consumerSelector selected

def consumerRequest (plan version : String) : HttpRequest :=
  ⟨.get, ⟨cloudResources.path, some (Target.queryText (consumerSelector plan version))⟩, none,
    none, none⟩

theorem parse?_consumers :
    Target.parse? (cloudResources.path ++ Collection.query (consumerSelector plan version)) =
      some (consumerRequest plan version).target := by
  rw [Target.query_eq, ← String.append_assoc]
  exact Target.parse?_append (by decide) fun c => Target.inQuery_of_mem_queryText

def countIn (plan version : String) (outcome : Outcome HttpResponse) : Outcome Nat := do
  let resources ← (← outcome).decode (Read.objectList CloudResource.read)
  return consumerCount resources plan version

theorem run_countConsumers : (countConsumers plan version).run =
    .ask (.store (consumerRequest plan version)) fun outcome =>
      .done (countIn plan version outcome) := by
  unfold countConsumers Collection.list Client.send
  rw [parse?_consumers]
  refine congrArg (Program.ask (I := Surroundings Http) _) (funext fun outcome => ?_)
  cases outcome with
  | error e => rfl
  | ok response =>
    show (Client.ofOutcome (response.decode (Read.objectList CloudResource.read)) >>=
      fun resources => pure (consumerCount resources plan version) : Client Nat).run =
      Program.done (do
        let resources ← response.decode (Read.objectList CloudResource.read)
        return consumerCount resources plan version)
    cases response.decode (Read.objectList CloudResource.read) <;> rfl

/-- Whichever way they are asked for, all consumers are counted. -/
theorem finish_countConsumers (lists : Lists answer all) (labelled : Labelled all) :
    (countConsumers plan version).run.finish answer =
      .ok (min (consumers all plan version) (2 ^ 32 - 1)) := by
  obtain ⟨response, items, told, decoded, listed⟩ :=
    lists (consumerRequest plan version).target _ rfl wanted?_consumers
  have counted : countIn plan version (.ok response) =
      .ok (consumerCount items plan version) := by
    show (response.decode (Read.objectList CloudResource.read) >>= fun resources =>
      pure (consumerCount resources plan version)) = _
    rw [decoded]
    rfl
  rw [run_countConsumers, ← consumers_of_perm labelled listed, ← consumerCount_eq, ← counted]
  exact congrArg (countIn plan version) told

/-- A text is taken for a label value exactly if it can be one. There is a selector exactly if plan
and version can be, and it consists of a requirement for either. What is counted by one request,
made under these requirements or under none, are the resources in all namespaces that are built from
the revision, up to the greatest number of 32 bits. -/
theorem consumers_exact :
    (∀ text, isLabelValue text = true ↔ LabelValue text) ∧
    (∀ plan version, (∃ selector, consumerSelector plan version = some selector) ↔
      LabelValue plan ∧ LabelValue version) ∧
    (∀ plan version selector, consumerSelector plan version = some selector →
      requirements? selector = some [(Label.plan, plan), (Label.revision, version)]) ∧
    ∀ answer all, Lists answer all → Labelled all → ∀ plan version, ∃ request,
      (countConsumers plan version).run.follow answer =
        [⟨.store request, answer (.store request)⟩] ∧
      request.target.wanted? = some (consumerLabels plan version) ∧
      (countConsumers plan version).run.finish answer =
        .ok (min (consumers all plan version) (2 ^ 32 - 1)) := by
  refine ⟨fun text => isLabelValue_iff, fun plan version => ⟨?_, fun labels => ?_⟩,
    fun plan version selector => requirements?_of_consumerSelector,
    fun answer all lists labelled plan version => ?_⟩
  · rintro ⟨selector, selected⟩
    exact (consumerSelector_eq_some_iff.1 selected).1
  · exact ⟨_, consumerSelector_eq_some_iff.2 ⟨labels, rfl⟩⟩
  · refine ⟨consumerRequest plan version, ?_, wanted?_consumers,
      finish_countConsumers lists labelled⟩
    rw [run_countConsumers]
    rfl

/-! ## A server with two resources -/

def released : CloudResource :=
  { metadata :=
      { labels := some (Dict.ofList [(Label.plan, "net"), (Label.revision, "1.2.0")]) }
    planName := "net"
    version := "1.2.0" }

def built : CloudResource := { metadata := {}, planName := "net", version := "1.2.0+b" }

def releasedText : List String :=
  ["\x7b\"metadata\":\x7b\"labels\":\x7b", "\"terrace.dev/plan\":\"net\",",
    "\"terrace.dev/revision\":", "\"1.2.0\"\x7d\x7d,\"spec\":\x7b",
    "\"plan\":\x7b\"name\":\"net\",", "\"revision\":\"1.2.0\"\x7d\x7d\x7d"]

def builtText : List String :=
  ["\x7b\"metadata\":\x7b\x7d,", "\"spec\":\x7b\"plan\":\x7b", "\"name\":\"net\",",
    "\"revision\":\"1.2.0+b\"", "\x7d\x7d\x7d"]

def listText (parts : List String) : List Char :=
  (["\x7b\"items\":["] ++ parts ++ ["]\x7d"]).flatMap String.toList

def partsOf (wanted : List Requirement) : List String :=
  if carries released.metadata wanted then
    if carries built.metadata wanted then releasedText ++ "," :: builtText else releasedText
  else []

def standing : Replies
  | .store request =>
    .ok ⟨200, String.ofList (listText (partsOf (request.target.wanted?.getD [])))⟩
  | .clock => (.ofSeconds 0 : Instant)
  | .publish _ | .measure _ | .log _ | .wait _ => ()

def readList (cs : List Char) : Option (List CloudResource) :=
  (Json.readValue (2 * cs.length + 2) Json.depthLimit cs).bind fun r =>
    if (Json.skipSpace r.2).isEmpty then Read.objectList CloudResource.read r.1 else none

theorem decode_ofList {cs : List Char} (h : readList cs = some items) :
    (HttpResponse.mk 200 (String.ofList cs)).decode (Read.objectList CloudResource.read) =
      .ok items := by
  have parsed : (Document.parse? (String.ofList cs)).bind (Read.objectList CloudResource.read) =
      some items := by
    rw [← h, Document.parse?, String.toList_ofList, readList]
    cases Json.readValue (2 * cs.length + 2) Json.depthLimit cs with
    | none => rfl
    | some r =>
      simp only [Option.bind_some]
      split <;> rfl
  have accepted : (HttpResponse.mk 200 (String.ofList cs)).accepted = .ok (String.ofList cs) := rfl
  unfold HttpResponse.decode
  simp only [accepted, bind, Except.bind, parsed]
  rfl

theorem carries_built {wanted : List Requirement} :
    carries built.metadata wanted = true ↔ wanted = [] := by
  cases wanted with
  | nil => simp [carries]
  | cons w wanted =>
    have bare : built.metadata.label? w.1 = none := rfl
    simp [carries, bare]

theorem readList_none : readList (listText []) = some [] := by decide +kernel

theorem readList_released : readList (listText releasedText) = some [released] := by
  decide +kernel

theorem readList_both :
    readList (listText (releasedText ++ "," :: builtText)) = some [released, built] := by
  decide +kernel

theorem readList_partsOf (wanted : List Requirement) : readList (listText (partsOf wanted)) =
    some ([released, built].filter fun c => carries c.metadata wanted) := by
  unfold partsOf
  by_cases kept : carries released.metadata wanted = true
  · by_cases bare : carries built.metadata wanted = true
    · simp [kept, bare, readList_both]
    · simp [kept, bare, readList_released]
  · have other : carries built.metadata wanted ≠ true := by
      rw [Ne, carries_built]
      rintro rfl
      exact kept rfl
    simp [kept, other, readList_none]

theorem lists_standing : Lists standing [released, built] := by
  intro target wanted _ asked
  refine ⟨⟨200, String.ofList (listText (partsOf wanted))⟩, _, ?_,
    decode_ofList (readList_partsOf wanted), List.Perm.refl _⟩
  show (.ok ⟨200, String.ofList (listText (partsOf (target.wanted?.getD [])))⟩ :
    Outcome HttpResponse) = _
  rw [asked]
  rfl

theorem labelled_standing : Labelled [released, built] := by
  intro c mem planned versioned
  simp only [List.mem_cons, List.not_mem_nil, or_false] at mem
  rcases mem with rfl | rfl
  · exact ⟨by decide +kernel, by decide +kernel⟩
  · exact absurd (isLabelValue_iff.2 versioned) (by decide +kernel)

/-- Each of the versions has one consumer, though only one of them can be selected. -/
theorem consumers_exact_twoResources :
    (∃ selector, consumerSelector "net" "1.2.0" = some selector) ∧
    consumerLabels "net" "1.2.0+b" = [] ∧
    (countConsumers "net" "1.2.0").run.finish standing = .ok 1 ∧
    (countConsumers "net" "1.2.0+b").run.finish standing = .ok 1 := by
  obtain ⟨values, selects, -, counts⟩ := consumers_exact
  have count := counts standing [released, built] lists_standing labelled_standing
  obtain ⟨request, -, -, one⟩ := count "net" "1.2.0"
  obtain ⟨request', -, -, other⟩ := count "net" "1.2.0+b"
  refine ⟨(selects _ _).2 ⟨(values _).1 (by decide +kernel), (values _).1 (by decide +kernel)⟩,
    by decide +kernel, one.trans (by decide +kernel), other.trans (by decide +kernel)⟩

end InfraOperator.Api
