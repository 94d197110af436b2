import InfraOperator.Proofs.Provisioning.Journal

/-!
# Steps in a world that stands still

In a world that stands still a step has one turn to take: how it ends, what it says of a condition,
what it counts and what it finds out follow from the object and from what steps before it found out.
A stage that is complete is passed over; otherwise its turn does not look at the conditions at all.
An account is a step with the turns it takes, and proof of it.
-/

set_option autoImplicit false

namespace InfraOperator.Provisioning

/-- What cycles of a configuration find, however often they look. -/
structure World where
  provider : Option Provider := none
  policies : List Policy := []
  units : List Job := []
  outputs : Option Secret := none

/-- The call succeeds, and is answered as the world is. Secrets but for the outputs may change. -/
def World.Answers (w : World) (settings : Settings) (uid : String) :
    StoreCall ConfigurationStore → Prop
  | ⟨.getProvider _, answer⟩ =>
    answer = (some (.ok w.provider) : Option (Outcome (Option Provider)))
  | ⟨.listPolicies, answer⟩ => answer = (some (.ok w.policies) : Option (Outcome (List Policy)))
  | ⟨.listUnits _ _, answer⟩ => answer = (some (.ok w.units) : Option (Outcome (List Job)))
  | ⟨.getSecret name ns, answer⟩ =>
    ∃ found, answer = (some (.ok found) : Option (Outcome (Option Secret))) ∧
      (name = SecretName.outputs uid → ns = settings.namespaceName → found = w.outputs)
  | ⟨_, answer⟩ => ∃ value, answer = some (.ok value)

/-- What the API server changes of the metadata when it stores a status. -/
structure Stamp where
  version : Option String
  fields : Option (List ManagedFields)

/-- The object as it is read again: with whichever status, and stamped in whichever way. -/
def again (object : Configuration) (stamp : Stamp) (status : Option ConfigurationStatus) :
    Configuration :=
  { object with
    metadata :=
      { object.metadata with resourceVersion := stamp.version, managedFields := stamp.fields }
    status }

def Alike (object r : Configuration) : Prop := ∃ stamp status, r = again object stamp status

theorem alike_of_eq {object r : Configuration} (metadata : r.metadata = object.metadata)
    (spec : r.spec = object.spec) : Alike object r := by
  obtain ⟨m, s, status⟩ := r
  obtain rfl : m = object.metadata := metadata
  obtain rfl : s = object.spec := spec
  exact ⟨⟨object.metadata.resourceVersion, object.metadata.managedFields⟩, status, rfl⟩

theorem Alike.congr {object r r' : Configuration} (h : Alike object r)
    (metadata : r'.metadata = r.metadata) (spec : r'.spec = r.spec) : Alike object r' := by
  obtain ⟨stamp, status, rfl⟩ := h
  obtain ⟨m, s, status⟩ := r'
  obtain rfl : m = _ := metadata
  obtain rfl : s = _ := spec
  exact ⟨stamp, status, rfl⟩

theorem Alike.same {α : Type} {object r : Configuration} (h : Alike object r)
    (look : Configuration → α)
    (blind : ∀ stamp status, look (again object stamp status) = look object) :
    look r = look object := by
  obtain ⟨stamp, status, rfl⟩ := h
  exact blind stamp status

structure Turn where
  verdict : Verdict := .proceed
  marks : Option (Mark × String) := none
  count : Option Nat := none
  scratch : Scratch

namespace Turn

def speak (marks : Option (Mark × String)) (type : String) (now : Instant)
    (c : ConfigurationCycle) : ConfigurationCycle :=
  match marks with
  | some (mark, message) => (c.markAt type mark message now).2
  | none => c

def tally (count : Option Nat) (c : ConfigurationCycle) : ConfigurationCycle :=
  match count with
  | some count => counted c count
  | none => c

def leave (t : Turn) (type : String) (now : Instant) (c : ConfigurationCycle) :
    ConfigurationCycle :=
  { tally t.count (speak t.marks type now c) with scratch := t.scratch }

end Turn

/-- The turn of a step, if it creates nothing: one that passes over what is complete looks at the
condition it speaks of. -/
def turnOf (type : String) (passes : Bool) (turn : Scratch → Option Turn)
    (c : ConfigurationCycle) : Option Turn :=
  if passes ∧ c.isComplete type then some { scratch := c.scratch } else turn c.scratch

/-- In the world the step takes this turn, or, if there is none, creates a job. -/
def Takes (settings : Settings) (w : World) (uid : String) (step : ConfigurationStep)
    (type : String) (turn : Option Turn) (c : ConfigurationCycle) : Prop :=
  step.run.Does c
    (Staged.From c fun own r =>
      (∀ call ∈ own, w.Answers settings uid call) → turn = none ∨ Ordinary r)
    (fun own verdict c' => (∀ call ∈ own, w.Answers settings uid call) →
      (turn = none ∧ ∃ call ∈ own, created? call ≠ none) ∨
      ∃ t now, turn = some t ∧ verdict = t.verdict ∧ c' = t.leave type now c) []

/-- A step, the condition it speaks of, and the turns it takes in the world over the object. -/
structure Account (settings : Settings) (w : World) (uid : String) (object : Configuration) where
  step : ConfigurationStep
  type : String
  /-- The step passes over what is complete. -/
  passes : Bool := false
  turn : Scratch → Option Turn
  /-- After a success that is passed over, cycles go on as they do right after it. -/
  lasting : passes = true → ∀ x t message, turn x = some t → t.marks = some (.success, message) →
    t = { marks := t.marks, scratch := x }
  takes : ∀ c, Alike object c.resource →
    Takes settings w uid step type (turnOf type passes turn c) c

section Accounts

variable {settings : Settings} {w : World} {uid : String} {object : Configuration}
  {step : ConfigurationStep} {type : String} {c : ConfigurationCycle}

theorem World.not_answers_error {call : ConfigurationCall} {e : Failure} :
    ¬ w.Answers settings uid (told call (.error e)) := by
  intro h
  cases call with
  | getProvider => cases h
  | listPolicies => cases h
  | listUnits => cases h
  | getSecret =>
    obtain ⟨found, h, -⟩ := h
    cases h
  | _ =>
    obtain ⟨value, h⟩ := h
    cases h

theorem takes_of_does {t : Turn}
    {asks : Calls → Surroundings.Request ConfigurationStore → Prop}
    {ends : Calls → Verdict → ConfigurationCycle → Prop}
    (does : step.run.Does c (Staged.From c asks) ends [])
    (ordinary : ∀ own r, asks own r → Ordinary r)
    (ended : ∀ own verdict c', (∀ call ∈ own, w.Answers settings uid call) →
      ends own verdict c' → ∃ now, verdict = t.verdict ∧ c' = t.leave type now c) :
    Takes settings w uid step type (some t) c := by
  refine does.mono ?_ ?_
  · rintro own _ r ⟨rfl, asked⟩
    exact ⟨rfl, fun _ => .inr (ordinary own r asked)⟩
  · intro own verdict c' ends given
    obtain ⟨now, verdict_eq, left⟩ := ended own verdict c' given ends
    exact .inr ⟨t, now, rfl, verdict_eq, left⟩

theorem World.Answers.provider {name : String} {found : Option Provider}
    (h : w.Answers settings uid (told (.getProvider name) (.ok found))) : found = w.provider :=
  Except.ok.inj (Option.some.inj h)

theorem World.Answers.policies {found : List Policy}
    (h : w.Answers settings uid (told .listPolicies (.ok found))) : found = w.policies :=
  Except.ok.inj (Option.some.inj h)

theorem World.Answers.units {ns owner : String} {found : List Job}
    (h : w.Answers settings uid (told (.listUnits ns owner) (.ok found))) : found = w.units :=
  Except.ok.inj (Option.some.inj h)

theorem World.Answers.outputs {found : Option Secret} (h : w.Answers settings uid
    (told (.getSecret (SecretName.outputs uid) settings.namespaceName) (.ok found))) :
    found = w.outputs := by
  obtain ⟨found', same, known⟩ := h
  rw [Except.ok.inj (Option.some.inj same)]
  exact known rfl rfl

/-- A secret that has a home is brought to be as desired. -/
theorem SecretEnds.ok {desired : Secret} {own : Calls} {result : Outcome Unit} {ns : String}
    (h : SecretEnds desired own result) (given : ∀ call ∈ own, w.Answers settings uid call)
    (home : desired.metadata.namespaceName = some ns) : result = .ok () := by
  have succeeds : ∀ (call : ConfigurationCall) (answer : Outcome call.Answer),
      told call answer ∈ own → ∃ value, answer = .ok value := by
    intro call answer called
    cases answer with
    | error e => exact absurd (given _ called) World.not_answers_error
    | ok value => exact ⟨value, rfl⟩
  cases h with
  | homeless homeless =>
    rw [homeless] at home
    cases home
  | unread => exact absurd (given _ (List.mem_cons_self ..)) World.not_answers_error
  | created =>
    obtain ⟨value, h⟩ := succeeds (.createSecret desired) result (by simp)
    exact h
  | kept => rfl
  | @patched ns =>
    obtain ⟨value, h⟩ := succeeds
      (.patchSecretData desired.metadata.displayName ns (desired.data.getD ∅)) result (by simp)
    exact h

theorem leave_says {verdict : Verdict} {mark : Mark} {message : String} {now : Instant} :
    ({ verdict, marks := some (mark, message), scratch := c.scratch } : Turn).leave type now c =
      (c.markAt type mark message now).2 := by
  have kept : (c.markAt type mark message now).2.scratch = c.scratch := Cycle.scratch_markAt
  calc
    _ = { (c.markAt type mark message now).2 with scratch := c.scratch } := rfl
    _ = _ := by rw [← kept]

theorem ownerUid_alike (owner : object.metadata.uid = some uid) (alike : Alike object c.resource) :
    c.resource.ownerUid = .ok uid := by
  rw [alike.same Configuration.ownerUid fun _ _ => rfl, Configuration.ownerUid, owner]

/-! ## Before the stages -/

theorem takes_finalizer (held : object.metadata.hasFinalizer cleanupFinalizer = true)
    (alike : Alike object c.resource) :
    Takes settings w uid (ensureFinalizer ConfigurationStore.finalizers cleanupFinalizer) type
      (some { scratch := c.scratch }) c := by
  have held : c.resource.metadata.hasFinalizer cleanupFinalizer = true := by
    rw [alike.same (·.metadata.hasFinalizer cleanupFinalizer) fun _ _ => rfl, held]
  refine takes_of_does does_ensureFinalizer ?_ ?_
  · rintro own r ⟨name, ns, rfl⟩
    trivial
  · intro own verdict c' given ends
    cases ends with
    | held => exact ⟨default, rfl, rfl⟩
    | homeless unheld => exact absurd (unheld.symm.trans held) Bool.false_ne_true
    | added unheld => exact absurd (unheld.symm.trans held) Bool.false_ne_true
    | refused unheld => exact absurd (unheld.symm.trans held) Bool.false_ne_true

theorem takes_current :
    Takes settings w uid ensureNoPreviousGeneration type (some { scratch := c.scratch }) c := by
  refine takes_of_does does_ensureNoPreviousGeneration (fun _ _ => False.elim) ?_
  rintro own verdict c' - ⟨-, rfl, rfl⟩
  exact ⟨default, rfl, rfl⟩

def providerTurn (w : World) (object : Configuration) (x : Scratch) : Turn :=
  let name := "provider " ++ object.spec.providerName
  match w.provider with
  | none =>
    { verdict := .requeue dependencyDelay
      marks := some (.actionRequired, name ++ " not found")
      scratch := x }
  | some p =>
    if p.isReady then
      { marks := some (.success, name ++ " is ready"), scratch := { x with provider := some p } }
    else
      { verdict := .requeue dependencyDelay
        marks := some (.warning, name ++ " is not ready")
        scratch := x }

theorem takes_provider (alike : Alike object c.resource) :
    Takes settings w uid ensureProviderReady Configuration.providerReady
      (some (providerTurn w object c.scratch)) c := by
  have spec := alike.same (·.spec) fun _ _ => rfl
  refine takes_of_does does_ensureProviderReady ?_ ?_
  · rintro own r rfl
    trivial
  · intro own verdict c' given ends
    cases ends with
    | failed => exact absurd (given _ (List.mem_cons_self ..)) World.not_answers_error
    | @missing now =>
      have found := (given _ (List.mem_cons_self ..)).provider
      refine ⟨now, ?_⟩
      rw [providerTurn, ← found, ← spec]
      exact ⟨rfl, leave_says.symm⟩
    | @unready p now unready =>
      have found := (given _ (List.mem_cons_self ..)).provider
      refine ⟨now, ?_⟩
      rw [providerTurn, ← found, ← spec]
      simp only [unready, Bool.false_eq_true, if_false]
      exact ⟨trivial, leave_says.symm⟩
    | @ready p now ready =>
      have found := (given _ (List.mem_cons_self ..)).provider
      refine ⟨now, ?_⟩
      rw [providerTurn, ← found, ← spec]
      simp only [ready, if_true]
      exact ⟨trivial, rfl⟩

def policyTurn (w : World) (object : Configuration) (x : Scratch) : Turn :=
  { scratch := { x with policy := w.policies.find? (·.applies object.metadata.labels) } }

theorem takes_policies (alike : Alike object c.resource) :
    Takes settings w uid ensurePolicies type (some (policyTurn w object c.scratch)) c := by
  have labels := alike.same (·.metadata.labels) fun _ _ => rfl
  refine takes_of_does does_ensurePolicies ?_ ?_
  · rintro own r rfl
    trivial
  · intro own verdict c' given ends
    cases ends with
    | failed => exact absurd (given _ (List.mem_cons_self ..)) World.not_answers_error
    | selected =>
      obtain rfl := (given _ (List.mem_cons_self ..)).policies
      rw [policyTurn, ← labels]
      exact ⟨default, rfl, rfl⟩

theorem takes_listing (owner : object.metadata.uid = some uid) (alike : Alike object c.resource) :
    Takes settings w uid (ensureUnitListing settings) type
      (some { scratch := { c.scratch with units := w.units } }) c := by
  have owned := ownerUid_alike owner alike
  refine takes_of_does does_ensureUnitListing ?_ ?_
  · rintro own r ⟨uid, rfl⟩
    trivial
  · intro own verdict c' given ends
    cases ends with
    | ownerless h =>
      rw [owned] at h
      cases h
    | failed => exact absurd (given _ (List.mem_cons_self ..)) World.not_answers_error
    | listed =>
      obtain rfl := (given _ (List.mem_cons_self ..)).units
      exact ⟨default, rfl, rfl⟩

def jobConfigurationVerdict (settings : Settings) (object : Configuration) :
    Option Provider → Verdict
  | none => .stop (.internal "EnsureJobConfiguration" "provider not resolved")
  | some p =>
    match Rendering.configSecret object p settings.namespaceName with
    | .error e => .stop e
    | .ok _ => .proceed

theorem takes_jobConfiguration (alike : Alike object c.resource) :
    Takes settings w uid (ensureJobConfiguration settings) type
      (some
        { verdict := jobConfigurationVerdict settings object c.scratch.provider
          scratch := c.scratch }) c := by
  have rendering : ∀ p, Rendering.configSecret c.resource p settings.namespaceName =
      Rendering.configSecret object p settings.namespaceName :=
    fun p => alike.same (Rendering.configSecret · p settings.namespaceName) fun _ _ => rfl
  refine takes_of_does does_ensureJobConfiguration ?_ ?_
  · rintro own r ⟨secret, -, asks⟩
    exact asks.ordinary
  · intro own verdict c' given ends
    refine ⟨default, ?_⟩
    cases ends with
    | unresolved unknown => exact ⟨by rw [unknown]; rfl, rfl⟩
    | unrendered known rendered =>
      rw [rendering] at rendered
      exact ⟨by simp only [known, jobConfigurationVerdict, rendered], rfl⟩
    | @brought secret _ result made ends =>
      obtain ⟨p, known, rendered⟩ := made
      have home : secret.metadata.namespaceName = some settings.namespaceName := by
        unfold Rendering.configSecret at rendered
        cases owner : c.resource.ownerUid with
        | error e =>
          rw [owner] at rendered
          cases rendered
        | ok uid =>
          rw [owner] at rendered
          cases rendered
          rfl
      rw [rendering] at rendered
      obtain rfl := ends.ok given home
      exact ⟨by simp only [known, jobConfigurationVerdict, rendered, verdictOf], rfl⟩

/-! ## The stages -/

def StageRun.followTurn (s : StageRun) (unit : Job) (x : Scratch) : Turn :=
  let name := s.stage.text ++ " unit " ++ unit.metadata.displayName
  match unit.state with
  | .complete => { marks := some (.success, name ++ " succeeded"), scratch := x }
  | .failed =>
    { verdict := .pause
      marks := some (.failed, failureMessage (name ++ " failed") unit.failureMessage)
      scratch := x }
  | .active =>
    { verdict := .requeue activeDelay
      marks := some (.inProgress, name ++ " is running")
      scratch := x }

def StageRun.openTurn (s : StageRun) (settings : Settings) (w : World) (object : Configuration)
    (x : Scratch) : Option Turn :=
  match x.provider.or w.provider with
  | none =>
    some
      { verdict := .requeue dependencyDelay
        marks := some (.actionRequired, "provider " ++ object.spec.providerName ++ " not found")
        scratch := x }
  | some p =>
    match (s.request settings (Cycle.start object x) p).renderUnit with
    | .error e =>
      some
        { verdict := .pause
          marks := some
            (.failed, failureMessage ("cannot render " ++ s.stage.text ++ " unit") e.message)
          scratch := x }
    | .ok _ => none

def StageRun.turn (s : StageRun) (settings : Settings) (w : World) (uid : String)
    (object : Configuration) (x : Scratch) : Option Turn :=
  if s.stage = .verify ∧ x.policy.isNone then
    some { marks := some (.disabled, "no policy applies"), scratch := x }
  else
    match (object.unitFilter settings.namespaceName uid s.stage).latest? x.units with
    | some unit => some (s.followTurn unit x)
    | none =>
      if s.gated ∧ object.applyApproved = false then
        some
          { verdict := .pause
            marks := some (.actionRequired,
              "waiting for approval: set annotation " ++ Annotation.apply ++ "=true")
            scratch := x }
      else s.openTurn settings w object x

section Stages

variable {s : StageRun}

/-- Only a stage with a complete unit says that it succeeded. -/
theorem StageRun.lasting_turn {x : Scratch} {t : Turn} {message : String}
    (h : s.turn settings w uid object x = some t) (marks : t.marks = some (.success, message)) :
    t = { marks := t.marks, scratch := x } := by
  unfold StageRun.turn at h
  split at h
  · cases h
    cases marks
  split at h
  · cases h
    unfold StageRun.followTurn at marks ⊢
    split at marks <;> first | rfl | cases marks
  split at h
  · cases h
    cases marks
  unfold StageRun.openTurn at h
  split at h
  · cases h
    cases marks
  · split at h
    · cases h
      cases marks
    · cases h

theorem StageRun.Due.turnOf_eq {turn : Scratch → Option Turn} (due : s.Due c) :
    turnOf s.condition true turn c = turn c.scratch := by
  rw [turnOf, if_neg]
  exact fun h => absurd (due.incomplete.symm.trans h.2) Bool.false_ne_true

theorem StageRun.turn_of_unit {x : Scratch} {unit : Job}
    (policed : ¬ (s.stage = .verify ∧ x.policy.isNone))
    (latest : (object.unitFilter settings.namespaceName uid s.stage).latest? x.units = some unit) :
    s.turn settings w uid object x = some (s.followTurn unit x) := by
  rw [StageRun.turn, if_neg policed, latest]

theorem latest_alike (alike : Alike object c.resource) {uid' : String}
    (owned : c.resource.ownerUid = .ok uid) (owner : c.resource.ownerUid = .ok uid')
    {found : Option Job}
    (latest : (c.resource.unitFilter settings.namespaceName uid' s.stage).latest?
      c.scratch.units = found) :
    (object.unitFilter settings.namespaceName uid s.stage).latest? c.scratch.units = found := by
  obtain rfl : uid = uid' := Except.ok.inj (owned.symm.trans owner)
  rw [← latest, alike.same (·.unitFilter settings.namespaceName uid s.stage) fun _ _ => rfl]

theorem StageRun.Opens.turn_eq (h : s.Opens settings c) (alike : Alike object c.resource)
    (owned : c.resource.ownerUid = .ok uid) :
    s.turn settings w uid object c.scratch = s.openTurn settings w object c.scratch := by
  obtain ⟨uid', owner, unseen⟩ := h.unseen
  have approved : ¬ (s.gated = true ∧ object.applyApproved = false) := by
    rw [← alike.same Configuration.applyApproved fun _ _ => rfl]
    exact h.approved
  rw [StageRun.turn, if_neg h.policed, latest_alike alike owned owner unseen]
  exact if_neg approved

theorem ProviderFound.eq {own : Calls} {p : Provider} (h : ProviderFound c own p)
    (given : ∀ call ∈ own, w.Answers settings uid call) :
    c.scratch.provider.or w.provider = some p := by
  cases h with
  | known known => rw [known, Option.some_or]
  | asked unknown =>
    rw [unknown, Option.none_or]
    exact (given _ (List.mem_cons_self ..)).provider.symm

theorem renderUnit_alike (alike : Alike object c.resource) (p : Provider) :
    (s.request settings (Cycle.start object c.scratch) p).renderUnit =
      (s.request settings c p).renderUnit :=
  (alike.same (fun r => (s.request settings (Cycle.start r c.scratch) p).renderUnit)
    fun _ _ => rfl).symm

theorem StageRun.Opens.turn_eq_none (h : s.Opens settings c) (alike : Alike object c.resource)
    (owned : c.resource.ownerUid = .ok uid) {p : Provider}
    (found : c.scratch.provider.or w.provider = some p) {unit : Job}
    (rendered : (s.request settings c p).renderUnit = .ok unit) :
    turnOf s.condition true (s.turn settings w uid object) c = none := by
  rw [h.toDue.turnOf_eq, h.turn_eq alike owned, StageRun.openTurn, found]
  simp only [renderUnit_alike alike, rendered]

theorem StageRun.Asks.none_or_ordinary {own : Calls}
    {r : Surroundings.Request ConfigurationStore} (h : s.Asks settings c own r)
    (alike : Alike object c.resource) (owned : c.resource.ownerUid = .ok uid)
    (given : ∀ call ∈ own, w.Answers settings uid call) :
    turnOf s.condition true (s.turn settings w uid object) c = none ∨ Ordinary r := by
  cases h with
  | provider => exact .inr trivial
  | watcher opens found on rendered =>
    exact .inl (opens.turn_eq_none alike owned (found.eq given) rendered)
  | unit opens found rendered =>
    have found := found.eq fun call hc => given call (List.mem_append_left _ hc)
    exact .inl (opens.turn_eq_none alike owned found rendered)
  | tell h opens found rendered =>
    have found := found.eq fun call hc => given call (List.mem_append_left _ hc)
    exact .inl (opens.turn_eq_none alike owned found rendered)

theorem StageRun.Ends.takes {own : Calls} {verdict : Verdict} {c' : ConfigurationCycle}
    (h : s.Ends settings c own verdict c') (alike : Alike object c.resource)
    (owned : c.resource.ownerUid = .ok uid)
    (given : ∀ call ∈ own, w.Answers settings uid call) :
    (turnOf s.condition true (s.turn settings w uid object) c = none ∧
      ∃ call ∈ own, created? call ≠ none) ∨
    ∃ t now, turnOf s.condition true (s.turn settings w uid object) c = some t ∧
      verdict = t.verdict ∧ c' = t.leave s.condition now c := by
  cases h with
  | passed complete =>
    refine .inr ⟨{ scratch := c.scratch }, default, ?_, rfl, rfl⟩
    rw [turnOf, if_pos ⟨rfl, complete⟩]
  | @disabled now incomplete verify free =>
    refine .inr ⟨_, now, ?_, rfl, leave_says.symm⟩
    rw [turnOf, if_neg (by simp [incomplete]), StageRun.turn, if_pos ⟨verify, by simp [free]⟩]
  | ownerless due h =>
    rw [owned] at h
    cases h
  | @succeeded _ unit now due owner latest state =>
    refine .inr ⟨s.followTurn unit c.scratch, now, ?_, ?_⟩
    · rw [due.turnOf_eq, turn_of_unit due.policed (latest_alike alike owned owner latest)]
    · simp only [followTurn, state]
      exact ⟨trivial, leave_says.symm⟩
  | @failed _ unit now due owner latest state =>
    refine .inr ⟨s.followTurn unit c.scratch, now, ?_, ?_⟩
    · rw [due.turnOf_eq, turn_of_unit due.policed (latest_alike alike owned owner latest)]
    · simp only [followTurn, state]
      exact ⟨trivial, leave_says.symm⟩
  | @active _ unit now due owner latest state =>
    refine .inr ⟨s.followTurn unit c.scratch, now, ?_, ?_⟩
    · rw [due.turnOf_eq, turn_of_unit due.policed (latest_alike alike owned owner latest)]
    · simp only [followTurn, state]
      exact ⟨trivial, leave_says.symm⟩
  | @unapproved _ now due owner latest gated unapproved =>
    refine .inr ⟨_, now, ?_, rfl, leave_says.symm⟩
    rw [alike.same Configuration.applyApproved fun _ _ => rfl] at unapproved
    rw [due.turnOf_eq, StageRun.turn, if_neg due.policed, latest_alike alike owned owner latest]
    exact if_pos ⟨gated, unapproved⟩
  | providerFailed => exact absurd (given _ (List.mem_cons_self ..)) World.not_answers_error
  | @providerMissing now opens unknown =>
    have found := (given _ (List.mem_cons_self ..)).provider
    refine .inr ⟨_, now, ?_, rfl, leave_says.symm⟩
    rw [opens.toDue.turnOf_eq, opens.turn_eq alike owned, openTurn, unknown, Option.none_or,
      ← found, alike.same (·.spec) fun _ _ => rfl]
  | @unrendered _ p e now opens found rendered =>
    refine .inr ⟨_, now, ?_, rfl, leave_says.symm⟩
    rw [opens.toDue.turnOf_eq, opens.turn_eq alike owned, openTurn, found.eq given]
    simp only [renderUnit_alike alike, rendered]
  | @refused _ _ _ unit e =>
    exact absurd (given (told (.createJob unit) (.error e)) (by simp)) World.not_answers_error
  | @created _ _ _ unit now opens found rendered =>
    have found := found.eq fun call hc =>
      given call (List.mem_append_left _ (List.mem_append_left _ hc))
    refine .inl ⟨opens.turn_eq_none alike owned found rendered, ?_⟩
    exact ⟨told (.createJob unit) (.ok ()), by simp, nofun⟩

theorem takes_stage (owner : object.metadata.uid = some uid) (alike : Alike object c.resource) :
    Takes settings w uid (s.toStep settings) s.condition
      (turnOf s.condition true (s.turn settings w uid object) c) c := by
  have owned := ownerUid_alike owner alike
  refine (StageRun.does_run (s := s)).mono ?_ ?_
  · rintro own _ r ⟨rfl, asks⟩
    exact ⟨rfl, asks.none_or_ordinary alike owned⟩
  · intro own verdict c' ends
    exact ends.takes alike owned

end Stages

/-! ## After the stages -/

def countTurn (w : World) (x : Scratch) : Turn :=
  { count := w.outputs.bind resourceCount, scratch := x }

theorem takes_count (owner : object.metadata.uid = some uid) (alike : Alike object c.resource) :
    Takes settings w uid (ensureResourceCount settings) type (some (countTurn w c.scratch)) c := by
  have owned := ownerUid_alike owner alike
  refine takes_of_does does_ensureResourceCount ?_ ?_
  · rintro own r ⟨uid, -, rfl⟩
    trivial
  · intro own verdict c' given ends
    cases ends with
    | ownerless h =>
      rw [owned] at h
      cases h
    | unread => exact absurd (given _ (List.mem_cons_self ..)) World.not_answers_error
    | uncounted owner uncounted =>
      obtain rfl := Except.ok.inj (owned.symm.trans owner)
      obtain rfl := (given _ (List.mem_cons_self ..)).outputs
      rw [countTurn, uncounted]
      exact ⟨default, rfl, rfl⟩
    | @counted _ _ count owner found =>
      obtain rfl := Except.ok.inj (owned.symm.trans owner)
      obtain rfl := (given _ (List.mem_cons_self ..)).outputs
      rw [countTurn, found]
      refine ⟨default, rfl, ?_⟩
      have kept := scratch_counted (c := c) count
      calc
        _ = { counted c count with scratch := (counted c count).scratch } := rfl
        _ = _ := by rw [kept]; rfl

def connectionTurn (w : World) (uid : String) (object : Configuration) (x : Scratch) : Turn :=
  if object.spec.connectionSecret.isSome ∧ w.outputs.isNone then
    { verdict := .requeue outputsDelay
      marks := some (.warning, "waiting for outputs secret " ++ SecretName.outputs uid)
      scratch := x }
  else { scratch := x }

theorem takes_connection (owner : object.metadata.uid = some uid)
    (alike : Alike object c.resource) :
    Takes settings w uid (ensureConnectionSecret settings) readyCondition
      (some (connectionTurn w uid object c.scratch)) c := by
  have owned := ownerUid_alike owner alike
  have wants := alike.same (·.spec.connectionSecret) fun _ _ => rfl
  refine takes_of_does does_ensureConnectionSecret (fun _ _ asks => asks.ordinary) ?_
  intro own verdict c' given ends
  cases ends with
  | unwanted h =>
    rw [wants] at h
    refine ⟨default, ?_⟩
    rw [connectionTurn, if_neg (by simp [h])]
    exact ⟨rfl, rfl⟩
  | ownerless h =>
    rw [owned] at h
    cases h
  | unread => exact absurd (given _ (List.mem_cons_self ..)) World.not_answers_error
  | @waiting _ _ now wanted owner =>
    obtain rfl := Except.ok.inj (owned.symm.trans owner)
    have missing := (given _ (List.mem_cons_self ..)).outputs
    rw [wants] at wanted
    refine ⟨now, ?_⟩
    rw [connectionTurn, if_pos (by simp [wanted, ← missing])]
    exact ⟨rfl, leave_says.symm⟩
  | copied owner made ends =>
    obtain rfl := Except.ok.inj (owned.symm.trans owner)
    have found := (given _ (List.mem_cons_self ..)).outputs
    obtain ⟨target, -, rfl⟩ := made
    obtain rfl := ends.ok (fun call hc => given call (List.mem_cons_of_mem _ hc)) rfl
    refine ⟨default, ?_⟩
    rw [connectionTurn, if_neg (by simp [← found])]
    exact ⟨rfl, rfl⟩

theorem takes_ready : Takes settings w uid ensureReady readyCondition
    (some
      { marks := some (.success, "configuration is up to date"), scratch := c.scratch }) c := by
  refine takes_of_does does_ensureReady (fun _ _ => False.elim) ?_
  rintro own verdict c' - ⟨-, rfl, now, rfl⟩
  exact ⟨now, rfl, leave_says.symm⟩

/-! ## All of them -/

def StageRun.account (s : StageRun) (owner : object.metadata.uid = some uid) :
    Account settings w uid object where
  step := s.toStep settings
  type := s.condition
  passes := true
  turn := s.turn settings w uid object
  lasting _ _ _ _ h marks := StageRun.lasting_turn h marks
  takes _ alike := takes_stage owner alike

def Account.plain (step : ConfigurationStep) (type : String) (turn : Scratch → Turn)
    (takes : ∀ c, Alike object c.resource →
      Takes settings w uid step type (some (turn c.scratch)) c) :
    Account settings w uid object where
  step
  type
  passes := false
  turn x := some (turn x)
  lasting h := absurd h Bool.false_ne_true
  takes := takes

/-- The type of a step that speaks of no condition. -/
def unspoken : String := ""

def accounts (settings : Settings) (w : World) (owner : object.metadata.uid = some uid)
    (held : object.metadata.hasFinalizer cleanupFinalizer = true) :
    List (Account settings w uid object) :=
  [.plain (ensureFinalizer ConfigurationStore.finalizers cleanupFinalizer) unspoken
      (fun x => { scratch := x }) fun _ alike => takes_finalizer held alike,
    .plain ensureNoPreviousGeneration unspoken (fun x => { scratch := x })
      fun _ _ => takes_current,
    .plain ensureProviderReady Configuration.providerReady (providerTurn w object)
      fun _ alike => takes_provider alike,
    .plain ensurePolicies unspoken (policyTurn w object) fun _ alike => takes_policies alike,
    .plain (ensureUnitListing settings) unspoken
      (fun x => { scratch := { x with units := w.units } })
      fun _ alike => takes_listing owner alike,
    .plain (ensureJobConfiguration settings) unspoken
      (fun x => { verdict := jobConfigurationVerdict settings object x.provider, scratch := x })
      fun _ alike => takes_jobConfiguration alike,
    StageRun.plan.account owner,
    StageRun.verify.account owner,
    StageRun.apply.account owner,
    .plain (ensureResourceCount settings) unspoken (countTurn w)
      fun _ alike => takes_count owner alike,
    .plain (ensureConnectionSecret settings) readyCondition (connectionTurn w uid object)
      fun _ alike => takes_connection owner alike,
    .plain ensureReady readyCondition
      (fun x => { marks := some (.success, "configuration is up to date"), scratch := x })
      fun _ _ => takes_ready]

theorem step_accounts (owner : object.metadata.uid = some uid)
    (held : object.metadata.hasFinalizer cleanupFinalizer = true) :
    (accounts settings w owner held).map (·.step) = provisioningSteps settings := rfl

end Accounts

end InfraOperator.Provisioning
