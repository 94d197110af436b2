import InfraOperator.Proofs.Provisioning.Stages

/-!
# Watchers beside units

A stage is prepared up to its unit without regard to watchers (`StageRun.prepare`). What is done for
the watcher comes in front of the creation of the unit, whatever becomes of it (`StageRun.companion`):
without that, a run with watchers is one without them.
-/

set_option autoImplicit false

namespace InfraOperator.Provisioning

abbrev StepEntry := Answered ((Surroundings ConfigurationStore).noting ConfigurationCycle)

def stepEntry (c : ConfigurationCycle) (r : Surroundings.Request ConfigurationStore)
    (answer : Surroundings.Answer r) : StepEntry :=
  ⟨(c, r), answer⟩

def creation (c : ConfigurationCycle) (job : Job) (answer : Outcome Unit) : StepEntry :=
  ⟨(c, .store (.createJob job)), answer⟩

def createsNothing : StepEntry → Bool
  | ⟨(_, .store (.createJob _)), _⟩ => false
  | _ => true

def providerRead? : StoreCall ConfigurationStore → Option Provider
  | ⟨.getProvider _, some (.ok p)⟩ => p
  | _ => none

theorem ProviderFound.eq_some {c : ConfigurationCycle} {own : Calls} {p : Provider}
    (h : ProviderFound c own p) : c.scratch.provider.or (own.findSome? providerRead?) = some p := by
  cases h with
  | known known => rw [known, Option.some_or]
  | asked unknown =>
    rw [unknown, Option.none_or]
    rfl

namespace StageRun

variable {s : StageRun} {settings : Settings} {c c' : ConfigurationCycle}

/-! ## Up to the unit -/

def prepareFor (s : StageRun) (settings : Settings) (provider : Provider) :
    Run (Except Verdict (Provider × Job)) := do
  match (s.request settings (← get) provider).renderUnit with
  | .error e =>
    mark s.condition .failed
      (failureMessage ("cannot render " ++ s.stage.text ++ " unit") e.message)
    return .error .pause
  | .ok unit => return .ok (provider, unit)

def prepareUnit (s : StageRun) (settings : Settings) :
    Run (Except Verdict (Provider × Job)) := do
  let c ← get
  match c.scratch.provider with
  | some provider => s.prepareFor settings provider
  | none =>
    let name := c.resource.spec.providerName
    match ← getProvider name with
    | .error e => return .error (.stop e)
    | .ok none =>
      mark s.condition .actionRequired ("provider " ++ name ++ " not found")
      return .error (.requeue dependencyDelay)
    | .ok (some provider) => s.prepareFor settings provider

/-- The stage up to its unit: how it ends without creating one, or else the unit to be created with
the provider it is rendered for. -/
def prepare (s : StageRun) (settings : Settings) : Run (Except Verdict (Provider × Job)) := do
  let c ← get
  if c.isComplete s.condition then return .error .proceed
  else if s.stage = .verify ∧ c.scratch.policy.isNone then
    mark s.condition .disabled "no policy applies"
    return .error .proceed
  else
    match c.resource.ownerUid with
    | .error e => return .error (.stop e)
    | .ok uid =>
      let filter := c.resource.unitFilter settings.namespaceName uid s.stage
      match filter.latest? c.scratch.units with
      | some unit => return .error (← s.follow unit)
      | none =>
        if s.gated ∧ c.resource.applyApproved = false then return .error (← s.waitForApproval)
        else s.prepareUnit settings

/-- A prepared unit is created, where watchers are on after its watcher. -/
def finishWith (render : UnitRequest → Job → Outcome Job) (s : StageRun) (settings : Settings) :
    Except Verdict (Provider × Job) → Run Verdict
  | .error verdict => return verdict
  | .ok (provider, unit) => do
    let request := s.request settings (← get) provider
    if settings.watchers then s.startWatcher (render request unit)
    s.launch unit

def runWith (render : UnitRequest → Job → Outcome Job) (s : StageRun) (settings : Settings) :
    Run Verdict :=
  s.prepare settings >>= s.finishWith render settings

theorem prepare_watchers (s : StageRun) (settings : Settings) (on : Bool) :
    s.prepare { settings with watchers := on } = s.prepare settings := rfl

theorem createFor_eq (s : StageRun) (settings : Settings) (provider : Provider) :
    s.createFor settings provider =
      s.prepareFor settings provider >>= s.finishWith UnitRequest.renderWatcher settings := by
  unfold createFor prepareFor
  rw [bind_assoc]
  funext c
  -- both begin in `c`, where the request is made
  have begins {α : Type} (f : ConfigurationCycle → Run α) : (get >>= f) c = f c c := rfl
  rw [begins, begins]
  cases (s.request settings c provider).renderUnit with
  | error e =>
    simp only [bind_assoc, pure_bind]
    rfl
  | ok unit =>
    rw [pure_bind]
    rfl

theorem createUnit_eq (s : StageRun) (settings : Settings) :
    s.createUnit settings =
      s.prepareUnit settings >>= s.finishWith UnitRequest.renderWatcher settings := by
  unfold createUnit prepareUnit
  rw [bind_assoc]
  refine congrArg (get >>= ·) (funext fun c => ?_)
  cases c.scratch.provider with
  | some provider => exact s.createFor_eq settings provider
  | none =>
    simp only [bind_assoc]
    refine congrArg (getProvider _ >>= ·) (funext fun answer => ?_)
    rcases answer with e | _ | provider
    · rfl
    · simp only [bind_assoc, pure_bind]
      rfl
    · exact s.createFor_eq settings provider

theorem run_eq_runWith (s : StageRun) (settings : Settings) :
    s.run settings = s.runWith UnitRequest.renderWatcher settings := by
  unfold run runWith prepare
  rw [bind_assoc]
  refine congrArg (get >>= ·) (funext fun c => ?_)
  by_cases complete : c.isComplete s.condition = true
  · rw [if_pos complete, if_pos complete]
    rfl
  rw [if_neg complete, if_neg complete]
  by_cases free : s.stage = .verify ∧ c.scratch.policy.isNone
  · rw [if_pos free, if_pos free, bind_assoc]
    rfl
  rw [if_neg free, if_neg free]
  cases c.resource.ownerUid with
  | error e => rfl
  | ok uid =>
    simp only
    cases (c.resource.unitFilter settings.namespaceName uid s.stage).latest?
        c.scratch.units with
    | some unit =>
      simp only [bind_assoc, pure_bind]
      exact (bind_pure (s.follow unit)).symm
    | none =>
      simp only
      by_cases held : s.gated ∧ c.resource.applyApproved = false
      · rw [if_pos held, if_pos held, bind_assoc]
        exact (bind_pure s.waitForApproval).symm
      · rw [if_neg held, if_neg held]
        exact s.createUnit_eq settings

/-! ## Beside the unit -/

def watcherMissing (s : StageRun) (c : ConfigurationCycle) (e : Failure) : List StepEntry :=
  [stepEntry c (.log ⟨.warn, "failed to start log watcher", [("stage", s.stage.text)]⟩) (),
    stepEntry c (.publish
      { object := Resource.reference c.resource
        warning := true
        reason := "WatcherFailed"
        action := s.condition
        note := some ("cannot start log watcher for " ++ s.stage.text ++ " unit: " ++
          e.message) }) ()]

/-- All that is done for a watcher, which is created once if it is rendered. -/
def companion (s : StageRun) (c : ConfigurationCycle) :
    Outcome Job → Outcome Unit → List StepEntry
  | .error e, _ => s.watcherMissing c e
  | .ok watcher, .error e =>
    creation c watcher (.error e) :: s.watcherMissing c e
  | .ok watcher, .ok () => [creation c watcher (.ok ())]

/-- Whether a watcher could be rendered, and whether it could be created, decides what is asked,
and nothing else. -/
theorem reaches_startWatcher {watcher : Outcome Job} {run : List StepEntry} :
    ((s.startWatcher watcher).run c).Reaches run (.done ((), c')) ↔
      c' = c ∧ ∃ started, run = s.companion c watcher started := by
  have missing (e : Failure) (run : List StepEntry) :
      ((do
        Staged.log .warn "failed to start log watcher" [("stage", s.stage.text)]
        let c ← get
        Staged.publish
          { object := Resource.reference c.resource
            warning := true
            reason := "WatcherFailed"
            action := s.condition
            note := some ("cannot start log watcher for " ++ s.stage.text ++ " unit: " ++
              Failure.message e) } : Run Unit).run c).Reaches run (.done ((), c')) ↔
        c' = c ∧ run = s.watcherMissing c e := by
    constructor
    · intro reached
      obtain ⟨_, _, rfl, logged⟩ := Program.reaches_ask_iff.1 reached
      obtain ⟨_, _, rfl, published⟩ := Program.reaches_ask_iff.1 logged
      obtain ⟨rfl, whole⟩ := Program.reaches_done_iff.1 published
      exact ⟨(Prod.mk.inj whole).2, rfl⟩
    · rintro ⟨rfl, rfl⟩
      exact .told (.told (.here _))
  cases watcher with
  | error e =>
    refine (missing e run).trans (and_congr_right fun _ => ?_)
    exact ⟨fun told => ⟨.ok (), told⟩, fun ⟨_, told⟩ => told⟩
  | ok watcher =>
    constructor
    · intro reached
      obtain ⟨answer, later, rfl, asked⟩ := Program.reaches_ask_iff.1 reached
      cases answer with
      | error e =>
        obtain ⟨rfl, rfl⟩ := (missing e later).1 asked
        exact ⟨rfl, .error e, rfl⟩
      | ok value =>
        obtain ⟨rfl, whole⟩ := Program.reaches_done_iff.1 asked
        exact ⟨(Prod.mk.inj whole).2, .ok (), rfl⟩
    · rintro ⟨rfl, started, rfl⟩
      cases started with
      | error e => exact .told ((missing e _).2 ⟨rfl, rfl⟩)
      | ok value => exact .told (.here _)

/-- The unit is created before anything else, or that it could not be. -/
theorem exists_of_reaches_launch {unit : Job} {verdict : Verdict} {run : List StepEntry}
    (reached : ((s.launch unit).run c).Reaches run (.done (verdict, c'))) :
    ∃ answer later, run = creation c unit answer :: later := by
  obtain ⟨answer, later, rfl, -⟩ := Program.reaches_ask_iff.1 reached
  exact ⟨answer, later, rfl⟩

/-- Where there is a unit to create, the cycle is as it was and the provider was found. -/
def Leads (c : ConfigurationCycle) (own : Calls) (c' : ConfigurationCycle) :
    Except Verdict (Provider × Job) → Prop
  | .error _ => True
  | .ok (p, _) => c' = c ∧ ProviderFound c own p

theorem does_prepareFor {own : Calls} {p : Provider} (found : ProviderFound c own p) :
    (s.prepareFor settings p).Does c (fun _ _ r => ∀ job, r ≠ .store (.createJob job))
      (fun own result c' => Leads c own c' result) own := by
  simp only [prepareFor, Staged.does_bind, Staged.does_get]
  cases (s.request settings c p).renderUnit with
  | error e =>
    simp only [Staged.does_bind, Staged.does_mark, Staged.does_pure]
    exact fun _ => trivial
  | ok unit => exact ⟨rfl, found⟩

theorem does_prepareUnit :
    (s.prepareUnit settings).Does c (fun _ _ r => ∀ job, r ≠ .store (.createJob job))
      (fun own result c' => Leads c own c' result) [] := by
  simp only [prepareUnit, Staged.does_bind, Staged.does_get]
  cases known : c.scratch.provider with
  | some p => exact does_prepareFor (.known known)
  | none =>
    simp only [Staged.does_bind, does_getProvider]
    refine ⟨fun job same => (by cases same), fun answer => ?_⟩
    rcases answer with e | _ | p
    · trivial
    · simp only [Staged.does_bind, Staged.does_mark, Staged.does_pure]
      exact fun _ => trivial
    · exact does_prepareFor (.asked known)

theorem does_prepare :
    (s.prepare settings).Does c (fun _ _ r => ∀ job, r ≠ .store (.createJob job))
      (fun own result c' => Leads c own c' result) [] := by
  simp only [prepare, Staged.does_bind, Staged.does_get]
  split
  · trivial
  split
  · simp only [Staged.does_bind, Staged.does_mark, Staged.does_pure]
    exact fun _ => trivial
  split
  · trivial
  split
  · next unit _ =>
    simp only [follow, Staged.does_bind]
    split
    all_goals
      simp only [Staged.does_bind, Staged.does_mark, Staged.does_pure]
      exact fun _ => trivial
  split
  · simp only [waitForApproval, Staged.does_bind, Staged.does_mark, Staged.does_pure]
    exact fun _ => trivial
  · exact does_prepareUnit

theorem createsNothing_of_ne {e : StepEntry}
    (h : ∀ job, e.request.2 ≠ .store (.createJob job)) : createsNothing e = true := by
  unfold createsNothing
  split
  · exact absurd rfl (h _)
  · rfl

/-- A run up to the unit creates nothing, and leads to the unit in the cycle it began with. -/
theorem reaches_prepare {run : List StepEntry} {result : Except Verdict (Provider × Job)}
    (reached : ((s.prepare settings).run c).Reaches run (.done (result, c'))) :
    (∀ e ∈ run, createsNothing e = true) ∧ Leads c (run.flatMap Surroundings.calls) c' result := by
  have does := @does_prepare s settings c
  constructor
  · intro e mem
    obtain ⟨pre, post, parts⟩ := List.append_of_mem mem
    have asked := Program.Safe.asked does reached parts
    refine createsNothing_of_ne fun job eq => ?_
    exact asked (by rw [eq]; rfl) job eq
  · simpa using Program.Safe.ended does reached

/-! ## Runs with watchers and without -/

variable {render : UnitRequest → Job → Outcome Job} {started : Outcome Unit}
  {before after run : List StepEntry} {verdict : Verdict}

inductive Beside (render : UnitRequest → Job → Outcome Job) (s : StageRun) (settings : Settings)
    (c : ConfigurationCycle) (p : Provider) (unit : Job) : List StepEntry → Prop
  | off (h : settings.watchers = false) : Beside render s settings c p unit []
  | on (h : settings.watchers = true) (started : Outcome Unit) :
      Beside render s settings c p unit
        (s.companion c (render (s.request settings c p) unit) started)

theorem reaches_finishWith_iff {p : Provider} {unit : Job} :
    ((s.finishWith render settings (.ok (p, unit))).run c).Reaches run (.done (verdict, c')) ↔
      ∃ beside later, run = beside ++ later ∧ Beside render s settings c p unit beside ∧
        ((s.launch unit).run c).Reaches later (.done (verdict, c')) := by
  have begins : (s.finishWith render settings (.ok (p, unit))).run c =
      (if settings.watchers = true then do
        s.startWatcher (render (s.request settings c p) unit)
        s.launch unit
      else s.launch unit : Run Verdict).run c := rfl
  rw [begins]
  by_cases on : settings.watchers = true
  · rw [if_pos on, Staged.reaches_bind_iff]
    constructor
    · rintro ⟨beside, later, _, t, rfl, watched, launched⟩
      obtain ⟨rfl, started, rfl⟩ := reaches_startWatcher.1 watched
      exact ⟨_, later, rfl, .on on started, launched⟩
    · rintro ⟨_, later, rfl, ⟨off⟩ | ⟨-, started⟩, launched⟩
      · exact absurd on (by simp [off])
      · exact ⟨_, later, (), c, rfl, reaches_startWatcher.2 ⟨rfl, started, rfl⟩, launched⟩
  · rw [if_neg on]
    constructor
    · intro launched
      exact ⟨[], run, rfl, .off (by simpa using on), launched⟩
    · rintro ⟨_, later, rfl, ⟨off⟩ | ⟨on', -⟩, launched⟩
      · exact launched
      · exact absurd on' on

/-- The stage ends before its unit, or it goes on with what is asked for the watcher and with the
creation of the unit, in the cycle it began with. -/
theorem reaches_runWith_iff :
    ((s.runWith render settings).run c).Reaches run (.done (verdict, c')) ↔
      ((s.prepare settings).run c).Reaches run (.done (.error verdict, c')) ∨
      ∃ before beside later p unit, run = before ++ (beside ++ later) ∧
        ((s.prepare settings).run c).Reaches before (.done (.ok (p, unit), c)) ∧
        Beside render s settings c p unit beside ∧
        ((s.launch unit).run c).Reaches later (.done (verdict, c')) := by
  rw [runWith, Staged.reaches_bind_iff]
  constructor
  · rintro ⟨before, rest, result, t, rfl, prepared, finished⟩
    cases result with
    | error value =>
      obtain ⟨rfl, whole⟩ := Program.reaches_done_iff.1 finished
      obtain ⟨rfl, rfl⟩ := Prod.mk.inj whole
      rw [List.append_nil]
      exact .inl prepared
    | ok found =>
      obtain ⟨p, unit⟩ := found
      obtain ⟨rfl, -⟩ := (reaches_prepare prepared).2
      obtain ⟨beside, later, rfl, watched, launched⟩ := reaches_finishWith_iff.1 finished
      exact .inr ⟨before, beside, later, p, unit, rfl, prepared, watched, launched⟩
  · rintro (prepared | ⟨before, beside, later, p, unit, rfl, prepared, watched, launched⟩)
    · exact ⟨run, [], .error verdict, c', (List.append_nil run).symm, prepared, .here _⟩
    · exact ⟨before, _, .ok (p, unit), c, rfl, prepared,
        reaches_finishWith_iff.2 ⟨beside, later, rfl, watched, launched⟩⟩

/-- The entries of a run without watchers with those of the watcher in front of the creation of the
unit, where watchers are rendered like this and the creation of the watcher is answered like
this. -/
def accompany (render : UnitRequest → Job → Outcome Job) (s : StageRun) (settings : Settings)
    (known : Option Provider) (started : Outcome Unit) (bare : List StepEntry) :
    List StepEntry :=
  let before := bare.takeWhile createsNothing
  match bare.dropWhile createsNothing,
    known.or ((before.flatMap Surroundings.calls).findSome? providerRead?) with
  | ⟨(c, .store (.createJob unit)), answer⟩ :: after, some provider =>
    before ++ s.companion c (render (s.request settings c provider) unit) started ++
      creation c unit answer :: after
  | _, _ => bare

theorem accompany_of_createsNothing (h : ∀ e ∈ before, createsNothing e = true) :
    accompany render s settings c.scratch.provider started before = before := by
  have skipped : before.dropWhile createsNothing = [] := by
    rw [← List.append_nil before, List.dropWhile_append_of_pos h, List.dropWhile_nil]
  simp only [accompany, skipped]

theorem accompany_append {p : Provider} {unit : Job} {answer : Outcome Unit}
    (h : ∀ e ∈ before, createsNothing e = true)
    (found : ProviderFound c (before.flatMap Surroundings.calls) p) :
    accompany render s settings c.scratch.provider started
        (before ++ creation c unit answer :: after) =
      before ++ s.companion c (render (s.request settings c p) unit) started ++
        creation c unit answer :: after := by
  have stops : createsNothing (creation c unit answer) = false := rfl
  have skipped : (before ++ creation c unit answer :: after).dropWhile
      createsNothing = creation c unit answer :: after := by
    rw [List.dropWhile_append_of_pos h, List.dropWhile_cons_of_neg (by simp [stops])]
  have taken : (before ++ creation c unit answer :: after).takeWhile
      createsNothing = before := by
    rw [List.takeWhile_append_of_pos h, List.takeWhile_cons_of_neg (by simp [stops]),
      List.append_nil]
  simp only [accompany, skipped, taken, found.eq_some]
  rfl

/-- A stage with watchers, whatever renders them and however their creation is answered, runs and
ends as one without them, but for the entries of the watcher in front of the creation of the
unit. -/
theorem watchers_aside (render : UnitRequest → Job → Outcome Job) (s : StageRun)
    (settings : Settings) (c c' : ConfigurationCycle) (verdict : Verdict)
    (run : List StepEntry) :
    s.run settings = s.runWith UnitRequest.renderWatcher settings ∧
    (((s.runWith render { settings with watchers := true }).run c).Reaches run
        (.done (verdict, c')) ↔
      ∃ started bare,
        run = accompany render s { settings with watchers := true } c.scratch.provider started
          bare ∧
        ((s.run { settings with watchers := false }).run c).Reaches bare
          (.done (verdict, c'))) := by
  refine ⟨s.run_eq_runWith settings, ?_⟩
  rw [run_eq_runWith, reaches_runWith_iff]
  simp only [reaches_runWith_iff, prepare_watchers]
  constructor
  · rintro (ended | ⟨before, _, later, p, unit, rfl, prepared, ⟨⟨⟩⟩ | ⟨-, started⟩, launched⟩)
    · exact ⟨.ok (), run, (accompany_of_createsNothing (reaches_prepare ended).1).symm, .inl ended⟩
    · obtain ⟨quiet, -, found⟩ := reaches_prepare prepared
      obtain ⟨answer, after, rfl⟩ := exists_of_reaches_launch launched
      refine ⟨started, before ++ creation c unit answer :: after, ?_,
        .inr ⟨before, [], _, p, unit, rfl, prepared, .off rfl, launched⟩⟩
      rw [accompany_append quiet found, List.append_assoc]
  · rintro ⟨started, bare, rfl,
      ended | ⟨before, _, later, p, unit, rfl, prepared, ⟨-⟩ | ⟨⟨⟩, -⟩, launched⟩⟩
    · rw [accompany_of_createsNothing (reaches_prepare ended).1]
      exact .inl ended
    · obtain ⟨quiet, -, found⟩ := reaches_prepare prepared
      obtain ⟨answer, after, rfl⟩ := exists_of_reaches_launch launched
      rw [List.nil_append, accompany_append quiet found, List.append_assoc]
      exact .inr ⟨before, _, _, p, unit, rfl, prepared, .on rfl started, launched⟩

end StageRun

end InfraOperator.Provisioning
