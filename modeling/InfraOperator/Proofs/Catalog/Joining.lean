import InfraOperator.Proofs.Catalog.Steps
import InfraOperator.Proofs.Settling
import InfraOperator.Proofs.Stepping
import InfraOperator.Proofs.Updates

/-!
# What a cycle asks of its plan

A cycle reads its plan once. A revision that is not listed there is added to what was read, in a
plan that was not there the revision is put first, and a deleted one is taken off; then the latest
revision of that list is shown, if another one was shown when it was read. After that a cycle asks
nothing more of plans, and the finalizer is released only when the revision has left its plan.
-/

set_option autoImplicit false

namespace InfraOperator.Catalog

open Pipeline (Keeps observeSteps keeps_cons keeps_nil safe_runSteps)
open Supervised (Within)

def entryOf (r : Revision) : PlanEntry := ⟨r.name, r.spec.version⟩

/-! ## Calls about plans -/

def concernsPlan : RevisionCall → Bool
  | .getPlan _ | .createPlan _ | .patchPlanRevisions _ | .patchPlanStatus _ _ => true
  | _ => false

def aboutPlans (calls : PlanCalls) : PlanCalls := calls.filter fun call => concernsPlan call.request

@[simp] theorem aboutPlans_append (calls more : PlanCalls) :
    aboutPlans (calls ++ more) = aboutPlans calls ++ aboutPlans more :=
  List.filter_append ..

theorem aboutPlans_of_forall {calls : PlanCalls}
    (h : ∀ call ∈ calls, concernsPlan call.request = true) : aboutPlans calls = calls :=
  List.filter_eq_self.2 h

theorem aboutPlans_eq_nil {calls : PlanCalls}
    (h : ∀ call ∈ calls, concernsPlan call.request = false) : aboutPlans calls = [] := by
  apply List.filter_eq_nil_iff.2
  intro call called
  rw [h call called]
  exact Bool.false_ne_true

def readPlan (name : String) (found : Option Plan) : StoreCall RevisionStore :=
  answered (.getPlan name) (.ok found)

def wrote (plan : Plan) : StoreCall RevisionStore := answered (.patchPlanRevisions plan) (.ok ())

def created (plan : Plan) : StoreCall RevisionStore := answered (.createPlan plan) (.ok ())

def showed (plan : Plan) : StoreCall RevisionStore :=
  answered (.patchPlanStatus plan.name plan.latest?) (.ok ())

/-- What it takes to show the latest revision of the plan. -/
def showing (plan : Plan) : PlanCalls :=
  if plan.latest? = plan.shownLatest then [] else [showed plan]

/-- The calls after which the revision is known to be listed in the plan. -/
inductive Basis (planName : String) (entry : PlanEntry) : PlanCalls → Plan → Prop
  | listed {plan : Plan} (lists : plan.lists entry = true) :
      Basis planName entry [readPlan planName (some plan)] plan
  | created : Basis planName entry
      [readPlan planName none, created (planWith planName entry)] (planWith planName entry)
  | added {plan : Plan} (unlisted : plan.lists entry = false) :
      Basis planName entry [readPlan planName (some plan), wrote (enlist plan entry)]
        (enlist plan entry)

def Joined (planName : String) (entry : PlanEntry) (own : PlanCalls) : Prop :=
  ∃ before plan, Basis planName entry before plan ∧ own = before ++ showing plan

inductive JoinAsks (planName : String) (entry : PlanEntry) : PlanCalls → RevisionCall → Prop
  | read : JoinAsks planName entry [] (.getPlan planName)
  | create : JoinAsks planName entry [readPlan planName none]
      (.createPlan (planWith planName entry))
  | add {plan : Plan} (unlisted : plan.lists entry = false) :
      JoinAsks planName entry [readPlan planName (some plan)]
        (.patchPlanRevisions (enlist plan entry))
  | shows {before : PlanCalls} {plan : Plan} (basis : Basis planName entry before plan)
      (other : plan.latest? ≠ plan.shownLatest) :
      JoinAsks planName entry before (.patchPlanStatus plan.name plan.latest?)

inductive Left (planName name : String) : PlanCalls → Prop
  | absent : Left planName name [readPlan planName none]
  | unlisted {plan : Plan} (unmentioned : plan.mentions name = false) :
      Left planName name [readPlan planName (some plan)]
  | removed (plan : Plan) :
      Left planName name ([readPlan planName (some plan), wrote (plan.without name)] ++
        showing (plan.without name))
  | gone (plan : Plan) {e : Failure} (missing : e.isNotFound = true) :
      Left planName name
        [readPlan planName (some plan),
          answered (.patchPlanRevisions (plan.without name)) (.error e)]
  | vanished (plan : Plan) {e : Failure} (missing : e.isNotFound = true) :
      Left planName name
        [readPlan planName (some plan), wrote (plan.without name),
          answered (.patchPlanStatus (plan.without name).name (plan.without name).latest?)
            (.error e)]

inductive LeaveAsks (planName name : String) : PlanCalls → RevisionCall → Prop
  | read : LeaveAsks planName name [] (.getPlan planName)
  | remove (plan : Plan) :
      LeaveAsks planName name [readPlan planName (some plan)]
        (.patchPlanRevisions (plan.without name))
  | shows (plan : Plan) :
      LeaveAsks planName name [readPlan planName (some plan), wrote (plan.without name)]
        (.patchPlanStatus (plan.without name).name (plan.without name).latest?)

section Asks

variable {planName name : String} {entry : PlanEntry} {own before : PlanCalls} {plan : Plan}
  {call : RevisionCall}

theorem Basis.aboutPlans_eq (h : Basis planName entry before plan) :
    aboutPlans before = before := by
  cases h <;> rfl

theorem aboutPlans_showing : aboutPlans (showing plan) = showing plan := by
  unfold showing
  split <;> rfl

theorem Joined.aboutPlans_eq (h : Joined planName entry own) : aboutPlans own = own := by
  obtain ⟨before, plan, basis, rfl⟩ := h
  rw [aboutPlans_append, basis.aboutPlans_eq, aboutPlans_showing]

theorem Left.aboutPlans_eq (h : Left planName name own) : aboutPlans own = own := by
  cases h with
  | removed plan =>
    rw [aboutPlans_append, aboutPlans_showing]
    rfl
  | _ => rfl

theorem JoinAsks.aboutPlans_eq (h : JoinAsks planName entry own call) :
    aboutPlans own = own := by
  cases h with
  | shows basis => exact basis.aboutPlans_eq
  | _ => rfl

theorem LeaveAsks.aboutPlans_eq (h : LeaveAsks planName name own call) :
    aboutPlans own = own := by
  cases h <;> rfl

theorem JoinAsks.concerns (h : JoinAsks planName entry own call) : concernsPlan call = true := by
  cases h <;> rfl

theorem LeaveAsks.concerns (h : LeaveAsks planName name own call) : concernsPlan call = true := by
  cases h <;> rfl

theorem Basis.unique {plan' : Plan} (h : Basis planName entry before plan)
    (h' : Basis planName entry before plan') : plan = plan' := by
  cases h <;> cases h' <;> rfl

/-- A revision that has joined its plan asks nothing more of it. -/
theorem Joined.silent (h : Joined planName entry own) : ¬ JoinAsks planName entry own call := by
  obtain ⟨before, plan, basis, rfl⟩ := h
  intro asks
  by_cases same : plan.latest? = plan.shownLatest
  · rw [showing, if_pos same, List.append_nil] at asks
    cases asks with
    | read => cases basis
    | create => cases basis
    | add unlisted =>
      cases basis with
      | listed lists => cases unlisted.symm.trans lists
    | shows basis' other =>
      obtain rfl := basis.unique basis'
      exact other same
  · rw [showing, if_neg same] at asks
    generalize whole : before ++ [showed plan] = own at asks
    cases asks with
    | shows basis' => cases basis <;> cases whole <;> cases basis'
    | _ => cases basis <;> cases whole

end Asks

/-! ## Joining and leaving -/

section Does

variable {c : RevisionCycle} {planName name : String} {entry : PlanEntry} {plan : Plan}
  {asks : PlanCalls → RevisionCycle → Surroundings.Request RevisionStore → Prop}
  {own : PlanCalls}

theorem does_showLatest {ends : PlanCalls → Outcome Unit → RevisionCycle → Prop} :
    (showLatest plan).Does c asks ends own ↔
      if plan.latest? = plan.shownLatest then ends own (.ok ()) c
      else asks own c (.store (.patchPlanStatus plan.name plan.latest?)) ∧
        ∀ answer : Outcome Unit,
          ends (own ++ [answered (.patchPlanStatus plan.name plan.latest?) answer]) answer c := by
  unfold showLatest
  simp only
  split
  · exact Iff.rfl
  · simp only [Staged.does_bind, Staged.does_log, does_patchPlanStatus]

theorem does_showLatest_join {before : PlanCalls} (basis : Basis planName entry before plan) :
    (showLatest plan).Does c
      (Staged.From c fun own q => ∃ call, q = .store call ∧ JoinAsks planName entry own call)
      (fun own result c' => c' = c ∧ (result = .ok () → Joined planName entry own)) before := by
  rw [does_showLatest]
  split
  · next same =>
    refine ⟨rfl, fun _ => ⟨before, plan, basis, ?_⟩⟩
    rw [showing, if_pos same, List.append_nil]
  · next other =>
    refine ⟨⟨rfl, _, rfl, .shows basis other⟩, fun answer => ⟨rfl, ?_⟩⟩
    rintro rfl
    refine ⟨before, plan, basis, ?_⟩
    rw [showing, if_neg other]
    rfl

theorem does_join : (join planName entry).Does c
    (Staged.From c fun own q => ∃ call, q = .store call ∧ JoinAsks planName entry own call)
    (fun own result c' => c' = c ∧ (result = .ok () → Joined planName entry own)) [] := by
  simp only [join, Staged.does_bind, does_getPlan]
  refine ⟨⟨rfl, _, rfl, .read⟩, fun answer => ?_⟩
  rcases answer with e | _ | plan
  · exact ⟨rfl, fun ok => by cases ok⟩
  · simp only [Staged.does_bind, Staged.does_log, does_createPlan]
    refine ⟨⟨rfl, _, rfl, .create⟩, fun answer => ?_⟩
    cases answer with
    | error e => exact ⟨rfl, fun ok => by cases ok⟩
    | ok value => exact does_showLatest_join .created
  · simp only
    split
    · next lists => exact does_showLatest_join (.listed lists)
    · next unlisted =>
      have unlisted := Bool.eq_false_iff.2 unlisted
      simp only [Staged.does_bind, Staged.does_log, does_patchPlanRevisions]
      refine ⟨⟨rfl, _, rfl, .add unlisted⟩, fun answer => ?_⟩
      cases answer with
      | error e => exact ⟨rfl, fun ok => by cases ok⟩
      | ok value => exact does_showLatest_join (.added unlisted)

theorem does_leave : (leave planName name).Does c
    (Staged.From c fun own q => ∃ call, q = .store call ∧ LeaveAsks planName name own call)
    (fun own result c' => c' = c ∧ (result = .ok () → Left planName name own)) [] := by
  simp only [leave, Staged.does_bind, does_getPlan]
  refine ⟨⟨rfl, _, rfl, .read⟩, fun answer => ?_⟩
  rcases answer with e | _ | plan
  · exact ⟨rfl, fun ok => by cases ok⟩
  · exact ⟨rfl, fun _ => .absent⟩
  simp only
  split
  · next mentioned =>
    simp only [Staged.does_bind, Staged.does_log, does_patchPlanRevisions]
    refine ⟨⟨rfl, _, rfl, .remove plan⟩, fun answer => ?_⟩
    cases answer with
    | error e =>
      simp only [showAfter, Staged.does_pure]
      split
      · next missing => exact ⟨rfl, fun _ => .gone plan missing⟩
      · exact ⟨rfl, fun ok => by cases ok⟩
    | ok value =>
      have removed : Left planName name _ := .removed plan
      simp only [showAfter, does_showLatest]
      split
      · next same =>
        rw [showing, if_pos same] at removed
        exact ⟨rfl, fun _ => removed⟩
      · next other =>
        rw [showing, if_neg other] at removed
        refine ⟨⟨rfl, _, rfl, .shows plan⟩, fun answer => ?_⟩
        cases answer with
        | ok value => exact ⟨rfl, fun _ => removed⟩
        | error e =>
          simp only
          split
          · next missing => exact ⟨rfl, fun _ => .vanished plan missing⟩
          · exact ⟨rfl, fun ok => by cases ok⟩
  · next unmentioned => exact ⟨rfl, fun _ => .unlisted (Bool.eq_false_iff.2 unmentioned)⟩

end Does

/-! ## Whole cycles -/

structure Joining (r : Revision) : Prop where
  live : r.metadata.isDeleting = false
  held : r.metadata.hasFinalizer cleanupFinalizer = true
  versioned : r.version?.isSome = true

structure Leaving (r : Revision) : Prop where
  deleting : r.metadata.isDeleting = true
  held : r.metadata.hasFinalizer cleanupFinalizer = true

def releaseCall (r : Revision) : RevisionCall := .removeFinalizer r.name cleanupFinalizer

structure Asks (r : Revision) (past : PlanCalls) (call : RevisionCall) : Prop where
  ofPlan : concernsPlan call = true →
    Joining r ∧ JoinAsks r.spec.planName (entryOf r) (aboutPlans past) call ∨
    Leaving r ∧ LeaveAsks r.spec.planName r.name (aboutPlans past) call
  ofFinalizer : ∀ name finalizer, call = .removeFinalizer name finalizer →
    Leaving r ∧ call = releaseCall r ∧ Left r.spec.planName r.name (aboutPlans past)

def Minds (r : Revision) (past : PlanCalls) (q : Surroundings.Request RevisionStore) : Prop :=
  ∀ call, q = .store call → Asks r past call

/-- The finalizer was released, or the revision is gone. -/
def Released (r : Revision) (past : PlanCalls) : Prop :=
  ∃ answer : Outcome Unit, answered (releaseCall r) answer ∈ past ∧
    (answer = .ok () ∨ ∃ e, answer = .error e ∧ e.isNotFound = true)

/-- What has been done for the revision. -/
structure Served (r : Revision) (past : PlanCalls) : Prop where
  joined : Joining r → Joined r.spec.planName (entryOf r) (aboutPlans past)
  left : Leaving r → Left r.spec.planName r.name (aboutPlans past) ∧ Released r past

def Halts : Verdict → Prop
  | .requeueNow | .pause => True
  | .requeue delay => delay ≠ .zero
  | .proceed | .stop _ => False

def isAside : RevisionCall → Bool
  | .removeFinalizer _ _ => false
  | call => !concernsPlan call

def Aside (q : Surroundings.Request RevisionStore) : Prop :=
  ∀ call, q = .store call → isAside call = true

theorem halts_of_result {verdict : Verdict} {directive : Directive} (stops : ¬ verdict.Passes)
    (ok : verdict.result = .ok directive) : Halts verdict := by
  cases verdict with
  | proceed => exact stops trivial
  | requeueNow => trivial
  | pause => trivial
  | stop e => cases ok
  | requeue delay => exact stops

theorem halts_of_ending {verdict : Verdict} {ending : Ending} {directive : Directive}
    (ended : verdict.ending? = some ending) (ok : ending.outcome = .ok directive) :
    Halts verdict := by
  have stops : ¬ verdict.Passes := by
    rw [← Verdict.ending?_eq_none, ended]
    exact nofun
  exact halts_of_result stops ((Verdict.outcome_of_ending? ended).symm.trans ok)

section Cycles

variable {r : Revision} {c : RevisionCycle} {past own : PlanCalls}

theorem concernsPlan_of_isAside {call : RevisionCall} (h : isAside call = true) :
    concernsPlan call = false := by
  cases call <;> first | rfl | cases h

theorem asks_of_isAside {call : RevisionCall} (h : isAside call = true) : Asks r past call where
  ofPlan concerns := by cases (concernsPlan_of_isAside h).symm.trans concerns
  ofFinalizer name finalizer releases := by
    subst releases
    cases h

theorem asks_of_joinAsks {call : RevisionCall} (joining : Joining r)
    (h : JoinAsks r.spec.planName (entryOf r) past call) : Asks r past call where
  ofPlan _ := .inl ⟨joining, h.aboutPlans_eq.symm ▸ h⟩
  ofFinalizer name finalizer releases := by
    subst releases
    cases h

theorem asks_of_leaveAsks {call : RevisionCall} (leaving : Leaving r)
    (h : LeaveAsks r.spec.planName r.name past call) : Asks r past call where
  ofPlan _ := .inr ⟨leaving, h.aboutPlans_eq.symm ▸ h⟩
  ofFinalizer name finalizer releases := by
    subst releases
    cases h

theorem Aside.minds {q : Surroundings.Request RevisionStore} (h : Aside q) : Minds r past q :=
  fun call asked => asks_of_isAside (h call asked)

theorem aside_of_prompt {q : Surroundings.Request RevisionStore} (prompt : q.suspends = false) :
    Aside q := by
  rintro call rfl
  cases prompt

theorem minds_of_prompt {q : Surroundings.Request RevisionStore} (prompt : q.suspends = false) :
    Minds r past q := (aside_of_prompt prompt).minds

theorem aboutPlans_append_aside (past : PlanCalls)
    (aside : ∀ call ∈ own, isAside call.request = true) :
    aboutPlans (past ++ own) = aboutPlans past := by
  rw [aboutPlans_append, aboutPlans_eq_nil fun call h => concernsPlan_of_isAside (aside call h),
    List.append_nil]

theorem Released.append (h : Released r past) (own : PlanCalls) : Released r (past ++ own) := by
  obtain ⟨answer, told, accepted⟩ := h
  exact ⟨answer, List.mem_append_left _ told, accepted⟩

theorem Served.append (h : Served r past) (aside : ∀ call ∈ own, isAside call.request = true) :
    Served r (past ++ own) where
  joined joining := by
    rw [aboutPlans_append_aside past aside]
    exact h.joined joining
  left leaving := by
    rw [aboutPlans_append_aside past aside]
    exact ⟨(h.left leaving).1, (h.left leaving).2.append own⟩

theorem does_ensureFinalizer :
    (ensureFinalizer RevisionStore.finalizers cleanupFinalizer).run.Does c
      (Staged.From c fun _ q => Aside q)
      (fun own verdict c' => c' = c ∧
        (verdict.Passes → verdict = .proceed ∧
          c.resource.metadata.hasFinalizer cleanupFinalizer = true ∧ own = []) ∧
        (Halts verdict → c.resource.metadata.hasFinalizer cleanupFinalizer = false)) [] := by
  simp only [ensureFinalizer, Staged.does_bind, Staged.does_get]
  split
  · next held => exact ⟨rfl, fun _ => ⟨rfl, held, rfl⟩, False.elim⟩
  · next free =>
    rw [Staged.does_bind, does_addFinalizer]
    constructor
    · refine ⟨rfl, ?_⟩
      rintro call ⟨⟩
      rfl
    · intro answer
      cases answer with
      | ok value =>
        simp only [Staged.does_bind, Staged.does_log]
        exact ⟨rfl, False.elim, fun _ => Bool.eq_false_iff.2 free⟩
      | error e => exact ⟨rfl, False.elim, False.elim⟩

theorem does_ensurePlanMembership :
    ensurePlanMembership.run.Does c
      (Staged.From c fun own q => c.resource.version?.isSome = true ∧ ∃ call, q = .store call ∧
        JoinAsks c.resource.spec.planName (entryOf c.resource) own call)
      (fun own verdict _ =>
        (verdict.Passes → verdict = .proceed ∧ c.resource.version?.isSome = true ∧
          Joined c.resource.spec.planName (entryOf c.resource) own) ∧
        (Halts verdict → c.resource.version? = none)) [] := by
  simp only [ensurePlanMembership, Staged.does_bind, Staged.does_get]
  split
  · next unversioned =>
    simp only [Staged.does_bind, Staged.does_mark]
    exact fun now => ⟨False.elim, fun _ => unversioned⟩
  · next version versioned =>
    have versioned : c.resource.version?.isSome = true := by rw [versioned, Option.isSome_some]
    simp only [Staged.does_bind]
    refine does_join.mono ?_ ?_
    · rintro own t q ⟨rfl, call, rfl, asks⟩
      exact ⟨rfl, versioned, call, rfl, asks⟩
    · rintro own result c' ⟨rfl, joins⟩
      cases result with
      | error e => exact ⟨False.elim, False.elim⟩
      | ok value =>
        simp only [Staged.does_bind, Staged.does_mark]
        exact fun now => ⟨fun _ => ⟨rfl, versioned, joins rfl⟩, False.elim⟩

theorem does_ensureInUseCount :
    ensureInUseCount.run.Does c (Staged.From c fun _ q => Aside q)
      (fun _ verdict _ => ¬ Halts verdict) [] := by
  simp only [ensureInUseCount, Staged.does_bind, Staged.does_get, does_countConsumers]
  constructor
  · refine ⟨rfl, ?_⟩
    rintro call ⟨⟩
    rfl
  · intro answer
    cases answer with
    | error e => exact id
    | ok count =>
      simp only [Staged.does_bind, Staged.does_modify]
      exact id

theorem does_ensureReady :
    ensureReady.run.Does c (Staged.From c fun _ q => Aside q)
      (fun _ verdict _ => ¬ Halts verdict) [] := by
  simp only [ensureReady, Staged.does_bind, Staged.does_get, Staged.does_mark]
  exact fun now => id

theorem does_ensurePlanMembershipRemoved :
    ensurePlanMembershipRemoved.run.Does c
      (Staged.From c fun own q => ∃ call, q = .store call ∧
        LeaveAsks c.resource.spec.planName c.resource.name own call)
      (fun own verdict c' => c' = c ∧
        (verdict.Passes → Left c.resource.spec.planName c.resource.name own) ∧
        ¬ Halts verdict) [] := by
  simp only [ensurePlanMembershipRemoved, Staged.does_bind, Staged.does_get]
  refine does_leave.mono (fun _ _ _ h => h) ?_
  rintro own result c' ⟨rfl, leaves⟩
  cases result with
  | error e => exact ⟨rfl, False.elim, id⟩
  | ok value => exact ⟨rfl, fun _ => leaves rfl, id⟩

theorem does_ensureFinalizerRemoved
    (held : c.resource.metadata.hasFinalizer cleanupFinalizer = true) :
    (ensureFinalizerRemoved RevisionStore.finalizers cleanupFinalizer).run.Does c
      (Staged.From c fun own q => own = [] ∧ q = .store (releaseCall c.resource))
      (fun own verdict _ => aboutPlans own = [] ∧
        (verdict.Passes → Released c.resource own) ∧ ¬ Halts verdict) [] := by
  have held : (Resource.metadata c.resource).hasFinalizer cleanupFinalizer = true := held
  simp only [ensureFinalizerRemoved, Staged.does_bind, Staged.does_get, if_pos held]
  rw [does_removeFinalizer]
  refine ⟨⟨rfl, rfl, rfl⟩, fun answer => ?_⟩
  have told : answered (releaseCall c.resource) answer ∈
      [answered (releaseCall c.resource) answer] := List.mem_singleton_self _
  cases answer with
  | ok value =>
    simp only [Staged.does_bind, Staged.does_log]
    exact ⟨rfl, fun _ => ⟨_, told, .inl rfl⟩, id⟩
  | error e =>
    simp only
    split
    · next missing => exact ⟨rfl, fun _ => ⟨_, told, .inr ⟨e, rfl, missing⟩⟩, id⟩
    · exact ⟨rfl, False.elim, id⟩

def ServedWhenOk (r : Revision) (past : PlanCalls) (outcome : Outcome Directive)
    (_ : RevisionCycle) : Prop := ∀ directive, outcome = .ok directive → Served r past

theorem servedWhenOk_error {e : Failure} : ServedWhenOk r past (.error e) c := nofun

theorem servedWhenOk_of_ending {verdict : Verdict} {ending : Ending}
    (ended : verdict.ending? = some ending) (served : Halts verdict → Served r past) :
    ServedWhenOk r past ending.outcome c :=
  fun _ ok => served (halts_of_ending ended ok)

theorem served_of_not_joining (live : r.metadata.isDeleting = false) (never : ¬ Joining r) :
    Served r past where
  joined joining := (never joining).elim
  left leaving := by cases live.symm.trans leaving.deleting

theorem keeps_aside {name : String} {step : RevisionStep Scratch}
    {rest : List (RevisionStep Scratch)} (served : Served r past)
    (does : step.run.Does c (Staged.From c fun _ q => Aside q)
      (fun _ verdict _ => ¬ Halts verdict) [])
    (later : ∀ past c', Served r past →
      Keeps (fun past _ q => Minds r past q) (ServedWhenOk r) (observeSteps name rest c') past) :
    Keeps (fun past _ q => Minds r past q) (ServedWhenOk r)
      (observeSteps name (step :: rest) c) past := by
  have quiet := does.calling_from (fun call => isAside call = true) fun own call aside =>
    aside call rfl
  refine keeps_cons quiet (fun _ _ asked => asked.1.minds) servedWhenOk_error
    (fun _ _ _ _ => servedWhenOk_error) ?_ ?_
  · rintro own verdict c' ending ⟨never, -⟩ ended
    exact servedWhenOk_of_ending ended fun halts => absurd halts never
  · rintro own verdict c' ⟨-, called⟩ -
    exact later _ c' (served.append called)

def IsOver (r : Revision) (c : RevisionCycle) : Prop :=
  ∃ status, c.resource = { r with status }

theorem keeps_provisioning {name : String} (isOver : IsOver r c)
    (live : r.metadata.isDeleting = false) :
    Keeps (fun past _ q => Minds r past q) (ServedWhenOk r)
      (observeSteps name provisioningSteps c) [] := by
  obtain ⟨resource, scratch, conditions, events, dirty⟩ := c
  obtain ⟨status, rfl⟩ := isOver
  refine keeps_cons does_ensureFinalizer (fun _ _ aside => aside.minds) servedWhenOk_error
    (fun _ _ _ _ => servedWhenOk_error) ?_ ?_
  · rintro own verdict c' ending ⟨-, -, free⟩ ended
    refine servedWhenOk_of_ending ended fun halts => served_of_not_joining live fun joining => ?_
    cases joining.held.symm.trans (free halts)
  rintro own verdict c' ⟨rfl, passing, -⟩ passed
  obtain ⟨-, held, rfl⟩ := passing (Verdict.ending?_eq_none.1 passed)
  refine keeps_cons does_ensurePlanMembership ?_ servedWhenOk_error
    (fun _ _ _ _ => servedWhenOk_error) ?_ ?_
  · rintro own _ ⟨versioned, call, rfl, asks⟩ _ ⟨⟩
    exact asks_of_joinAsks ⟨live, held, versioned⟩ asks
  · rintro own verdict c' ending ⟨-, unversioned⟩ ended
    refine servedWhenOk_of_ending ended fun halts => served_of_not_joining live fun joining => ?_
    cases joining.versioned.symm.trans (congrArg Option.isSome (unversioned halts))
  rintro own verdict c₁ ⟨joins, -⟩ passed
  obtain ⟨-, -, joined⟩ := joins (Verdict.ending?_eq_none.1 passed)
  have served : Served r ([] ++ [] ++ own) :=
    { joined := fun _ => by
        rw [List.nil_append, List.nil_append, joined.aboutPlans_eq]
        exact joined
      left := fun leaving => by cases live.symm.trans leaving.deleting }
  refine keeps_aside served does_ensureInUseCount fun past c₂ served => ?_
  refine keeps_aside served does_ensureReady fun past c₃ served => ?_
  exact keeps_nil name fun _ _ => served

theorem keeps_deletionSteps {name : String} (isOver : IsOver r c) (leaving : Leaving r) :
    Keeps (fun past _ q => Minds r past q) (ServedWhenOk r)
      (observeSteps name deletionSteps c) [] := by
  obtain ⟨resource, scratch, conditions, events, dirty⟩ := c
  obtain ⟨status, rfl⟩ := isOver
  refine keeps_cons does_ensurePlanMembershipRemoved ?_ servedWhenOk_error
    (fun _ _ _ _ => servedWhenOk_error) ?_ ?_
  · rintro own _ ⟨call, rfl, asks⟩ _ ⟨⟩
    exact asks_of_leaveAsks leaving asks
  · rintro own verdict c' ending ⟨-, -, never⟩ ended
    exact servedWhenOk_of_ending ended fun halts => absurd halts never
  rintro own verdict c' ⟨rfl, leaves, -⟩ passed
  have left := leaves (Verdict.ending?_eq_none.1 passed)
  rw [List.nil_append]
  refine keeps_cons (does_ensureFinalizerRemoved leaving.held) ?_ servedWhenOk_error
    (fun _ _ _ _ => servedWhenOk_error) ?_ ?_
  · rintro own' _ ⟨rfl, rfl⟩ _ ⟨⟩
    refine ⟨nofun, fun name finalizer same => ⟨leaving, rfl, ?_⟩⟩
    rw [List.append_nil, left.aboutPlans_eq]
    exact left
  · rintro own' verdict c' ending ⟨-, -, never⟩ ended
    exact servedWhenOk_of_ending ended fun halts => absurd halts never
  rintro own' verdict c' ⟨silent, released, -⟩ passed
  refine keeps_nil name fun _ _ => ⟨fun joining => ?_, fun _ => ⟨?_, ?_⟩⟩
  · cases joining.live.symm.trans leaving.deleting
  · rw [aboutPlans_append, silent, List.append_nil, left.aboutPlans_eq]
    exact left
  · obtain ⟨answer, told, accepted⟩ := released (Verdict.ending?_eq_none.1 passed)
    exact ⟨answer, List.mem_append_right _ told, accepted⟩

theorem keeps_stepsFor {name : String} (isOver : IsOver r c)
    (due : ¬ (r.metadata.isDeleting = true ∧
      r.metadata.isDeletionCandidate cleanupFinalizer = false)) :
    Keeps (fun past _ q => Minds r past q) (ServedWhenOk r)
      (observeSteps name (stepsFor r.metadata.isDeleting) c) [] := by
  cases deleting : r.metadata.isDeleting with
  | false => exact keeps_provisioning isOver deleting
  | true =>
    refine keeps_deletionSteps isOver ⟨deleting, ?_⟩
    cases held : r.metadata.hasFinalizer cleanupFinalizer with
    | true => rfl
    | false =>
      refine absurd ⟨deleting, ?_⟩ due
      rw [ObjectMeta.isDeletionCandidate, held, Bool.and_false]

/-- A status is settled beside all plans, as the steps ended or with a failure. -/
theorem only_settle_aside {p : RevisionPipeline} {outcome : Outcome Directive} :
    (p.settle RevisionStore.statuses outcome c).Only (Supervised.Plain Aside) fun v =>
      v.1 = outcome ∨ ∃ e, v.1 = .error e := by
  have ofCall : ∀ {call : RevisionCall}, isAside call = true → Aside (.store call) := by
    rintro call aside _ ⟨⟩
    exact aside
  refine Program.Only.mono (Pipeline.only_settle (fun _ => aside_of_prompt) (fun _ _ => nofun)
    (fun _ => ⟨ofCall rfl, fun _ => trivial⟩) (fun _ => ⟨ofCall rfl, fun _ => trivial⟩)
    fun _ _ _ => nofun) (fun _ plain => plain) fun v settled => settled.1

theorem safe_settle {p : RevisionPipeline} {outcome : Outcome Directive}
    (served : ServedWhenOk r past outcome c) :
    (p.settle RevisionStore.statuses outcome c).Safe Supervised.calls
      (fun past => Within (Minds r past))
      (fun past v => ∀ directive, v.1 = .ok directive → Served r past) past := by
  refine (only_settle_aside.safe past).mono ?_ ?_
  · rintro all q ⟨-, plain⟩
    exact plain.within.mono fun q aside => aside.minds
  · rintro all v ⟨⟨own, rfl, shown⟩, ended⟩ directive ok
    rcases ended with same | ⟨e, failed⟩
    · refine (served directive (same.symm.trans ok)).append fun call called => ?_
      obtain ⟨e, plain, asked⟩ := shown call called
      exact plain.within.of_mem_calls asked _ rfl
    · cases failed.symm.trans ok

theorem isOver_start : IsOver r (Cycle.start r {}) := ⟨r.status, rfl⟩

theorem isOver_register (now : Instant) :
    IsOver r ((Cycle.start r {}).register Revision.conditionTypes now) := ⟨_, rfl⟩

/-- However a cycle is answered, and wherever it is broken off: it asks what it may, and has served
its revision if it ends without a failure. -/
theorem safe_reconcile (settings : Settings) (r : Revision) (failures : Failures) :
    (reconcile settings r failures).Safe Supervised.calls (fun past => Within (Minds r past))
      (fun past v => ∀ action, v.1 = .ok action → Served r past) [] := by
  unfold reconcile
  simp only
  split
  · next idle =>
    intro action ok
    refine ⟨fun joining => ?_, fun leaving => ?_⟩
    · cases joining.live.symm.trans idle.1
    · have candidate : r.metadata.isDeletionCandidate cleanupFinalizer = true := by
        rw [ObjectMeta.isDeletionCandidate, leaving.deleting, leaving.held]
        rfl
      cases idle.2.symm.trans candidate
  next due =>
  have started : (startCycle r r.metadata.isDeleting).Safe Supervised.calls
      (fun past => Within (Minds r past)) (fun past c => past = [] ∧ IsOver r c) [] := by
    unfold startCycle
    split
    · exact ⟨rfl, isOver_start⟩
    · exact ⟨minds_of_prompt rfl, fun now => ⟨rfl, isOver_register now⟩⟩
  refine (Program.safe_bind ..).2 (started.mono (fun _ _ h => h) ?_)
  rintro _ c ⟨rfl, isOver⟩
  cases built : pipelineFor r.metadata.isDeleting with
  | error e => exact nofun
  | ok pipeline =>
    refine ⟨minds_of_prompt rfl, fun _ => ?_⟩
    refine (Program.safe_bind (pipeline.execute RevisionStore.statuses c) _ _).2 ?_
    have kept : Keeps (fun past _ q => Minds r past q) (ServedWhenOk r)
        (observeSteps pipeline.name pipeline.steps c) [] := by
      rw [steps_pipelineFor built]
      exact keeps_stepsFor isOver due
    have ran := safe_runSteps kept fun past q => minds_of_prompt
    have executed : (pipeline.execute RevisionStore.statuses c).Safe Supervised.calls
        (fun past => Within (Minds r past))
        (fun past v => ∀ directive, v.1 = .ok directive → Served r past) [] :=
      (Program.safe_bind ..).2 (ran.mono (fun _ _ h => h) fun _ v served => safe_settle served)
    refine executed.mono (fun _ _ h => h) ?_
    rintro past ⟨result, c'⟩ served
    cases result with
    | error e => exact nofun
    | ok directive => exact fun _ _ => served directive rfl

end Cycles

end InfraOperator.Catalog
