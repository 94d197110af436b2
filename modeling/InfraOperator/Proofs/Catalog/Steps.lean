import InfraOperator.Catalog.Controller
import InfraOperator.Proofs.Marks
import InfraOperator.Proofs.Observed

/-!
# What the steps of a revision do

The steps of a revision ask for their plan and for their consumers, but never write a status
(`Ordinary`), and they mark conditions of the cycle or count its consumers (`Change`). Being listed
in a plan is worked at without touching the cycle at all.
-/

set_option autoImplicit false

namespace InfraOperator.Catalog

abbrev RevisionCycle := Cycle Revision Scratch

abbrev PlanCalls := List (StoreCall RevisionStore)

def answered (call : RevisionCall) (answer : Outcome call.Answer) : StoreCall RevisionStore :=
  ⟨call, some answer⟩

section Calls

variable {c : RevisionCycle}
  {asks : PlanCalls → RevisionCycle → Surroundings.Request RevisionStore → Prop}
  {own : PlanCalls}

@[simp] theorem does_getPlan {name : String}
    {ends : PlanCalls → Outcome (Option Plan) → RevisionCycle → Prop} :
    (getPlan name).Does c asks ends own ↔ asks own c (.store (.getPlan name)) ∧
      ∀ answer : Outcome (Option Plan), ends (own ++ [answered (.getPlan name) answer]) answer c :=
  Staged.does_call

@[simp] theorem does_createPlan {plan : Plan}
    {ends : PlanCalls → Outcome Unit → RevisionCycle → Prop} :
    (createPlan plan).Does c asks ends own ↔ asks own c (.store (.createPlan plan)) ∧
      ∀ answer : Outcome Unit, ends (own ++ [answered (.createPlan plan) answer]) answer c :=
  Staged.does_call

@[simp] theorem does_patchPlanRevisions {plan : Plan}
    {ends : PlanCalls → Outcome Unit → RevisionCycle → Prop} :
    (patchPlanRevisions plan).Does c asks ends own ↔
      asks own c (.store (.patchPlanRevisions plan)) ∧
      ∀ answer : Outcome Unit,
        ends (own ++ [answered (.patchPlanRevisions plan) answer]) answer c :=
  Staged.does_call

@[simp] theorem does_patchPlanStatus {name : String} {latest : Option PlanEntry}
    {ends : PlanCalls → Outcome Unit → RevisionCycle → Prop} :
    (patchPlanStatus name latest).Does c asks ends own ↔
      asks own c (.store (.patchPlanStatus name latest)) ∧
      ∀ answer : Outcome Unit,
        ends (own ++ [answered (.patchPlanStatus name latest) answer]) answer c :=
  Staged.does_call

@[simp] theorem does_countConsumers {plan version : String}
    {ends : PlanCalls → Outcome Nat → RevisionCycle → Prop} :
    (countConsumers plan version).Does c asks ends own ↔
      asks own c (.store (.countConsumers plan version)) ∧
      ∀ answer : Outcome Nat,
        ends (own ++ [answered (.countConsumers plan version) answer]) answer c :=
  Staged.does_call

@[simp] theorem does_addFinalizer {r : Revision} {finalizer : String}
    {ends : PlanCalls → Outcome Unit → RevisionCycle → Prop} :
    (RevisionStore.finalizers.add r finalizer : Membership (Outcome Unit)).Does c asks ends own ↔
      asks own c (.store (.addFinalizer r.name finalizer)) ∧
      ∀ answer : Outcome Unit,
        ends (own ++ [answered (.addFinalizer r.name finalizer) answer]) answer c :=
  Staged.does_call

@[simp] theorem does_removeFinalizer {r : Revision} {finalizer : String}
    {ends : PlanCalls → Outcome Unit → RevisionCycle → Prop} :
    (RevisionStore.finalizers.remove r finalizer : Membership (Outcome Unit)).Does c asks ends
        own ↔
      asks own c (.store (.removeFinalizer r.name finalizer)) ∧
      ∀ answer : Outcome Unit,
        ends (own ++ [answered (.removeFinalizer r.name finalizer) answer]) answer c :=
  Staged.does_call

end Calls

def Ordinary : Surroundings.Request RevisionStore → Prop
  | .store (.patchStatus _) => False
  | _ => True

def counted (c : RevisionCycle) (count : Nat) : RevisionCycle :=
  let status := c.resource.status.getD {}
  { c with
    resource := { c.resource with status := some { status with inUse := count } }
    dirty := c.dirty || status.inUse ≠ count
    scratch := { inUse := some count } }

inductive Change (c : RevisionCycle) : RevisionCycle → Prop
  | kept : Change c c
  | marked {type message : String} {mark : Mark} {now : Instant} :
      Change c (c.markAt type mark message now).2
  | counted {count : Nat} : Change c (counted c count)

def Idle {α : Type} (m : Membership α) : Prop :=
  ∀ c own, m.Does c (Staged.From c fun _ r => Ordinary r) (fun _ _ c' => c' = c) own

theorem idle_showLatest {plan : Plan} : Idle (showLatest plan) := by
  intro c own
  simp only [showLatest]
  split
  · exact rfl
  · simp only [Staged.does_bind, Staged.does_log, does_patchPlanStatus]
    exact ⟨⟨rfl, trivial⟩, fun _ => trivial⟩

theorem idle_showAfter {written : Outcome Unit} {plan : Plan} : Idle (showAfter written plan) := by
  intro c own
  cases written with
  | error e => exact rfl
  | ok value => exact idle_showLatest c own

theorem idle_join {planName : String} {entry : PlanEntry} : Idle (join planName entry) := by
  intro c own
  simp only [join, Staged.does_bind, does_getPlan]
  refine ⟨⟨rfl, trivial⟩, fun answer => ?_⟩
  rcases answer with e | _ | plan
  · exact rfl
  · simp only [Staged.does_bind, Staged.does_log, does_createPlan]
    exact ⟨⟨rfl, trivial⟩, fun _ => idle_showAfter c _⟩
  · simp only
    split
    · exact idle_showLatest c _
    · simp only [Staged.does_bind, Staged.does_log, does_patchPlanRevisions]
      exact ⟨⟨rfl, trivial⟩, fun _ => idle_showAfter c _⟩

theorem idle_leave {planName name : String} : Idle (leave planName name) := by
  intro c own
  simp only [leave, Staged.does_bind, does_getPlan]
  refine ⟨⟨rfl, trivial⟩, fun answer => ?_⟩
  rcases answer with e | _ | plan
  · exact rfl
  · exact rfl
  · simp only
    split
    · simp only [Staged.does_bind, Staged.does_log, does_patchPlanRevisions]
      refine ⟨⟨rfl, trivial⟩, fun answer => ?_⟩
      refine (idle_showAfter c _).mono (fun _ _ _ h => h) ?_
      rintro _ result _ rfl
      cases result with
      | ok value => exact rfl
      | error e =>
        simp only
        split <;> exact rfl
    · exact rfl

/-! ## The steps -/

/-- A step asks ordinary requests only, and changes the cycle as steps do. -/
def Calm (step : RevisionStep Scratch) : Prop :=
  ∀ c, step.run.Does c (Staged.From c fun _ r => Ordinary r) (fun _ _ c' => Change c c') []

theorem calm_ensureFinalizer :
    Calm (ensureFinalizer RevisionStore.finalizers cleanupFinalizer) := by
  intro c
  simp only [ensureFinalizer, Staged.does_bind, Staged.does_get]
  split
  · exact .kept
  · rw [Staged.does_bind, does_addFinalizer]
    refine ⟨⟨rfl, trivial⟩, fun answer => ?_⟩
    cases answer with
    | ok value =>
      simp only [Staged.does_bind, Staged.does_log]
      exact .kept
    | error e => exact .kept

theorem calm_ensureFinalizerRemoved :
    Calm (ensureFinalizerRemoved RevisionStore.finalizers cleanupFinalizer) := by
  intro c
  simp only [ensureFinalizerRemoved, Staged.does_bind, Staged.does_get]
  split
  · rw [Staged.does_bind, does_removeFinalizer]
    refine ⟨⟨rfl, trivial⟩, fun answer => ?_⟩
    cases answer with
    | ok value =>
      simp only [Staged.does_bind, Staged.does_log]
      exact .kept
    | error e =>
      simp only
      split <;> exact .kept
  · exact .kept

theorem calm_ensurePlanMembership : Calm ensurePlanMembership := by
  intro c
  simp only [ensurePlanMembership, Staged.does_bind, Staged.does_get]
  split
  · simp only [Staged.does_bind, Staged.does_mark]
    exact fun now => .marked
  · simp only [Staged.does_bind]
    refine (idle_join c []).mono (fun _ _ _ h => h) ?_
    rintro _ result _ rfl
    cases result with
    | error e => exact .kept
    | ok value =>
      simp only [Staged.does_bind, Staged.does_mark]
      exact fun now => .marked

theorem calm_ensurePlanMembershipRemoved : Calm ensurePlanMembershipRemoved := by
  intro c
  simp only [ensurePlanMembershipRemoved, Staged.does_bind, Staged.does_get]
  refine (idle_leave c []).mono (fun _ _ _ h => h) ?_
  rintro _ result _ rfl
  cases result <;> exact .kept

theorem calm_ensureInUseCount : Calm ensureInUseCount := by
  intro c
  simp only [ensureInUseCount, Staged.does_bind, Staged.does_get, does_countConsumers]
  refine ⟨⟨rfl, trivial⟩, fun answer => ?_⟩
  cases answer with
  | error e => exact .kept
  | ok count =>
    simp only [Staged.does_bind, Staged.does_modify]
    exact .counted

theorem calm_ensureReady : Calm ensureReady := by
  intro c
  simp only [ensureReady, Staged.does_bind, Staged.does_get, Staged.does_mark]
  exact fun now => .marked

def stepsFor (deleting : Bool) : List (RevisionStep Scratch) :=
  if deleting then deletionSteps else provisioningSteps

theorem calm_stepsFor {deleting : Bool} {step : RevisionStep Scratch}
    (h : step ∈ stepsFor deleting) : Calm step := by
  cases deleting with
  | true =>
    simp only [stepsFor, deletionSteps, if_true, List.mem_cons, List.not_mem_nil, or_false] at h
    rcases h with rfl | rfl
    · exact calm_ensurePlanMembershipRemoved
    · exact calm_ensureFinalizerRemoved
  | false =>
    simp only [stepsFor, provisioningSteps, Bool.false_eq_true, if_false, List.mem_cons,
      List.not_mem_nil, or_false] at h
    rcases h with rfl | rfl | rfl | rfl
    · exact calm_ensureFinalizer
    · exact calm_ensurePlanMembership
    · exact calm_ensureInUseCount
    · exact calm_ensureReady

end InfraOperator.Catalog
