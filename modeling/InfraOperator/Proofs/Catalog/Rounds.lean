import InfraOperator.Proofs.Catalog.Enlisting
import InfraOperator.Proofs.Catalog.Plans

/-!
# Cycles that share a store of plans

Cycles of revisions take turns in asking a store of plans, in any order, and each may be broken off
anywhere. What one request may change is said once (`Writes`): a plan is made with its first
revision, the list of a plan that is still as the cycle has read it gets the revision or loses it,
or a latest revision is shown, which is that of the list the cycle has read or written itself.
-/

set_option autoImplicit false

namespace InfraOperator.Catalog

open Supervised (Within)

structure Round where
  settings : Settings
  revision : Revision
  failures : Failures

def Round.program (round : Round) :
    Program (Supervised RevisionStore) (Outcome Action × Failures) :=
  reconcile round.settings round.revision round.failures

def succeeds : Program (Supervised RevisionStore) (Outcome Action × Failures) → Bool
  | .done (.ok _, _) => true
  | _ => false

theorem exists_of_succeeds {p : Program (Supervised RevisionStore) (Outcome Action × Failures)}
    (h : succeeds p = true) : ∃ action failures, p = .done (.ok action, failures) := by
  unfold succeeds at h
  split at h
  · next action failures => exact ⟨action, failures, rfl⟩
  · cases h

/-- A cycle that has succeeded has served its revision. -/
theorem served_of_succeeds {settings : Settings} {r : Revision} {failures : Failures}
    {run : List (Answered (Supervised RevisionStore))}
    {rest : Program (Supervised RevisionStore) (Outcome Action × Failures)}
    (reached : (reconcile settings r failures).Reaches run rest) (done : succeeds rest = true) :
    Served r (run.flatMap Supervised.calls) := by
  obtain ⟨action, after, rfl⟩ := exists_of_succeeds done
  exact (safe_reconcile settings r failures).ended reached action rfl

section Interleaved

variable {ι : Type} [DecidableEq ι]

/-- The moments of a history are those of the cycles, as far as each has come. -/
structure Interleaved (rounds : ι → Round) (past : List Plans) (first : Plans)
    (ms : List (Moment ι)) : Prop where
  sound : Sound (first :: past)
  history : History past first ms
  runs : ∀ i, ∃ rest, (rounds i).program.Reaches (own i ms) rest

/-- The plan whose latest revision a cycle may show, after its calls about plans. -/
def Shows (r : Revision) (calls : PlanCalls) (plan : Plan) : Prop :=
  Joining r ∧ Basis r.spec.planName (entryOf r) calls plan ∨
  Leaving r ∧ ∃ read : Plan, plan = read.without r.name ∧
    calls = [readPlan r.spec.planName (some read), wrote (read.without r.name)]

/-- What a cycle that has made these calls about plans changes of the plan of its revision. -/
inductive Writes (r : Revision) (calls : PlanCalls) : RevisionCall → Option Plan → Plan → Prop
  | makes {after : Plan} (joining : Joining r) (read : calls = [readPlan r.spec.planName none])
      (revisions : after.revisions = [entryOf r]) (status : after.status = none) :
      Writes r calls (.createPlan (planWith r.spec.planName (entryOf r))) none after
  | adds {before after : Plan} (joining : Joining r)
      (read : calls = [readPlan r.spec.planName (some before)])
      (unlisted : before.lists (entryOf r) = false)
      (revisions : after.revisions = (enlist before (entryOf r)).revisions)
      (status : after.status = before.status) :
      Writes r calls (.patchPlanRevisions (enlist before (entryOf r))) (some before) after
  | removes {before after : Plan} (leaving : Leaving r)
      (read : calls = [readPlan r.spec.planName (some before)])
      (revisions : after.revisions = (before.without r.name).revisions)
      (status : after.status = before.status) :
      Writes r calls (.patchPlanRevisions (before.without r.name)) (some before) after
  | shows {plan before after : Plan} (shows : Shows r calls plan)
      (revisions : after.revisions = before.revisions)
      (status : after.status = some (plan.latest?.or before.shownLatest)) :
      Writes r calls (.patchPlanStatus r.spec.planName plan.latest?) (some before) after

variable {rounds : ι → Round} {past : List Plans} {first : Plans} {ms pre post : List (Moment ι)}
  {m : Moment ι} {i : ι}

abbrev Moment.revision (m : Moment ι) (rounds : ι → Round) : Revision := (rounds m.asker).revision

theorem Interleaved.asks (h : Interleaved rounds past first ms) (parts : ms = pre ++ m :: post)
    {call : StoreCall RevisionStore} (called : call ∈ Supervised.calls m.entry) :
    Asks (m.revision rounds) (ownCalls m.asker pre) call.request := by
  obtain ⟨rest, reached⟩ := h.runs m.asker
  have own_parts : own m.asker ms = own m.asker pre ++ m.entry :: own m.asker post := by
    rw [parts, own_append, own_cons_self]
  have asked := (safe_reconcile _ _ _).asked reached own_parts
  rw [List.nil_append] at asked
  exact asked.of_mem_calls called _ rfl

theorem Interleaved.read (h : Interleaved rounds past first ms) {name : String}
    {found : Option Plan} {before after : PlanCalls}
    (reads : ownCalls i ms = before ++ readPlan name found :: after) :
    ∃ pre m post, ms = pre ++ m :: post ∧ m.asker = i ∧ ownCalls i pre = before ∧
      found = stored first pre name ∧ m.plans = stored first pre := by
  obtain ⟨pre, m, post, parts, asks, calls, before_eq, -⟩ := exists_moment reads
  have serves := h.history.serves parts
  rw [calls] at serves
  exact ⟨pre, m, post, parts, asks, before_eq, serves.of_read⟩

theorem Interleaved.upTo (h : Interleaved rounds past first ms) (parts : ms = pre ++ post) :
    Interleaved rounds past first pre := by
  subst parts
  refine ⟨h.sound, (history_append.1 h.history).1, fun i => ?_⟩
  obtain ⟨rest, reached⟩ := h.runs i
  rw [own_append] at reached
  obtain ⟨middle, before, -⟩ := reached.parted
  exact ⟨middle, before⟩

/-- A plan that was read and has the version of the plan that is stored now is that plan. -/
theorem Interleaved.current (h : Interleaved rounds past first ms) {name : String}
    {read now : Plan} (reads : readPlan name (some read) ∈ ownCalls i ms)
    (found : stored first ms name = some now)
    (same : read.metadata.resourceVersion = now.metadata.resourceVersion) : read = now := by
  obtain ⟨before, after, parts⟩ := List.append_of_mem reads
  obtain ⟨pre, m, post, parts, -, -, was, -⟩ := h.read parts
  have sound := h.history.sound h.sound
  exact sound.unique _ (List.mem_cons_of_mem _ (stored_mem_behind parts)) _
    (List.mem_cons_self ..) name read now was.symm found same

theorem Interleaved.named (h : Interleaved rounds past first ms) {name : String}
    {read : Plan} (reads : readPlan name (some read) ∈ ownCalls i ms) :
    read.name = name ∧ read.metadata.resourceVersion ≠ none := by
  obtain ⟨before, after, parts⟩ := List.append_of_mem reads
  obtain ⟨pre, m, post, parts, -, -, was, -⟩ := h.read parts
  have sound := h.history.sound h.sound
  obtain ⟨named, versioned⟩ :=
    sound.proper _ (List.mem_cons_of_mem _ (stored_mem_behind parts)) name read was.symm
  refine ⟨?_, versioned⟩
  rw [Plan.name, ObjectMeta.displayName, named]
  rfl

theorem mem_of_aboutPlans {calls rest : PlanCalls} {call : StoreCall RevisionStore}
    (h : aboutPlans calls = call :: rest) : call ∈ calls := by
  have mem : call ∈ aboutPlans calls := by
    rw [h]
    exact List.mem_cons_self ..
  exact (List.mem_filter.1 mem).1

theorem Interleaved.name_of_shows (h : Interleaved rounds past first ms) {plan : Plan}
    (shows : Shows (rounds i).revision (aboutPlans (ownCalls i ms)) plan) :
    plan.name = (rounds i).revision.spec.planName := by
  generalize own : aboutPlans (ownCalls i ms) = calls at shows
  rcases shows with ⟨-, basis⟩ | ⟨-, read, rfl, rfl⟩
  · cases basis with
    | listed => exact (h.named (mem_of_aboutPlans own)).1
    | created => rfl
    | added => exact (h.named (mem_of_aboutPlans own)).1
  · exact (h.named (mem_of_aboutPlans own)).1

/-- What a cycle may write, where it is carried out. -/
theorem Interleaved.writes (h : Interleaved rounds past first ms) {name : String}
    {call : RevisionCall} {after : Plan}
    (asks : Asks (rounds i).revision (ownCalls i ms) call)
    (effect : Effect name call (stored first ms name) after) :
    name = (rounds i).revision.spec.planName ∧
      Writes (rounds i).revision (aboutPlans (ownCalls i ms)) call (stored first ms name)
        after := by
  have asked := asks.ofPlan effect.concerns
  -- A list is written over the plan it was made from, since that was read with a version.
  have replaces : ∀ {read plan : Plan},
      aboutPlans (ownCalls i ms) = [readPlan (rounds i).revision.spec.planName (some read)] →
      plan.metadata = read.metadata → name = plan.name → ∀ now, stored first ms name = some now →
      (plan.metadata.resourceVersion = none ∨
        plan.metadata.resourceVersion = now.metadata.resourceVersion) →
      name = (rounds i).revision.spec.planName ∧ read = now := by
    intro read plan own same rfl now found current
    obtain ⟨named, versioned⟩ := h.named (mem_of_aboutPlans own)
    have named : plan.name = (rounds i).revision.spec.planName := by
      rw [Plan.name, same]
      exact named
    rw [named] at found
    rw [same] at current
    refine ⟨named, h.current (mem_of_aboutPlans own) found ?_⟩
    exact current.resolve_left versioned
  generalize own : aboutPlans (ownCalls i ms) = calls at asked replaces ⊢
  generalize found : stored first ms name = now at effect replaces ⊢
  cases effect with
  | made named revisions status =>
    rcases asked with ⟨joining, asks⟩ | ⟨leaving, asks⟩
    · cases asks with
      | create =>
        exact ⟨named.symm, .makes joining rfl revisions status⟩
    · cases asks
  | listed named current revisions status =>
    rcases asked with ⟨joining, asks⟩ | ⟨leaving, asks⟩
    · cases asks with
      | add unlisted =>
        obtain ⟨rfl, rfl⟩ := replaces rfl rfl named.symm _ rfl current
        exact ⟨rfl, .adds joining rfl unlisted revisions status⟩
    · cases asks with
      | remove plan =>
        obtain ⟨rfl, rfl⟩ := replaces rfl rfl named.symm _ rfl current
        exact ⟨rfl, .removes leaving rfl revisions status⟩
  | shown revisions status =>
    rcases asked with ⟨joining, asks⟩ | ⟨leaving, asks⟩
    · cases asks with
      | shows basis other =>
        have shows : Shows (rounds i).revision calls _ := .inl ⟨joining, basis⟩
        have named := h.name_of_shows (own ▸ shows)
        rw [named]
        exact ⟨rfl, .shows shows revisions status⟩
    · cases asks with
      | shows read =>
        have shows : Shows (rounds i).revision _ _ := .inr ⟨leaving, read, rfl, rfl⟩
        have named := h.name_of_shows (own ▸ shows)
        rw [named]
        exact ⟨rfl, .shows shows revisions status⟩

theorem Interleaved.step (h : Interleaved rounds past first ms) (parts : ms = pre ++ m :: post) :
    (m.plans = stored first pre ∧ ∀ call ∈ Supervised.calls m.entry,
      Truthful (stored first pre) call ∧ ¬ Acknowledged call) ∨
    ∃ call after, Supervised.calls m.entry = [call] ∧ Truthful (stored first pre) call ∧
      m.plans = Function.update (stored first pre) (m.revision rounds).spec.planName (some after) ∧
      Writes (m.revision rounds) (aboutPlans (ownCalls m.asker pre)) call.request
        (stored first pre (m.revision rounds).spec.planName) after := by
  have serves := h.history.serves parts
  have asks : ∀ call ∈ Supervised.calls m.entry, _ := fun call => h.asks parts
  generalize Supervised.calls m.entry = calls at serves asks
  generalize left : m.plans = plans at serves
  cases serves with
  | silent => exact .inl ⟨rfl, List.forall_mem_nil _⟩
  | kept truthful unacknowledged =>
    refine .inl ⟨rfl, fun call called => ?_⟩
    obtain rfl := List.mem_singleton.1 called
    exact ⟨truthful, unacknowledged⟩
  | carried truthful effect =>
    obtain ⟨rfl, writes⟩ :=
      (h.upTo parts).writes (asks _ (List.mem_singleton_self _)) effect
    exact .inr ⟨_, _, rfl, truthful, rfl, writes⟩

theorem Interleaved.carried (h : Interleaved rounds past first ms)
    (parts : ms = pre ++ m :: post) {call : StoreCall RevisionStore}
    (calls : Supervised.calls m.entry = [call]) (acknowledged : Acknowledged call) :
    ∃ after,
      m.plans = Function.update (stored first pre) (m.revision rounds).spec.planName
        (some after) ∧
      Writes (m.revision rounds) (aboutPlans (ownCalls m.asker pre)) call.request
        (stored first pre (m.revision rounds).spec.planName) after := by
  rcases h.step parts with ⟨-, unwritten⟩ | ⟨call', after, calls', -, left, writes⟩
  · rw [calls] at unwritten
    exact absurd acknowledged (unwritten call (List.mem_singleton_self _)).2
  · cases calls.symm.trans calls'
    exact ⟨after, left, writes⟩

end Interleaved

end InfraOperator.Catalog
