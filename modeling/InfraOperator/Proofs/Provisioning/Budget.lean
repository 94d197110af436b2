import InfraOperator.Proofs.Provisioning.Journal
import InfraOperator.Proofs.Provisioning.Units

/-!
# Failed pods with retries left

A rendered unit says how often its pod may be run again after it failed. That its failed pods are
within this budget is not looked at: the unit counts as failed from its first failed pod on, and the
stage that follows it is then marked so and waited for no more.
-/

set_option autoImplicit false

namespace InfraOperator

namespace Job

def retryLimit? (job : Job) : Option Int := job.spec.bind (·.backoffLimit)

/-- No pod has succeeded, the job is not said to have failed, and no more pods have failed than may
be run again. -/
structure Retries (job : Job) (limit : Int) : Prop where
  unsucceeded : job.succeededCount ≤ 0
  undecided : job.jobConditions.any (·.isTrue "Failed") = false
  within : job.failedCount ≤ limit

theorem Retries.state_eq {job : Job} {limit : Int} (h : job.Retries limit) :
    job.state = if 0 < job.failedCount then .failed else .active := by
  have incomplete : job.isComplete = false := decide_eq_false (Int.not_lt.2 h.unsucceeded)
  have failed : job.isFailed = decide (0 < job.failedCount) := by
    rw [isFailed, h.undecided, Bool.or_false]
  simp [state, incomplete, failed]

end Job

theorem UnitRequest.retryLimit?_unitFor (r : UnitRequest) (uid account : String) :
    (r.unitFor uid account).retryLimit? = some Rendering.backoffLimit := rfl

namespace Staged

variable {S : Interface} {σ α : Type} {s t : σ} {ends : List (StoreCall S) → α → σ → Prop}

/-- A computation that asks for nothing that takes time cannot be given up. -/
theorem Does.undisturbed {m : Staged S σ α} (h : Does m s (fun _ _ _ => False) ends [])
    {run : List (Answered (Supervised S))} {returned : Option α}
    (reached : (watch (m.run s)).Reaches run (.done (returned, t))) :
    ∃ value, returned = some value ∧ ends (run.flatMap Supervised.calls) value t := by
  cases returned with
  | some value => exact ⟨value, rfl, h.returned reached⟩
  | none =>
    rw [← forget_observe] at reached
    obtain ⟨noted, rest, ran, -, left⟩ := Program.exists_noted_run reached
    obtain rfl : rest = .done (none, t) := by
      cases rest with
      | done v => exact congrArg Program.done (Program.done.inj left)
      | ask r next => cases left
    obtain ⟨_, _, _, _, asked⟩ := (h.observe []).ended ran
    exact asked.elim

end Staged

namespace Provisioning.StageRun

variable {s : StageRun} {settings : Settings} {c c' : ConfigurationCycle} {job : Job}

/-- The stage is up to this job: it is the latest unit that the cycle knows of. -/
structure Follows (s : StageRun) (settings : Settings) (c : ConfigurationCycle) (job : Job) : Prop
    extends s.Due c where
  latest : ∃ uid, c.resource.ownerUid = .ok uid ∧
    (c.resource.unitFilter settings.namespaceName uid s.stage).latest? c.scratch.units = some job

/-- A stage with a unit to follow asks for nothing else. -/
theorem Follows.run_eq (h : s.Follows settings c job) :
    (s.run settings).run c = (s.follow job).run c := by
  obtain ⟨uid, owner, latest⟩ := h.latest
  unfold run
  rw [StateT.run_bind]
  change (if c.isComplete s.condition then _ else _ : Run Verdict).run c = _
  rw [if_neg (by simp [h.incomplete]), if_neg h.policed, owner]
  simp only [latest]

def recorded : UnitState → Mark × Verdict
  | .complete => (.success, .proceed)
  | .failed => (.failed, .pause)
  | .active => (.inProgress, .requeue activeDelay)

theorem exists_follow_eq (s : StageRun) (job : Job) : ∃ message, s.follow job = (do
    mark s.condition (recorded job.state).1 message
    return (recorded job.state).2 : Run Verdict) := by
  unfold follow
  cases job.state with
  | complete => exact ⟨_, rfl⟩
  | failed => exact ⟨_, rfl⟩
  | active => exact ⟨_, rfl⟩

theorem does_follow_quietly : (s.follow job).Does c (fun _ _ _ => False)
    (fun _ verdict c' => verdict = (recorded job.state).2 ∧
      ∃ x, findCondition c'.conditions s.condition = some x ∧
        x.reason = (recorded job.state).1.reason) [] := by
  obtain ⟨message, follow_eq⟩ := exists_follow_eq s job
  rw [follow_eq]
  simp only [Staged.does_bind, Staged.does_mark, Staged.does_pure]
  intro now
  obtain ⟨x, found, shown⟩ : ∃ x, findCondition (c.markAt s.condition (recorded job.state).1
      message now).2.conditions s.condition = some x ∧
      Conditions.Says x s.condition (recorded job.state).1 message c.generation := Cycle.find_markAt
  exact ⟨trivial, x, found, shown.reason_eq⟩

/-- However the run of a stage ends, it has recorded the state of the unit it follows. -/
theorem Follows.recorded_eq (h : s.Follows settings c job)
    {run : List (Answered (Supervised ConfigurationStore))} {returned : Option Verdict}
    (reached : (Staged.watch ((s.run settings).run c)).Reaches run (.done (returned, c'))) :
    returned = some (recorded job.state).2 ∧
      ∃ x, findCondition c'.conditions s.condition = some x ∧
        x.reason = (recorded job.state).1.reason := by
  rw [h.run_eq] at reached
  obtain ⟨verdict, rfl, rfl, condition⟩ := does_follow_quietly.undisturbed reached
  exact ⟨rfl, condition⟩

end Provisioning.StageRun

namespace Provisioning

variable {r : UnitRequest} {unit : Job}

/-- A rendered unit whose pod is still run again counts as failed just if some pod of it failed, and
then the stage that follows it is marked so and nothing more is waited for. -/
theorem counts_as_failed_iff (rendered : r.renderUnit = .ok unit) :
    ∃ limit, unit.retryLimit? = some limit ∧ 0 < limit ∧
      ∀ job : Job, job.spec = unit.spec → job.Retries limit →
        (job.state = .failed ↔ 0 < job.failedCount) ∧
        ∀ (s : StageRun) (settings : Settings) (c c' : ConfigurationCycle)
          (run : List (Answered (Supervised ConfigurationStore))) (returned : Option Verdict),
          s.Follows settings c job →
          (Staged.watch ((s.run settings).run c)).Reaches run (.done (returned, c')) →
          ∃ x, findCondition c'.conditions s.condition = some x ∧
            if 0 < job.failedCount then returned = some .pause ∧ x.reason = .error
            else returned = some (.requeue activeDelay) ∧ x.reason = .inProgress := by
  obtain ⟨uid, account, -, rfl⟩ := UnitRequest.exists_of_renderUnit rendered
  refine ⟨_, r.retryLimit?_unitFor uid account, by decide, fun job _ retries => ⟨?_, ?_⟩⟩
  · rw [retries.state_eq]
    by_cases failed : 0 < job.failedCount
    · simp [failed]
    · simp [failed]
  · intro s settings c c' run returned follows reached
    obtain ⟨verdict, x, found, reason⟩ := follows.recorded_eq reached
    refine ⟨x, found, ?_⟩
    rw [retries.state_eq] at verdict reason
    split
    · rename_i failed
      rw [if_pos failed] at verdict reason
      exact ⟨verdict, reason⟩
    · rename_i unfailed
      rw [if_neg unfailed] at verdict reason
      exact ⟨verdict, reason⟩

def planRequest : UnitRequest :=
  { configuration := sample []
    provider := readyProvider
    policy := none
    stage := .plan
    generation := 3
    retry := none
    settings := {} }

def secondAttempt : Job :=
  { planRequest.unitFor "u-1" Rendering.defaultServiceAccount with
    status := some { active := some 1, failed := some 1 } }

def retriedCycle : ConfigurationCycle := Cycle.start (sample []) { units := [secondAttempt] }

theorem retries_secondAttempt : secondAttempt.Retries Rendering.backoffLimit :=
  ⟨by decide, by decide, by decide⟩

theorem follows_secondAttempt : StageRun.plan.Follows {} retriedCycle secondAttempt :=
  ⟨⟨by decide, by decide⟩, "u-1", rfl, by decide +kernel⟩

theorem exists_run_retried :
    ∃ run returned c', (Staged.watch ((StageRun.plan.run {}).run retriedCycle)).Reaches run
      (.done (returned, c')) :=
  ⟨_, _, _, Program.reaches_follow (Steady.answer {}) _⟩

theorem retried_counts_as_failed :
    ¬ (∀ (r : UnitRequest) (unit job : Job) (limit : Int), r.renderUnit = .ok unit →
      unit.retryLimit? = some limit → job.spec = unit.spec → job.Retries limit →
      job.state ≠ .failed) ∧
    ¬ ∀ (r : UnitRequest) (unit job : Job) (limit : Int), r.renderUnit = .ok unit →
      unit.retryLimit? = some limit → job.spec = unit.spec → job.Retries limit →
      ∀ (s : StageRun) (settings : Settings) (c c' : ConfigurationCycle)
        (run : List (Answered (Supervised ConfigurationStore))) (returned : Option Verdict),
        s.Follows settings c job →
        (Staged.watch ((s.run settings).run c)).Reaches run (.done (returned, c')) →
        ∀ x, findCondition c'.conditions s.condition = some x → x.reason ≠ .error := by
  constructor
  · intro claim
    exact claim planRequest _ secondAttempt _ rfl rfl rfl retries_secondAttempt rfl
  · intro claim
    obtain ⟨run, returned, c', reached⟩ := exists_run_retried
    obtain ⟨-, x, found, reason⟩ := follows_secondAttempt.recorded_eq reached
    exact claim planRequest _ secondAttempt _ rfl rfl rfl retries_secondAttempt _ _ _ _ _ _
      follows_secondAttempt reached x found reason

/-- With a pod that failed the plan is marked so. -/
theorem counts_as_failed_iff_secondAttempt :
    secondAttempt.state = .failed ∧
      ∃ run c' x, (Staged.watch ((StageRun.plan.run {}).run retriedCycle)).Reaches run
          (.done (some .pause, c')) ∧
        findCondition c'.conditions StageRun.plan.condition = some x ∧ x.reason = .error := by
  have rendered : planRequest.renderUnit =
      .ok (planRequest.unitFor "u-1" Rendering.defaultServiceAccount) := rfl
  obtain ⟨limit, limited, -, failed⟩ := counts_as_failed_iff rendered
  obtain rfl : Rendering.backoffLimit = limit := Option.some.inj limited
  obtain ⟨state, runs⟩ := failed secondAttempt rfl retries_secondAttempt
  obtain ⟨run, returned, c', reached⟩ := exists_run_retried
  obtain ⟨x, found, rest⟩ :=
    runs .plan {} retriedCycle c' run returned follows_secondAttempt reached
  have one : 0 < secondAttempt.failedCount := by decide
  rw [if_pos one] at rest
  obtain ⟨rfl, reason⟩ := rest
  exact ⟨state.2 one, run, c', x, reached, found, reason⟩

end Provisioning

end InfraOperator
