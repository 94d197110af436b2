import InfraOperator.Proofs.Catalog.Joining

/-!
# Cycles that have listed their revision

The step that lists the revision has returned, so that the next one follows (`Enlists`). Then the
revision is one that its plan is to list, it has joined the plan, and nothing more is asked of plans
in the rest of the cycle. Every cycle over such a revision that ends without a failure gets there.
-/

set_option autoImplicit false

namespace InfraOperator.Catalog

open Supervised (Within)

def enlisting : Row RevisionStore Revision Scratch :=
  [(ensureFinalizer RevisionStore.finalizers cleanupFinalizer, some .proceed),
    (ensurePlanMembership, some .proceed)]

/-- In this run of a cycle over the revision the step that lists it has returned, and the next step
follows. -/
def Enlists (r : Revision) (run : List (Answered (Supervised RevisionStore))) : Prop :=
  ∃ now line own later c',
    run = ⟨.plain .clock, now⟩ :: ⟨.plain (.log line), ()⟩ :: (own ++ later) ∧
    enlisting.Runs ((Cycle.start r {}).register Revision.conditionTypes now) own c'

variable {r : Revision} {c c' : RevisionCycle} {settings : Settings} {failures : Failures}
  {run own later : List (Answered (Supervised RevisionStore))}
  {rest : Program (Supervised RevisionStore) (Outcome Action × Failures)}

theorem joined_of_runs (isOver : IsOver r c) (h : enlisting.Runs c own c') :
    r.metadata.hasFinalizer cleanupFinalizer = true ∧ r.version?.isSome = true ∧
      Joined r.spec.planName (entryOf r) (own.flatMap Supervised.calls) := by
  obtain ⟨status, same⟩ := isOver
  cases h with
  | cons first second =>
    obtain ⟨rfl, passing, -⟩ := does_ensureFinalizer.returned first
    obtain ⟨-, held, silent⟩ := passing trivial
    cases second with
    | cons second done =>
      obtain ⟨joins, -⟩ := does_ensurePlanMembership.returned second
      obtain ⟨-, versioned, joined⟩ := joins trivial
      cases done
      rw [same] at held versioned joined
      refine ⟨held, versioned, ?_⟩
      simp only [List.flatMap_append, List.flatMap_cons, silent, List.append_nil]
      exact joined

theorem live_of_reaches {now : Instant}
    (reached : (reconcile settings r failures).Reaches (⟨.plain .clock, now⟩ :: run) rest) :
    r.metadata.isDeleting = false := by
  cases deleting : r.metadata.isDeleting with
  | false => rfl
  | true =>
    unfold reconcile startCycle at reached
    simp only [deleting, if_true] at reached
    split at reached
    · cases reached
    · cases reached

theorem aboutPlans_later {p : Program (Supervised RevisionStore) (Outcome Action × Failures)}
    {ends : PlanCalls → Outcome Action × Failures → Prop} {past : PlanCalls}
    (live : r.metadata.isDeleting = false)
    (joined : Joined r.spec.planName (entryOf r) (aboutPlans past))
    (h : p.Safe Supervised.calls (fun past => Within (Minds r past)) ends past)
    (reached : p.Reaches run rest) :
    aboutPlans (past ++ run.flatMap Supervised.calls) = aboutPlans past := by
  refine h.invariant (fun all => aboutPlans all = aboutPlans past) reached rfl ?_
  intro all e same asked
  have silent : aboutPlans (Supervised.calls e) = [] := by
    refine aboutPlans_eq_nil fun call called => Bool.eq_false_iff.2 fun concerns => ?_
    have asks : Asks r all call.request := asked.of_mem_calls called _ rfl
    rcases asks.ofPlan concerns with ⟨-, asks⟩ | ⟨leaving, -⟩
    · rw [same] at asks
      exact joined.silent asks
    · cases live.symm.trans leaving.deleting
  rw [aboutPlans_append, same, silent, List.append_nil]

theorem Enlists.joined (h : Enlists r run)
    (reached : (reconcile settings r failures).Reaches run rest) :
    Joining r ∧ Joined r.spec.planName (entryOf r) (aboutPlans (run.flatMap Supervised.calls)) := by
  obtain ⟨now, line, own, later, c', rfl, runs⟩ := h
  have live := live_of_reaches reached
  obtain ⟨held, versioned, joined⟩ := joined_of_runs (isOver_register now) runs
  refine ⟨⟨live, held, versioned⟩, ?_⟩
  have parts : (⟨.plain .clock, now⟩ :: ⟨.plain (.log line), ()⟩ :: (own ++ later) :
      List (Answered (Supervised RevisionStore))) =
      (⟨.plain .clock, now⟩ :: ⟨.plain (.log line), ()⟩ :: own) ++ later := rfl
  rw [parts] at reached ⊢
  obtain ⟨middle, before, after⟩ := reached.parted
  have safe := (safe_reconcile settings r failures).later before
  rw [List.nil_append] at safe
  have same : (⟨.plain .clock, now⟩ :: ⟨.plain (.log line), ()⟩ :: own :
      List (Answered (Supervised RevisionStore))).flatMap Supervised.calls =
      own.flatMap Supervised.calls := rfl
  rw [same] at safe
  have stays := aboutPlans_later live (joined.aboutPlans_eq.symm ▸ joined) safe after
  rw [List.flatMap_append, same, stays, joined.aboutPlans_eq]
  exact joined

/-- The steps up to the one that lists the revision, where the steps end without a failure. -/
theorem exists_enlisting {name : String} {row : Row RevisionStore Revision Scratch}
    {directive : Directive} (isOver : IsOver r c) (joining : Joining r)
    (h : Pipeline.Ran name provisioningSteps c row run (.ok directive) c') :
    ∃ own later c₁, run = own ++ later ∧ enlisting.Runs c own c₁ := by
  obtain ⟨status, same⟩ := isOver
  have held : c.resource.metadata.hasFinalizer cleanupFinalizer = true := by
    rw [same]
    exact joining.held
  have versioned : c.resource.version?.isSome = true := by
    rw [same]
    exact joining.versioned
  generalize ended : Except.ok directive = outcome at h
  cases h with
  | cancelled => cases ended
  | abandoned => cases ended
  | ended ran stops =>
    obtain ⟨-, -, free⟩ := does_ensureFinalizer.returned ran
    cases held.symm.trans (free (halts_of_result stops ended.symm))
  | passed ran passes later =>
    obtain ⟨rfl, passing, -⟩ := does_ensureFinalizer.returned ran
    obtain ⟨rfl, -⟩ := passing passes
    cases later with
    | cancelled => cases ended
    | abandoned => cases ended
    | ended ran stops =>
      obtain ⟨-, unversioned⟩ := does_ensurePlanMembership.returned ran
      rw [unversioned (halts_of_result stops ended.symm)] at versioned
      cases versioned
    | @passed _ _ _ _ _ _ more _ _ _ ran' passes _ =>
      obtain ⟨passing, -⟩ := does_ensurePlanMembership.returned ran'
      obtain ⟨rfl, -⟩ := passing passes
      have runs : enlisting.Runs _ _ _ := .cons ran (.cons ran' (.nil _))
      refine ⟨_, more, _, ?_, runs⟩
      simp only [List.append_nil, List.append_assoc, List.cons_append]

/-- A cycle over such a revision lists it, if it ends without a failure. -/
theorem enlists_of_ok {action : Action} {after : Failures} (joining : Joining r)
    (reached : (reconcile settings r failures).Reaches run (.done (.ok action, after))) :
    Enlists r run := by
  unfold reconcile startCycle at reached
  simp only [joining.live, Bool.false_eq_true, false_and, if_false] at reached
  cases reached with
  | @told _ _ now _ _ reached =>
    cases built : pipelineFor false with
    | error e => cases built
    | ok pipeline =>
      rw [built] at reached
      cases reached with
      | told reached =>
        obtain ⟨executed, last, ⟨result, c₂⟩, rfl, executes, ends⟩ :=
          Program.reaches_bind (p := pipeline.execute RevisionStore.statuses _) reached
        obtain ⟨first, second, ⟨outcome, c₁⟩, rfl, ran, settles⟩ := Program.reaches_bind executes
        obtain ⟨directive, rfl⟩ : ∃ directive, result = .ok directive := by
          cases result with
          | error e => cases ends
          | ok directive => exact ⟨directive, rfl⟩
        obtain rfl : outcome = .ok directive := by
          rcases only_settle_aside.ended settles with same | ⟨e, failed⟩
          · exact same.symm
          · cases failed
        obtain ⟨row, ran⟩ := Pipeline.ran_of_reaches ran
        rw [steps_pipelineFor built] at ran
        obtain ⟨own, later, c₁, rfl, runs⟩ := exists_enlisting (isOver_register now) joining ran
        simp only [List.append_assoc]
        exact ⟨now, _, own, _, c₁, rfl, runs⟩

end InfraOperator.Catalog
