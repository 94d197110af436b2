import InfraOperator.Proofs.Contention
import InfraOperator.Proofs.Provisioning.Interruption
import InfraOperator.Proofs.Updates

/-!
# Updates of others beside a cycle

Neither kind of cycles overwrites a state of its object that it has not read. But after a conflict a
cycle takes over the version of the object and not its status: what it writes then is what it would
have written before, so that what another writer has said meanwhile of a condition is lost, whether
or not the cycle has changed that condition.
-/

set_option autoImplicit false

namespace InfraOperator

open Supervised (Within)

namespace Provisioning

variable {settings : Settings}

def rereader (settings : Settings) :
    Rereader ConfigurationStore Configuration Scratch (Outcome Action × Failures) where
  toReconciler := reconciler settings
  reread?
    | ⟨.getConfiguration _ _, some (.ok fresh)⟩ => fresh
    | _ => none
  opens c opening p cycle := pipelineFor settings c.metadata.isDeleting = .ok p ∧
    ∃ now line, opening = [⟨.plain .clock, now⟩, ⟨.plain (.log line), ()⟩] ∧
      cycle = openCycle c now

theorem serves_statuses : (rereader settings).Serves ConfigurationStore.statuses where
  write w run result wrote := by
    obtain rfl := Program.run_of_request wrote
    exact ⟨_, rfl, rfl⟩
  reload w run result read := by
    unfold ConfigurationStore.statuses at read
    cases home : w.identity with
    | error e =>
      simp only [home] at read
      cases read
      refine ⟨rfl, fun fresh found => ?_⟩
      cases found
    | ok identified =>
      simp only [home] at read
      obtain rfl := Program.run_of_request read
      refine ⟨rfl, fun fresh found => ?_⟩
      rw [found]
      exact List.mem_singleton_self _

theorem StepAsks.quiet {c : ConfigurationCycle} {r : Surroundings.Request ConfigurationStore}
    (h : StepAsks settings c r) : (rereader settings).Quiet r := by
  cases r with
  | store call =>
    cases call with
    | patchStatus object => exact absurd rfl (h.ne_patchStatus object)
    | _ => rfl
  | _ => trivial

theorem ConcludeAsks.quiet {c : Configuration} {result : Outcome Directive}
    {cycle : ConfigurationCycle} {r : Surroundings.Request ConfigurationStore}
    (h : ConcludeAsks c result cycle r) :
    (rereader settings).Quiet r := by
  cases h with
  | prompt quick => exact Rereader.quiet_of_prompt quick
  | _ => trivial

section Deeds

variable {start c c' : ConfigurationCycle} {ds : List Deed} {own : Calls}

theorem Change.did (h : Change settings c own c') (before : start.Did ds c) :
    ∃ ds, start.Did ds c' := by
  cases h with
  | kept => exact ⟨ds, before⟩
  | unmet => exact before.marked ..
  | @provided _ message now =>
    obtain ⟨ds, marked⟩ := before.marked Configuration.providerReady .success message now
    exact ⟨ds, marked.congr rfl rfl rfl⟩
  | selected => exact ⟨ds, before.congr rfl rfl rfl⟩
  | listed => exact ⟨ds, before.congr rfl rfl rfl⟩
  | succeeded => exact before.marked ..
  | counted => exact ⟨ds, before.congr (conditions_counted _) (events_counted _) (metadata_counted _)⟩
  | cleaned => exact ⟨ds, before.congr rfl rfl rfl⟩

theorem Leaves.did (h : Leaves settings c own c') (before : start.Did ds c) :
    ∃ ds, start.Did ds c' := by
  cases h with
  | changed h => exact h.did before
  | ready h =>
    rw [h]
    exact before.marked ..

end Deeds

theorem settles_execute {c : Configuration} {pipeline : ConfigurationPipeline} {now : Instant}
    {line : LogLine} {run : List (Answered (Supervised ConfigurationStore))}
    {v : Outcome Directive × ConfigurationCycle}
    (built : pipelineFor settings c.metadata.isDeleting = .ok pipeline)
    (reached : (pipeline.execute ConfigurationStore.statuses (openCycle c now)).Reaches run
      (.done v)) :
    (rereader settings).Settles c (⟨.plain .clock, now⟩ :: ⟨.plain (.log line), ()⟩ :: run) := by
  have opens : (rereader settings).opens c [⟨.plain .clock, now⟩, ⟨.plain (.log line), ()⟩]
      pipeline (openCycle c now) := ⟨built, now, line, rfl, rfl⟩
  have began : ∃ ds, (Cycle.start c {}).Did ds (openCycle c now) := (Cycle.did_nil _).registered ..
  apply Pipeline.settles_execute serves_statuses opens rfl began _ reached
  intro step hs cycle ⟨ds, did⟩
  rw [steps_pipelineFor built] at hs
  apply (does_stepsFor hs).mono
  · rintro own t q ⟨same, asks⟩
    exact ⟨same, asks.quiet⟩
  · intro own verdict cycle' left
    exact left.did did

theorem careful_rereader : (rereader settings).Careful := by
  rintro c _ ⟨failures, rfl⟩ run value reached
  by_cases skipped : c.metadata.isDeleting = true ∧
      c.metadata.isDeletionCandidate cleanupFinalizer = false
  · rw [reconcile, if_pos skipped] at reached
    cases reached with
    | told reached =>
      cases reached
      exact .quiet rfl
  · obtain ⟨pipeline, built⟩ := exists_pipeline settings c.metadata.isDeleting
    rw [reconcile, if_neg skipped, built] at reached
    cases reached with
    | @told _ _ now _ _ reached =>
      cases reached with
      | told reached =>
        obtain ⟨executed, concluded, v, rfl, executes, concludes⟩ :=
          Program.reaches_bind (p := pipeline.execute _ (openCycle c now)) reached
        apply (settles_execute built executes).append
        apply Rereader.writes_of_only (only_conclude.mono _ fun _ _ => trivial) concludes
        rintro q plain
        exact (plain.within).mono fun _ => ConcludeAsks.quiet

end Provisioning

namespace Catalog

variable {settings : Settings}

def rereader (settings : Settings) :
    Rereader RevisionStore Revision Scratch (Outcome Action × Failures) where
  toReconciler := reconciler settings
  reread?
    | ⟨.getRevision _, some (.ok fresh)⟩ => fresh
    | _ => none
  opens r opening p cycle := pipelineFor r.metadata.isDeleting = .ok p ∧
    ∃ asked line, opening = asked ++ [⟨.plain (.log line), ()⟩] ∧
      (startCycle r r.metadata.isDeleting).Reaches asked (.done cycle)

theorem serves_statuses : (rereader settings).Serves RevisionStore.statuses where
  write w run result wrote := by
    obtain rfl := Program.run_of_request wrote
    exact ⟨_, rfl, rfl⟩
  reload w run result read := by
    obtain rfl := Program.run_of_request read
    refine ⟨rfl, fun fresh found => ?_⟩
    rw [found]
    exact List.mem_singleton_self _

theorem Ordinary.quiet {r : Surroundings.Request RevisionStore} (h : Ordinary r) :
    (rereader settings).Quiet r := by
  cases r with
  | store call =>
    cases call with
    | patchStatus object => exact h.elim
    | _ => rfl
  | _ => trivial

theorem Change.did {start c c' : RevisionCycle} {ds : List InfraOperator.Deed} (h : Change c c')
    (before : start.Did ds c) : ∃ ds, start.Did ds c' := by
  cases h with
  | kept => exact ⟨ds, before⟩
  | marked => exact before.marked ..
  | counted => exact ⟨ds, before.congr rfl rfl rfl⟩

theorem settles_execute {r : Revision} {pipeline : RevisionPipeline} {c : RevisionCycle}
    {opening run : List (Answered (Supervised RevisionStore))}
    {v : Outcome Directive × RevisionCycle}
    (opens : (rereader settings).opens r opening pipeline c)
    (before : (rereader settings).writes (opening.flatMap Supervised.calls) = [])
    (began : ∃ ds, (Cycle.start r {}).Did ds c)
    (reached : (pipeline.execute RevisionStore.statuses c).Reaches run (.done v)) :
    (rereader settings).Settles r (opening ++ run) := by
  apply Pipeline.settles_execute serves_statuses opens before began _ reached
  intro step hs cycle ⟨ds, did⟩
  rw [steps_pipelineFor opens.1] at hs
  apply (calm_stepsFor hs cycle).mono
  · rintro own t q ⟨same, ordinary⟩
    exact ⟨same, ordinary.quiet⟩
  · intro own verdict cycle' change
    exact change.did did

theorem only_startCycle {r : Revision} {deleting : Bool} :
    (startCycle r deleting).Only (Within (rereader settings).Quiet)
      fun c => ∃ ds, (Cycle.start r {}).Did ds c := by
  unfold startCycle
  split
  · exact ⟨[], Cycle.did_nil _⟩
  · exact ⟨trivial, fun now => (Cycle.did_nil _).registered _ now⟩

theorem careful_rereader : (rereader settings).Careful := by
  rintro r _ ⟨failures, rfl⟩ run value reached
  by_cases skipped : r.metadata.isDeleting = true ∧
      r.metadata.isDeletionCandidate cleanupFinalizer = false
  · rw [reconcile, if_pos skipped] at reached
    cases reached
    exact .quiet rfl
  · rw [reconcile, if_neg skipped] at reached
    obtain ⟨asked, run, c, rfl, opens, reached⟩ := Program.reaches_bind reached
    have only : (startCycle r r.metadata.isDeleting).Only (Within (rereader settings).Quiet) _ :=
      only_startCycle
    have quiet : (rereader settings).writes (asked.flatMap Supervised.calls) = [] :=
      Rereader.writes_of_only only opens
    cases built : pipelineFor r.metadata.isDeleting with
    | error e =>
      rw [built] at reached
      cases reached
      rw [List.append_nil]
      exact .quiet quiet
    | ok pipeline =>
      rw [built] at reached
      cases reached with
      | told reached =>
        obtain ⟨executed, concluded, ⟨result, left⟩, rfl, executes, concludes⟩ :=
          Program.reaches_bind (p := pipeline.execute RevisionStore.statuses c) reached
        have ended : concluded = [] := by
          cases result <;> cases concludes <;> rfl
        subst ended
        rw [List.append_nil, List.append_cons]
        apply settles_execute ⟨built, asked, _, rfl, opens⟩ _ (only.ended opens) executes
        rw [Rereader.writes_flatMap_append, quiet]
        rfl

end Catalog

namespace Provisioning

def audited : Configuration :=
  { asRead 3 "8" with status := some { conditions := [holding "Audited" 3] } }

def auditedVisit : Visit :=
  let s : Steady := { provider := some readyProvider, units := [succeeded .plan 3] }
  ⟨asRead 3 "7", .none, (reconcile {} (asRead 3 "7") .none).follow (contested audited s)⟩

def refused? : StoreCall ConfigurationStore → Option (Configuration × Failure)
  | ⟨.patchStatus w, some (.error e)⟩ => some (w, e)
  | _ => none

theorem eq_of_refused {call : StoreCall ConfigurationStore} {w : Configuration} {e : Failure}
    (h : refused? call = some (w, e)) : call = told (.patchStatus w) (.error e) := by
  unfold refused? at h
  split at h
  · cases h
    rfl
  · cases h

theorem exists_conflict {calls : Calls}
    (h : calls.any (fun call => (refused? call).any (·.2.isConflict)) = true) :
    ∃ w e, told (.patchStatus w) (.error e) ∈ calls ∧ e.isConflict = true := by
  obtain ⟨call, listed, conflicts⟩ := List.any_eq_true.1 h
  obtain ⟨⟨w, e⟩, refused, conflict⟩ := (Option.any_eq_true _ _).1 conflicts
  exact ⟨w, e, eq_of_refused refused ▸ listed, conflict⟩

theorem exists_second_write : ∃ pre post w, auditedVisit.calls =
      pre ++ told (.patchStatus w) (.ok ()) :: post ∧
    (∃ w' e, told (.patchStatus w') (.error e) ∈ pre ∧ e.isConflict = true) ∧
    Contended (rereader {}) (asRead 3 "7") pre [audited, asRead 3 "7"] ∧
    Overwrites audited w { asRead 3 "9" with status := w.status } ∧
    findCondition (Resource.conditions w) "Audited" = none := by
  have written : ((auditedVisit.calls.drop 9).head?.bind acknowledged?).any (fun w =>
      versionOf w = versionOf audited &&
        (findCondition (Resource.conditions w) "Audited").isNone) = true := by decide +kernel
  obtain ⟨w, written, shape⟩ := (Option.any_eq_true _ _).1 written
  obtain ⟨guarded, unaudited⟩ := Bool.and_eq_true_iff.1 shape
  obtain ⟨call, post, parts, acknowledged⟩ := exists_parted written
  rw [eq_of_acknowledged acknowledged] at parts
  refine ⟨_, post, w, parts, exists_conflict (by decide +kernel), ?_, ?_, ?_⟩
  · have reads : (auditedVisit.calls.take 9).filterMap (rereader {}).reread? = [audited] := by
      decide +kernel
    have began : Contended (rereader {}) (asRead 3 "7") [] [audited, asRead 3 "7"] := by
      apply (Contended.start (by decide)).changed (by decide)
      intro y hy
      rw [List.mem_singleton.1 hy]
      decide
    apply began.through
    intro x hx
    rw [reads] at hx
    exact List.mem_cons.2 (.inl (List.mem_singleton.1 hx))
  · exact ⟨.inr (of_decide_eq_true guarded), rfl, rfl⟩
  · exact Option.isNone_iff_eq_none.1 unaudited

end Provisioning

namespace Catalog

def readRevision : Revision := revisionOf 1 (some "1")

def readRun : List (Answered (Supervised RevisionStore)) :=
  (reconcile {} readRevision .none).follow accepting

theorem exists_first_write : ∃ pre call post w, readRun.flatMap Supervised.calls =
      pre ++ call :: post ∧ (rereader {}).written? call.request = some w ∧
    Contended (rereader {}) readRevision pre [readRevision] ∧
    Overwrites readRevision w { revisionOf 1 (some "2") with status := w.status } := by
  have written : (((readRun.flatMap Supervised.calls).drop 4).head?.bind fun call =>
      (rereader {}).written? call.request).any (fun w => versionOf w = some "1") = true := by
    decide +kernel
  obtain ⟨w, written, guarded⟩ := (Option.any_eq_true _ _).1 written
  obtain ⟨call, post, parts, writes⟩ := exists_parted written
  refine ⟨_, call, post, w, parts, writes, ?_, .inr (of_decide_eq_true guarded), rfl, rfl⟩
  have unread : ((readRun.flatMap Supervised.calls).take 4).filterMap (rereader {}).reread? =
      [] := by decide +kernel
  have began : Contended (rereader {}) readRevision [] [readRevision] := .start (by decide)
  apply began.through
  intro x hx
  rw [unread] at hx
  cases hx

end Catalog

end InfraOperator
