import InfraOperator.Proofs.Catalog.Steps
import InfraOperator.Proofs.Interleaving
import InfraOperator.Proofs.Provisioning.Journal

/-!
# Conditions of an object that is edited

Neither kind of objects ever has a condition for a generation that it has not had, wherever its
edits fall between the requests of the cycles over it. What matters is that a mark is stamped with
the generation the cycle has read, and not with that of the object a write is tried again on.
-/

set_option autoImplicit false

namespace InfraOperator

open Conditions (UpTo)
open Supervised (Within)

namespace Provisioning

variable {settings : Settings} {c c' : ConfigurationCycle} {own : Calls} {generation : Int}

def reconciler (settings : Settings) :
    Reconciler ConfigurationStore Configuration (Outcome Action × Failures) where
  starts c p := ∃ failures, p = reconcile settings c failures
  written?
    | .patchStatus c => some c
    | _ => none

theorem Change.dated (h : Change settings c own c') (dated : c.Dated generation) :
    c'.Dated generation := by
  cases h with
  | kept => exact dated
  | unmet => exact dated.markAt ..
  | @provided _ message now =>
    exact (dated.markAt Configuration.providerReady .success message now).congr rfl rfl
  | selected => exact dated.congr rfl rfl
  | listed => exact dated.congr rfl rfl
  | succeeded => exact dated.markAt ..
  | counted => exact dated.congr (metadata_counted _) (conditions_counted _)
  | cleaned => exact dated.congr rfl rfl

theorem Leaves.dated (h : Leaves settings c own c') (dated : c.Dated generation) :
    c'.Dated generation := by
  cases h with
  | changed h => exact h.dated dated
  | ready h =>
    rw [h]
    exact dated.markAt ..

theorem StepAsks.writesUpTo {r : Surroundings.Request ConfigurationStore}
    (h : StepAsks settings c r) : (reconciler settings).WritesUpTo generation r := by
  cases r with
  | store call =>
    intro written writes
    cases call with
    | patchStatus object => exact absurd rfl (h.ne_patchStatus object)
    | _ => cases writes
  | _ => trivial

theorem dated_reconciler : (reconciler settings).Dated := by
  rintro r _ ⟨failures, rfl⟩ counted upTo
  have prompt : ∀ q : Surroundings.Request ConfigurationStore, q.suspends = false →
      (reconciler settings).WritesUpTo (Resource.generation r) q := by
    intro q quick
    cases q <;> trivial
  unfold reconcile
  simp only
  split
  · exact ⟨trivial, fun _ => trivial⟩
  refine ⟨trivial, fun now => ?_⟩
  cases built : pipelineFor settings r.metadata.isDeleting with
  | error e => trivial
  | ok pipeline =>
    refine ⟨trivial, fun _ => ?_⟩
    refine (Pipeline.only_execute (Cycle.Dated (Resource.generation r)) prompt
      (fun _ => trivial) (fun _ => trivial) ?_ ?_ ?_ ?_).bind ?_
    · intro c dated version
      refine ⟨fun written writes => ?_, fun _ => trivial⟩
      obtain rfl := Option.some.inj writes
      exact dated.upTo
    · intro object
      simp only [ConfigurationStore.statuses]
      cases object.identity with
      | error e => trivial
      | ok identified => exact ⟨fun _ writes => (by cases writes), fun _ => trivial⟩
    · intro step hs c dated
      rw [steps_pipelineFor built] at hs
      refine (does_stepsFor hs).mono ?_ fun own verdict c' left => left.dated dated
      rintro own t q ⟨same, asks⟩
      exact ⟨same, asks.writesUpTo⟩
    · exact (Cycle.dated_start upTo _).register counted _ now
    · rintro ⟨result, cycle⟩ -
      refine Program.Only.mono only_conclude (fun q asks => ?_) fun _ _ => trivial
      refine asks.within.mono fun q asks => ?_
      cases asks with
      | announce => trivial
      | prompt quick => exact prompt _ quick

end Provisioning

namespace Catalog

variable {c c' : RevisionCycle} {generation : Int}

def reconciler (settings : Settings) :
    Reconciler RevisionStore Revision (Outcome Action × Failures) where
  starts r p := ∃ failures, p = reconcile settings r failures
  written?
    | .patchStatus r => some r
    | _ => none

theorem Change.dated (h : Change c c') (dated : c.Dated generation) : c'.Dated generation := by
  cases h with
  | kept => exact dated
  | marked => exact dated.markAt ..
  | counted => exact dated.congr rfl rfl

theorem steps_pipelineFor {deleting : Bool} {p : RevisionPipeline}
    (h : pipelineFor deleting = .ok p) : p.steps = stepsFor deleting := by
  cases deleting <;> cases h <;> rfl

theorem dated_reconciler {settings : Settings} : (reconciler settings).Dated := by
  rintro r _ ⟨failures, rfl⟩ counted upTo
  have prompt : ∀ q : Surroundings.Request RevisionStore, q.suspends = false →
      (reconciler settings).WritesUpTo (Resource.generation r) q := by
    intro q quick
    cases q <;> trivial
  unfold reconcile
  simp only
  split
  · trivial
  have started : (startCycle r r.metadata.isDeleting).Only
      (Within ((reconciler settings).WritesUpTo (Resource.generation r)))
      (Cycle.Dated (Resource.generation r)) := by
    unfold startCycle
    split
    · exact Cycle.dated_start upTo _
    · exact ⟨trivial, fun now => (Cycle.dated_start upTo _).register counted _ now⟩
  refine started.bind fun cycle dated => ?_
  cases built : pipelineFor r.metadata.isDeleting with
  | error e => trivial
  | ok pipeline =>
    refine ⟨trivial, fun _ => ?_⟩
    refine (Pipeline.only_execute (Cycle.Dated (Resource.generation r)) prompt
      (fun _ => trivial) (fun _ => trivial) ?_ ?_ ?_ dated).bind ?_
    · intro c dated version
      refine ⟨fun written writes => ?_, fun _ => trivial⟩
      obtain rfl := Option.some.inj writes
      exact dated.upTo
    · exact fun object => ⟨fun _ writes => (by cases writes), fun _ => trivial⟩
    · intro step hs c dated
      rw [steps_pipelineFor built] at hs
      refine (calm_stepsFor hs c).mono ?_ fun own verdict c' change => change.dated dated
      rintro own t q ⟨same, ordinary⟩
      refine ⟨same, ?_⟩
      cases q with
      | store call =>
        intro written writes
        cases call with
        | patchStatus object => exact ordinary.elim
        | _ => cases writes
      | _ => trivial
    · rintro ⟨result, cycle⟩ -
      cases result <;> trivial

end Catalog

open Scene (Reachable)

/-- However edits of an object and cycles over it fall between each other, and whichever of their
writes are refused, lost or made again: from an object without conditions no state comes about with
a condition for a generation that the object did not have by then, and right after an edit no
condition is complete for the new generation. Objects are never given a negative generation. -/
theorem generations_seen (settings : Settings) :
    (∀ (start : Configuration) scene, 0 ≤ Resource.generation start →
      Resource.conditions start = [] →
      Reachable (Provisioning.reconciler settings) start scene → scene.NeverAhead) ∧
    ∀ (start : Revision) scene, 0 ≤ Resource.generation start → Resource.conditions start = [] →
      Reachable (Catalog.reconciler settings) start scene → scene.NeverAhead := by
  constructor
  · intro start scene counted empty reachable
    exact (reachable.current Provisioning.dated_reconciler counted empty).neverAhead
  · intro start scene counted empty reachable
    exact (reachable.current Catalog.dated_reconciler counted empty).neverAhead

/-- A scene in which the object was edited while a cycle over it was under way, and the cycle wrote
its status afterwards. -/
theorem Scene.reachable_edited {S : Interface} {R β : Type} [Resource R] {k : Reconciler S R β}
    {start edited stored written : R} {p rest : Program (Supervised S) β}
    {run : List (Answered (Supervised S))} (starts : k.starts start p)
    (edits : Edits start edited) (reached : p.Reaches run rest)
    (wrote : written ∈ (run.flatMap Supervised.calls).filterMap fun call =>
      k.written? call.request)
    (effect : Overwrites edited written stored) :
    ∃ running, Reachable k start ⟨stored, [edited, start], running⟩ := by
  have began : Reachable k start ⟨start, [], [p]⟩ :=
    Relation.ReflTransGen.single (.begin (List.mem_cons_self ..) starts)
  exact Reachable.written reached (began.tail (.edit edits)) rfl wrote effect

/-! A configuration is edited while a cycle over it is under way, which has its write refused and
makes it again under the new version. A revision is edited likewise, but its cycle writes under no
version. -/

namespace Provisioning

def asRead (generation : Int) (version : String) : Configuration :=
  { sample [] with
    metadata :=
      { (sample []).metadata with generation := some generation, resourceVersion := some version } }

def contested (fresh : Configuration) (s : Steady) :
    (q : Supervised.Request ConfigurationStore) → Supervised.Answer q
  | .plain (.store (.patchStatus c)) =>
    if c.metadata.resourceVersion = fresh.metadata.resourceVersion then (.ok () : Outcome Unit)
    else (.error .conflict : Outcome Unit)
  | .plain (.store (.getConfiguration _ _)) => (.ok (some fresh) : Outcome (Option Configuration))
  | q => s.answer q

def contestedVisit : Visit :=
  let s : Steady := { provider := some readyProvider, units := [succeeded .plan 3] }
  ⟨asRead 3 "7", .none, (reconcile {} (asRead 3 "7") .none).follow (contested (asRead 4 "8") s)⟩

def contestedWritten : Configuration := contestedVisit.written.getLastD (sample [])

def contestedStored : Configuration := { asRead 4 "9" with status := contestedWritten.status }

theorem reachable_contested : ∃ running, Reachable (reconciler {}) (asRead 3 "7")
    ⟨contestedStored, [asRead 4 "8", asRead 3 "7"], running⟩ := by
  have starts : (reconciler {}).starts (asRead 3 "7") (reconcile {} (asRead 3 "7") .none) :=
    ⟨.none, rfl⟩
  have edits : Edits (asRead 3 "7") (asRead 4 "8") := ⟨by decide, by decide, rfl⟩
  have effect : Overwrites (asRead 4 "8") contestedWritten contestedStored :=
    ⟨.inr (by decide +kernel), rfl, rfl⟩
  have wrote : contestedWritten ∈ (contestedVisit.run.flatMap Supervised.calls).filterMap
      fun call => (reconciler {}).written? call.request := by decide +kernel
  exact Scene.reachable_edited starts edits (Program.reaches_follow _ _) wrote effect

end Provisioning

namespace Catalog

def accepting : (q : Supervised.Request RevisionStore) → Supervised.Answer q
  | .cancelled => false
  | .plain r => surround r
  | .watched r => some (surround r)
where
  reply : (call : RevisionCall) → Outcome call.Answer
    | .getRevision _ => (.ok none : Outcome (Option Revision))
    | .listPlanRevisions _ => (.ok [] : Outcome (List Revision))
    | .getPlan _ => (.ok none : Outcome (Option Plan))
    | .countConsumers _ _ => (.ok 0 : Outcome Nat)
    | .patchStatus _ | .addFinalizer _ _ | .removeFinalizer _ _ | .deleteRevision _
    | .createPlan _ | .patchPlanRevisions _ | .patchPlanStatus _ _ => (.ok () : Outcome Unit)
  surround : (r : Surroundings.Request RevisionStore) → Surroundings.Answer r
    | .store call => reply call
    | .clock => (default : Instant)
    | .publish _ | .measure _ | .log _ | .wait _ => ()

def revisionOf (generation : Int) (version : Option String) : Revision :=
  { metadata :=
      { name := some "net-1.0.0"
        generation := some generation
        resourceVersion := version
        finalizers := some [cleanupFinalizer] }
    spec :=
      { planName := "net"
        version := "1.0.0"
        configuration := { module := "m", providerName := "aws" } } }

def revisionRun : List (Answered (Supervised RevisionStore)) :=
  (reconcile {} (revisionOf 1 none) .none).follow accepting

def revisionWrites : List Revision :=
  (revisionRun.flatMap Supervised.calls).filterMap fun call =>
    (reconciler {}).written? call.request

def revisionWritten : Revision := revisionWrites.getLastD (revisionOf 1 none)

def revisionStored : Revision := { revisionOf 2 (some "2") with status := revisionWritten.status }

theorem reachable_revision : ∃ running, Reachable (reconciler {}) (revisionOf 1 none)
    ⟨revisionStored, [revisionOf 2 (some "2"), revisionOf 1 none], running⟩ := by
  have starts : (reconciler {}).starts (revisionOf 1 none)
      (reconcile {} (revisionOf 1 none) .none) := ⟨.none, rfl⟩
  have edits : Edits (revisionOf 1 none) (revisionOf 2 (some "2")) := ⟨by decide, by decide, rfl⟩
  have effect : Overwrites (revisionOf 2 (some "2")) revisionWritten revisionStored :=
    ⟨.inl (by decide +kernel), rfl, rfl⟩
  have wrote : revisionWritten ∈ revisionWrites := by decide +kernel
  exact Scene.reachable_edited starts edits (Program.reaches_follow _ _) wrote effect

end Catalog

theorem generations_seen_edited :
    (∃ scene, Reachable (Provisioning.reconciler {}) (Provisioning.asRead 3 "7") scene ∧
      (Resource.generation scene.stored = 4 ∧
        Conditions.complete (Resource.conditions scene.stored) Configuration.planned 3 = true) ∧
      scene.NeverAhead) ∧
    ∃ scene, Reachable (Catalog.reconciler {}) (Catalog.revisionOf 1 none) scene ∧
      (Resource.generation scene.stored = 2 ∧
        Conditions.complete (Resource.conditions scene.stored) readyCondition 1 = true) ∧
      scene.NeverAhead := by
  constructor
  · obtain ⟨running, reachable⟩ := Provisioning.reachable_contested
    have planned : Conditions.complete (Resource.conditions Provisioning.contestedStored)
        Configuration.planned 3 = true := by decide +kernel
    exact ⟨_, reachable, ⟨rfl, planned⟩, (generations_seen {}).1 _ _ (by decide) rfl reachable⟩
  · obtain ⟨running, reachable⟩ := Catalog.reachable_revision
    have ready : Conditions.complete (Resource.conditions Catalog.revisionStored)
        readyCondition 1 = true := by decide +kernel
    exact ⟨_, reachable, ⟨rfl, ready⟩, (generations_seen {}).2 _ _ (by decide) rfl reachable⟩

end InfraOperator
