import InfraOperator.Proofs.Catalog.Joining
import InfraOperator.Proofs.Catalog.Survival
import InfraOperator.Proofs.Latest

/-!
# The latest entry and the expiration

A plan finds its latest revision among its entries, the expiration looks for a greater version among
the revisions it is told of. Where these are the same revisions, what the expiration lets pass are
those below the latest entry, and so the latest revision stays.
-/

set_option autoImplicit false

namespace InfraOperator.Catalog

open PlanEntry (latest?)

def EntriesOf (siblings : List Revision) (entries : List PlanEntry) : Prop :=
  ∀ e, e ∈ entries ↔ ∃ s ∈ siblings, entryOf s = e

def BelowLatest (own : Version) (entries : List PlanEntry) : Prop :=
  ∃ latest v, latest? entries = some latest ∧ latest.version? = some v ∧ compare own v = .lt

variable {entries : List PlanEntry} {siblings : List Revision} {own : Version} {r : Revision}

theorem belowLatest_iff : BelowLatest own entries ↔
    ∃ top, Version.IsGreatest top (PlanEntry.versions entries) ∧ compare own top = .lt := by
  constructor
  · rintro ⟨latest, v, found, versioned, below⟩
    exact ⟨v, PlanEntry.latestVersion?_eq_some_iff.1 (by rw [found]; exact versioned), below⟩
  · rintro ⟨top, greatest, below⟩
    obtain ⟨latest, found, versioned⟩ :=
      Option.bind_eq_some_iff.1 (PlanEntry.latestVersion?_eq_some_iff.2 greatest)
    exact ⟨latest, top, found, versioned, below⟩

/-- Entries and revisions have the same versions. -/
theorem EntriesOf.mem_versions (h : EntriesOf siblings entries) (v : Version) :
    v ∈ PlanEntry.versions entries ↔ v ∈ siblings.filterMap Revision.version? := by
  rw [PlanEntry.mem_versions, List.mem_filterMap]
  constructor
  · rintro ⟨e, mem, versioned⟩
    obtain ⟨s, hs, rfl⟩ := (h e).1 mem
    exact ⟨s, hs, versioned⟩
  · rintro ⟨s, hs, versioned⟩
    exact ⟨entryOf s, (h _).2 ⟨s, hs, rfl⟩, versioned⟩

theorem EntriesOf.isExceeded_iff (h : EntriesOf siblings entries) :
    isExceeded own (siblings.filterMap Revision.version?) = true ↔ BelowLatest own entries := by
  rw [belowLatest_iff, Catalog.isExceeded_iff]
  refine exists_congr fun top => and_congr_left fun _ => ⟨fun greatest => ?_, fun greatest => ?_⟩
  · exact greatest.congr fun v => (h.mem_versions v).symm
  · exact greatest.congr h.mem_versions

/-- The check lets a revision pass exactly if it is below the latest entry. -/
theorem run_checkNotLatest {c : ExpiryCycle} (h : EntriesOf c.scratch.siblings entries)
    (versioned : c.resource.version? = some own) : ∃ verdict,
    checkNotLatest.run.run c = .done (verdict, c) ∧
      (verdict = .proceed ↔ BelowLatest own entries) ∧
      (verdict = .pause ↔ ¬ BelowLatest own entries) := by
  have ran : checkNotLatest.run.run c = .done
      (if isExceeded own (c.scratch.siblings.filterMap Revision.version?) then .proceed
        else .pause, c) := by
    simp only [checkNotLatest, StateT.run_bind, StateT.run_get, pure_bind, versioned]
    split <;> rfl
  refine ⟨_, ran, ?_⟩
  rw [← h.isExceeded_iff]
  split
  · next exceeded =>
    exact ⟨iff_of_true rfl exceeded, iff_of_false (by decide) (not_not_intro exceeded)⟩
  · next latest => exact ⟨iff_of_false (by decide) latest, iff_of_true rfl latest⟩

theorem not_isBehind_of_latest (h : EntriesOf siblings entries)
    (latest : latest? entries = some (entryOf r)) : ¬ IsBehind r siblings := by
  rintro behind
  obtain ⟨own, -, versioned, -⟩ := id behind
  obtain ⟨e, v, found, named, below⟩ :=
    h.isExceeded_iff.1 ((isBehind_iff versioned).1 behind)
  cases found.symm.trans latest
  cases named.symm.trans versioned
  rw [Std.ReflOrd.compare_self] at below
  cases below

/-- However a cycle is answered, it does not delete the latest revision, provided that what is
listed are the revisions of the entries. -/
theorem not_deletes_of_latest {settings : Settings}
    {run : List (Answered (Supervised RevisionStore))}
    {rest : Program (Supervised RevisionStore) (Outcome Action)}
    (reached : (reconcileExpiration settings r).Reaches run rest)
    (truthful : ∀ siblings, listed r.spec.planName siblings ∈ run.flatMap Supervised.calls →
      EntriesOf siblings entries)
    (latest : latest? entries = some (entryOf r)) (name : String) (answer : Outcome Unit) :
    .deletes name answer ∉ run.flatMap deeds := by
  intro deletes
  obtain ⟨-, -, siblings, shown, behind⟩ := judged_of_deletes reached deletes
  exact not_isBehind_of_latest (truthful siblings shown) latest behind

/-- Of any entries there is a latest one exactly if one of them has a version, and it is the last of
those with the greatest version; in another order the latest entry has the same version. Where the
entries are those of the revisions that are listed, a revision is let pass exactly if it is below
the latest entry, and however a cycle is answered, it does not delete the revision that is the
latest entry. -/
theorem latest_entry_exact (entries : List PlanEntry) :
    ((latest? entries).isSome = true ↔ ∃ e ∈ entries, e.version?.isSome = true) ∧
    (∀ e, latest? entries = some e ↔ PlanEntry.IsLatest e entries) ∧
    (∀ entries', entries'.Perm entries →
      (latest? entries').bind PlanEntry.version? = (latest? entries).bind PlanEntry.version?) ∧
    (∀ (c : ExpiryCycle) own, EntriesOf c.scratch.siblings entries →
      c.resource.version? = some own → ∃ verdict,
        checkNotLatest.run.run c = .done (verdict, c) ∧
          (verdict = .proceed ↔ BelowLatest own entries) ∧
          (verdict = .pause ↔ ¬ BelowLatest own entries)) ∧
    ∀ settings r run rest, (reconcileExpiration settings r).Reaches run rest →
      (∀ siblings, listed r.spec.planName siblings ∈ run.flatMap Supervised.calls →
        EntriesOf siblings entries) →
      latest? entries = some (entryOf r) →
      ∀ name answer, .deletes name answer ∉ run.flatMap deeds := by
  refine ⟨PlanEntry.latest?_isSome_iff, fun e => PlanEntry.latest?_eq_some_iff,
    fun entries' same => PlanEntry.latestVersion?_perm same,
    fun c own of versioned => run_checkNotLatest of versioned,
    fun settings r run rest reached truthful latest => ?_⟩
  exact not_deletes_of_latest reached truthful latest

theorem entriesOf_lower_upper : EntriesOf [lower, upper] [entryOf upper, entryOf lower] := by
  intro e
  simp [eq_comm, or_comm]

/-- With the entries in the other order, the lower revision is let pass and deleted, and the one
that is the latest is neither. -/
theorem latest_entry_exact_twoVersions :
    latest? [entryOf upper, entryOf lower] = some (entryOf upper) ∧
    (∃ verdict, checkNotLatest.run.run (Cycle.start lower ⟨[lower, upper]⟩) =
      .done (verdict, Cycle.start lower ⟨[lower, upper]⟩) ∧ verdict = .proceed) ∧
    (∃ verdict, checkNotLatest.run.run (Cycle.start upper ⟨[lower, upper]⟩) =
      .done (verdict, Cycle.start upper ⟨[lower, upper]⟩) ∧ verdict = .pause) ∧
    ∀ name answer, .deletes name answer ∉ (cycleOf upper [lower, upper]).flatMap deeds := by
  obtain ⟨-, -, -, checks, spares⟩ := latest_entry_exact [entryOf upper, entryOf lower]
  have latest : latest? [entryOf upper, entryOf lower] = some (entryOf upper) := by decide +kernel
  have named : (entryOf upper).version? = some ⟨2, 0, 0, [], []⟩ := by decide +kernel
  obtain ⟨passes, ran, proceeds, -⟩ :=
    checks (Cycle.start lower ⟨[lower, upper]⟩) _ entriesOf_lower_upper version?_lower
  obtain ⟨stays, ran', -, pauses⟩ :=
    checks (Cycle.start upper ⟨[lower, upper]⟩) _ entriesOf_lower_upper version?_upper
  obtain ⟨outcome, reached⟩ := reaches_cycleOf upper [lower, upper]
  refine ⟨latest, ⟨passes, ran, proceeds.2 ⟨_, _, latest, named, by decide⟩⟩,
    ⟨stays, ran', pauses.2 ?_⟩, spares weekly upper _ _ reached ?_ latest⟩
  · rintro ⟨e, v, found, versioned, below⟩
    cases found.symm.trans latest
    cases versioned.symm.trans named
    exact absurd below (by decide)
  · intro siblings shown
    rw [fresh_standing _ _ _ shown]
    exact entriesOf_lower_upper

end InfraOperator.Catalog
