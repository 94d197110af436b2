import InfraOperator.Proofs.Catalog.Expiration
import InfraOperator.Proofs.Settling

/-!
# What the expiration deletes

However a cycle of the expiration is answered, and wherever it is broken off, it asks to delete
nothing but its own revision, and only after a listing in which that is behind. A history of the
stored revisions is made of such cycles, of deletions that users ask for, and of finalizers that are
released.
-/

set_option autoImplicit false

namespace InfraOperator.Catalog

open Pipeline (Keeps observeSteps keeps_cons_of_any_end safe_runSteps)
open Supervised (Within)

abbrev CatalogCalls := List (StoreCall RevisionStore)

def listed (plan : String) (siblings : List Revision) : StoreCall RevisionStore :=
  ⟨.listPlanRevisions plan, some (.ok siblings)⟩

/-- Nothing is deleted but the revision, if it is not being deleted yet and was found behind. -/
def Judged (r : Revision) (past : CatalogCalls) (q : Surroundings.Request RevisionStore) : Prop :=
  ∀ name, q = .store (.deleteRevision name) → name = r.name ∧ r.metadata.isDeleting = false ∧
    ∃ siblings, listed r.spec.planName siblings ∈ past ∧ IsBehind r siblings

theorem judged_of_ne {r : Revision} {past : CatalogCalls}
    {q : Surroundings.Request RevisionStore} (h : ∀ name, q ≠ .store (.deleteRevision name)) :
    Judged r past q := fun name deletes => absurd deletes (h name)

section Steps

variable {c : ExpiryCycle}

theorem does_checkExpiryAge {maxAge : Span} :
    (checkExpiryAge maxAge).run.Does c (Staged.From c fun _ _ => False)
      (fun own _ c' => own = [] ∧ c' = c) [] := by
  simp only [checkExpiryAge, Staged.does_bind, Staged.does_get]
  split
  · exact ⟨rfl, rfl⟩
  · simp only [Staged.does_bind, Staged.does_clock]
    intro now
    split <;> exact ⟨rfl, rfl⟩

theorem does_checkSiblings :
    checkSiblings.run.Does c
      (Staged.From c fun _ q => q = .store (.listPlanRevisions c.resource.spec.planName))
      (fun own verdict c' => verdict.ending? = none → ∃ siblings,
        own = [listed c.resource.spec.planName siblings] ∧
        c' = { c with scratch := { siblings } }) [] := by
  simp only [checkSiblings, Staged.does_bind, Staged.does_get]
  refine Staged.does_call.2 ⟨⟨rfl, rfl⟩, fun answer => ?_⟩
  cases answer with
  | error e =>
    intro go
    cases go
  | ok siblings =>
    simp only
    split
    · simp only [Staged.does_bind, Staged.does_log]
      intro go
      cases go
    · simp only [Staged.does_bind, Staged.does_modify]
      exact fun _ => ⟨siblings, rfl, rfl⟩

theorem does_checkNotLatest :
    checkNotLatest.run.Does c (Staged.From c fun _ _ => False)
      (fun own verdict c' => own = [] ∧ c' = c ∧
        (verdict.ending? = none → IsBehind c.resource c.scratch.siblings)) [] := by
  simp only [checkNotLatest, Staged.does_bind, Staged.does_get]
  split
  · refine ⟨rfl, rfl, fun go => ?_⟩
    cases go
  · next own versioned =>
    split
    · next exceeded => exact ⟨rfl, rfl, fun _ => (isBehind_iff versioned).2 exceeded⟩
    · refine ⟨rfl, rfl, fun go => ?_⟩
      cases go

theorem does_checkNotInUse :
    checkNotInUse.run.Does c
      (Staged.From c fun _ q =>
        q = .store (.countConsumers c.resource.spec.planName c.resource.spec.version))
      (fun _ _ c' => c' = c) [] := by
  simp only [checkNotInUse, Staged.does_bind, Staged.does_get]
  refine Staged.does_call.2 ⟨⟨rfl, rfl⟩, fun answer => ?_⟩
  cases answer with
  | error e => exact rfl
  | ok count =>
    simp only
    split
    · exact rfl
    · simp only [Staged.does_bind, Staged.does_log]
      exact rfl

theorem does_deleteExpired :
    deleteExpired.run.Does c
      (Staged.From c fun _ q => q = .store (.deleteRevision c.resource.name) ∨
        ∃ notice, q = .publish notice) (fun _ _ _ => True) [] := by
  simp only [deleteExpired, Staged.does_bind, Staged.does_get]
  refine Staged.does_call.2 ⟨⟨rfl, .inl rfl⟩, fun (answer : Outcome Unit) => ?_⟩
  cases answer with
  | error e => trivial
  | ok value =>
    simp only [Staged.does_bind, Staged.does_log, Staged.does_measure, Staged.does_publish]
    exact ⟨⟨rfl, .inr ⟨_, rfl⟩⟩, trivial⟩

end Steps

section Cycles

variable {r : Revision} {c : ExpiryCycle}

theorem keeps_expirationSteps {name : String} {maxAge : Span}
    (live : c.resource.metadata.isDeleting = false) :
    Keeps (fun past _ q => Judged c.resource past q) (fun _ _ _ => True)
      (observeSteps name (expirationSteps maxAge) c) [] := by
  refine keeps_cons_of_any_end does_checkExpiryAge (fun _ _ => False.elim) ?_
  rintro _ _ _ ⟨rfl, rfl⟩ -
  refine keeps_cons_of_any_end does_checkSiblings ?_ fun own verdict c' ends go => ?_
  · rintro own _ rfl
    exact judged_of_ne nofun
  obtain ⟨siblings, rfl, rfl⟩ := ends go
  refine keeps_cons_of_any_end does_checkNotLatest (fun _ _ => False.elim) ?_
  rintro _ _ _ ⟨rfl, rfl, behind⟩ go
  refine keeps_cons_of_any_end does_checkNotInUse ?_ ?_
  · rintro own _ rfl
    exact judged_of_ne nofun
  rintro own _ _ rfl -
  refine keeps_cons_of_any_end does_deleteExpired ?_ fun _ _ _ _ _ => trivial
  rintro own' _ (rfl | ⟨notice, rfl⟩)
  · intro name deletes
    cases deletes
    exact ⟨rfl, live, siblings, by simp, behind go⟩
  · exact judged_of_ne nofun

theorem safe_reconcileExpiration (settings : Settings) (r : Revision) :
    (reconcileExpiration settings r).Safe Supervised.calls (fun past => Within (Judged r past))
      (fun _ _ => True) [] := by
  unfold reconcileExpiration
  split
  · trivial
  · next maxAge _ =>
    split
    · trivial
    · next on =>
      have live : r.metadata.isDeleting = false := Bool.eq_false_iff.2 (not_or.1 on).2
      obtain ⟨p, built, steps⟩ := build_expirationSteps maxAge
      simp only [built]
      refine (Program.safe_bind ..).2 ?_
      unfold Pipeline.run
      rw [steps]
      refine (safe_runSteps (keeps_expirationSteps (c := Cycle.start r {}) live) ?_).mono
        (fun _ _ h => h) ?_
      · intro past q prompt
        apply judged_of_ne
        rintro name rfl
        cases prompt
      · rintro past ⟨result, c'⟩ -
        cases result <;> trivial

theorem asks_of_deletes {e : Answered (Supervised RevisionStore)} {name : String}
    {answer : Outcome Unit} (h : Deed.deletes name answer ∈ deeds e) :
    e.request = .plain (.store (.deleteRevision name)) ∨
      e.request = .watched (.store (.deleteRevision name)) := by
  unfold deeds at h
  split at h
  · cases List.mem_singleton.1 h
    exact .inl rfl
  · cases List.mem_singleton.1 h
    exact .inr rfl
  · cases List.mem_singleton.1 h
  · cases List.mem_singleton.1 h
  · cases h

/-- However a cycle is answered, and wherever it is broken off: what is to be deleted is its
revision, which is not being deleted yet and was found behind in a listing of its plan. -/
theorem judged_of_deletes {settings : Settings} {run : List (Answered (Supervised RevisionStore))}
    {rest : Program (Supervised RevisionStore) (Outcome Action)}
    (reached : (reconcileExpiration settings r).Reaches run rest) {name : String}
    {answer : Outcome Unit} (deletes : Deed.deletes name answer ∈ run.flatMap deeds) :
    name = r.name ∧ r.metadata.isDeleting = false ∧ ∃ siblings,
      listed r.spec.planName siblings ∈ run.flatMap Supervised.calls ∧ IsBehind r siblings := by
  obtain ⟨e, he, shown⟩ := List.mem_flatMap.1 deletes
  obtain ⟨pre, post, parts⟩ := List.append_of_mem he
  have asked := (safe_reconcileExpiration settings r).asked reached parts
  -- Under the token or outside of its reach: it is the same call that is judged.
  have judged : Judged r (pre.flatMap Supervised.calls) (.store (.deleteRevision name)) := by
    rcases asks_of_deletes shown with asks | asks
    all_goals
      rw [asks] at asked
      exact asked
  obtain ⟨same, live, siblings, before, behind⟩ := judged name rfl
  refine ⟨same, live, siblings, ?_, behind⟩
  rw [parts, List.flatMap_append]
  exact List.mem_append_left _ before

end Cycles

end InfraOperator.Catalog
