import InfraOperator.Provisioning.Naming

/-!
# What filters select

The latest unit is one of those listed, and carries all that was asked of it.
-/

set_option autoImplicit false

namespace InfraOperator

theorem meets_some {α : Type} [DecidableEq α] {found : Option α} {demand : α} :
    meets found (some demand) = true ↔ found = some demand := by
  simp [meets]

namespace UnitFilter

theorem foldl_newer {best : Option Job} {jobs : List Job} {unit : Job}
    (h : jobs.foldl newer best = some unit) : best = some unit ∨ unit ∈ jobs := by
  induction jobs generalizing best with
  | nil => exact .inl h
  | cons job rest ih =>
    rw [List.foldl_cons] at h
    rcases ih h with h | h
    · unfold newer at h
      split at h
      · split at h
        · exact .inl h
        · obtain rfl : job = unit := Option.some.inj h
          exact .inr (List.mem_cons_self ..)
      · obtain rfl : job = unit := Option.some.inj h
        exact .inr (List.mem_cons_self ..)
    · exact .inr (List.mem_cons_of_mem _ h)

theorem mem_of_latest? {f : UnitFilter} {units : List Job} {unit : Job}
    (h : f.latest? units = some unit) : unit ∈ units ∧ f.accepts unit = true := by
  rcases foldl_newer h with h | h
  · cases h
  · exact List.mem_filter.1 h

theorem newer_ne_none (best : Option Job) (job : Job) : newer best job ≠ none := by
  unfold newer
  split
  · split <;> exact Option.some_ne_none _
  · exact Option.some_ne_none _

theorem foldl_newer_eq_none {best : Option Job} {jobs : List Job}
    (h : jobs.foldl newer best = none) : best = none ∧ jobs = [] := by
  induction jobs generalizing best with
  | nil => exact ⟨h, rfl⟩
  | cons job rest ih => exact absurd (ih h).1 (newer_ne_none best job)

/-- There is no latest unit only where nothing that was listed is accepted. -/
theorem accepts_eq_false_of_latest? {f : UnitFilter} {units : List Job}
    (h : f.latest? units = none) : ∀ unit ∈ units, f.accepts unit = false := by
  intro unit listed
  have nothing : f.select units = [] := (foldl_newer_eq_none h).2
  exact Bool.eq_false_iff.2 (List.filter_eq_nil_iff.1 nothing unit listed)

end UnitFilter

/-- By its namespace and its labels the unit runs the stage for the generation of the uid. -/
structure Job.ServesIn (unit : Job) (namespaceName uid : String) (stage : Stage)
    (generation : Int) : Prop where
  namespaceName_eq : unit.metadata.namespaceName = some namespaceName
  owner : unit.ownerUid? = some uid
  stage : unit.stage? = some stage
  generation : unit.generation? = some generation

theorem Configuration.servesIn_of_accepts {c : Configuration} {namespaceName uid : String}
    {stage : Stage} {unit : Job}
    (h : (c.unitFilter namespaceName uid stage).accepts unit = true) :
    unit.ServesIn namespaceName uid stage (Resource.generation c) := by
  simp only [UnitFilter.accepts, Configuration.unitFilter, Bool.and_eq_true, meets_some] at h
  obtain ⟨⟨⟨⟨⟨staged, numbered⟩, owned⟩, home⟩, -⟩, -⟩ := h
  exact ⟨home, owned, staged, numbered⟩

theorem Job.succeeded_of_complete {unit : Job} (h : unit.state = .complete) :
    0 < unit.succeededCount := by
  unfold Job.state at h
  split at h
  · rename_i complete
    simpa [Job.isComplete] using complete
  · split at h <;> cases h

end InfraOperator
