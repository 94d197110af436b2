import InfraOperator.Proofs.Transitions

/-!
# What has been done to a cycle

Whatever else becomes of a cycle in the hands of its steps, what they do to its conditions and its
events are deeds in a row. So the conditions in which the steps end are known from those the object
was read with: a type that no deed marks is as it was.
-/

set_option autoImplicit false

namespace InfraOperator

variable {R X : Type} [Resource R]

namespace Cycle

variable {c c' c'' : Cycle R X} {d : Deed} {ds : List Deed} {type message : String} {m : Mark}
  {now : Instant}

theorem types_subset_performAll [LawfulResource R] (c : Cycle R X) (ds : List Deed) :
    c.types ⊆ (c.performAll ds).types := by
  rw [types_performAll]
  exact List.subset_append_left ..

theorem mem_types_of_marks [LawfulResource R] (done : d ∈ ds) (marks : d.Marks type) :
    type ∈ (c.performAll ds).types := by
  obtain ⟨pre, post, rfl⟩ := List.append_of_mem done
  rw [performAll_append, performAll]
  apply types_subset_performAll
  cases d with
  | mark marked m message detail now =>
    obtain rfl : marked = type := marks
    obtain ⟨x, found, -⟩ : ∃ x, findCondition ((c.performAll pre).markAt marked m
        (m.text message detail) now).2.conditions marked = some x ∧
        Conditions.Says x marked m (m.text message detail) (c.performAll pre).generation :=
      find_markAt
    exact any_type_eq_mem.1 (Conditions.any_type_iff.2 ⟨x, found⟩)
  | register | regenerate => exact marks.elim

/-- These deeds have been done to the conditions and the events, and none to the metadata. -/
structure Did (c : Cycle R X) (ds : List Deed) (c' : Cycle R X) : Prop where
  conditions_eq : c'.conditions = (c.performAll ds).conditions
  events_eq : c'.events = (c.performAll ds).events
  metadata_eq : Resource.metadata c'.resource = Resource.metadata c.resource
  kept : ∀ d ∈ ds, d.time? ≠ none

theorem did_nil (c : Cycle R X) : c.Did [] c := ⟨rfl, rfl, rfl, nofun⟩

theorem Did.congr (h : c.Did ds c') (conditions : c''.conditions = c'.conditions)
    (events : c''.events = c'.events)
    (metadata : Resource.metadata c''.resource = Resource.metadata c'.resource) :
    c.Did ds c'' :=
  ⟨conditions.trans h.conditions_eq, events.trans h.events_eq, metadata.trans h.metadata_eq, h.kept⟩

variable [LawfulResource R]

/-- Only that the object is of another generation is a deed to the metadata. -/
theorem metadata_perform (kept : d.time? ≠ none) :
    Resource.metadata (c.perform d).resource = Resource.metadata c.resource := by
  cases d with
  | mark => exact metadata_markAt
  | register types now => exact LawfulResource.metadata_withConditions c.resource _
  | regenerate => exact absurd rfl kept

theorem metadata_performAll (kept : ∀ d ∈ ds, d.time? ≠ none) :
    Resource.metadata (c.performAll ds).resource = Resource.metadata c.resource := by
  induction ds generalizing c with
  | nil => rfl
  | cons d ds ih =>
    obtain ⟨first, later⟩ := List.forall_mem_cons.1 kept
    exact (ih later).trans (metadata_perform first)

theorem conditions_perform_congr (conditions : c.conditions = c'.conditions)
    (generation : c.generation = c'.generation) :
    (c.perform d).conditions = (c'.perform d).conditions := by
  cases d with
  | mark => rw [perform, perform, conditions_markAt, conditions_markAt, conditions, generation]
  | register => rw [perform, perform, conditions_register, conditions_register, conditions]
  | regenerate =>
    rw [perform, perform, conditions_atGeneration, conditions_atGeneration, conditions]

omit [LawfulResource R] in
theorem events_perform_congr (conditions : c.conditions = c'.conditions)
    (events : c.events = c'.events) : (c.perform d).events = (c'.perform d).events := by
  cases d with
  | mark => rw [perform, perform, events_markAt, events_markAt, transition, transition, conditions,
      events]
  | register => exact events
  | regenerate => exact events

theorem Did.perform (h : c.Did ds c') (kept : d.time? ≠ none) :
    c.Did (ds ++ [d]) (c'.perform d) := by
  have generation : c'.generation = (c.performAll ds).generation := by
    unfold Cycle.generation Resource.generation
    rw [h.metadata_eq, metadata_performAll h.kept]
  have after : c.performAll (ds ++ [d]) = (c.performAll ds).perform d := performAll_append c ds [d]
  constructor
  · rw [after]
    exact conditions_perform_congr h.conditions_eq generation
  · rw [after]
    exact events_perform_congr h.conditions_eq h.events_eq
  · exact (metadata_perform kept).trans h.metadata_eq
  · intro e done
    rcases List.mem_append.1 done with done | done
    · exact h.kept e done
    · rw [List.mem_singleton.1 done]
      exact kept

theorem Did.marked (h : c.Did ds c') (type : String) (m : Mark) (message : String)
    (now : Instant) : ∃ ds, c.Did ds (c'.markAt type m message now).2 := by
  have text : m.text message none = message := by cases m <;> rfl
  have did := h.perform (d := .mark type m message none now) nofun
  rw [Cycle.perform, text] at did
  exact ⟨_, did⟩

theorem Did.registered (h : c.Did ds c') (types : List String) (now : Instant) :
    ∃ ds, c.Did ds (c'.register types now) := ⟨_, h.perform (d := .register types now) nofun⟩

theorem Did.find_of_unmarked (h : c.Did ds c') (unmarked : ∀ d ∈ ds, ¬ d.Marks type)
    {x : Condition} (found : findCondition c.conditions type = some x) :
    findCondition c'.conditions type = some x := by
  rw [h.conditions_eq]
  exact find_performAll_of_unmarked unmarked found

/-- What is not listed has not been marked. -/
theorem Did.unmarked (h : c.Did ds c') (absent : findCondition c'.conditions type = none) :
    ∀ d ∈ ds, ¬ d.Marks type := by
  intro d done marks
  have listed : type ∈ c'.types := by
    rw [types, h.conditions_eq]
    exact mem_types_of_marks done marks
  obtain ⟨x, found⟩ := Conditions.any_type_iff.1 (any_type_eq_mem.2 listed)
  rw [absent] at found
  cases found

end Cycle

end InfraOperator
