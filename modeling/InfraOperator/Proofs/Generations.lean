import InfraOperator.Proofs.Marks

/-!
# Generations that conditions speak of

A mark is stamped with the generation of the object as its cycle has read it, and what a cycle only
registers or confirms is for no later one.
-/

set_option autoImplicit false

namespace InfraOperator

namespace Conditions

def UpTo (generation : Int) (conditions : List Condition) : Prop :=
  ∀ x ∈ conditions, x.observedGeneration ≤ generation

variable {generation later : Int} {conditions : List Condition}

theorem upTo_nil : UpTo generation [] := fun _ hx => absurd hx List.not_mem_nil

theorem UpTo.mono (h : UpTo generation conditions) (le : generation ≤ later) :
    UpTo later conditions :=
  fun x hx => Int.le_trans (h x hx) le

theorem UpTo.register (h : UpTo generation conditions) (counted : 0 ≤ generation)
    (types : List String) (now : Instant) :
    UpTo generation (registerTypes types now conditions) := by
  induction types generalizing conditions with
  | nil => exact h
  | cons type types ih =>
    rw [registerTypes_cons]
    split
    · exact ih h
    · refine ih fun x hx => ?_
      rcases List.mem_append.1 hx with hx | hx
      · exact h x hx
      · obtain rfl := List.mem_singleton.1 hx
        exact counted

/-- Where no condition speaks of the generation yet, none is complete for it. -/
theorem UpTo.incomplete (h : UpTo generation conditions) (lt : generation < later) {x : Condition}
    (hx : x ∈ conditions) : x.isComplete later = false := by
  have earlier : x.observedGeneration ≠ later := by
    have observed := h x hx
    omega
  simp [Condition.isComplete, earlier]

end Conditions

open Conditions (UpTo)

/-- A cycle over an object of that generation, which speaks of no later one. -/
structure Cycle.Dated {R X : Type} [Resource R] (generation : Int) (c : Cycle R X) : Prop where
  generation_eq : c.generation = generation
  upTo : UpTo generation c.conditions

section Cycle

variable {R X : Type} [Resource R] {generation : Int} {c c' : Cycle R X}

theorem Cycle.Dated.congr (h : c.Dated generation)
    (metadata : Resource.metadata c'.resource = Resource.metadata c.resource)
    (conditions : c'.conditions = c.conditions) : c'.Dated generation where
  generation_eq := (congrArg ObjectMeta.generationOrZero metadata).trans h.generation_eq
  upTo := by
    rw [conditions]
    exact h.upTo

theorem Cycle.dated_start {r : R} (upTo : UpTo (Resource.generation r) (Resource.conditions r))
    (scratch : X) : (Cycle.start r scratch).Dated (Resource.generation r) :=
  ⟨rfl, upTo⟩

variable [LawfulResource R]

theorem Cycle.Dated.markAt (h : c.Dated generation) (type : String) (mark : Mark)
    (message : String) (now : Instant) : (c.markAt type mark message now).2.Dated generation where
  generation_eq := Cycle.generation_markAt.trans h.generation_eq
  upTo x hx := by
    rcases Cycle.mem_conditions_markAt hx with hx | said
    · exact h.upTo x hx
    · exact Int.le_of_eq (said.generation_eq.trans h.generation_eq)

theorem Cycle.Dated.register (h : c.Dated generation) (counted : 0 ≤ generation)
    (types : List String) (now : Instant) : (c.register types now).Dated generation where
  generation_eq := by
    rw [← h.generation_eq]
    exact congrArg ObjectMeta.generationOrZero (LawfulResource.metadata_withConditions c.resource _)
  upTo := by
    rw [Cycle.conditions, Cycle.register, Resource.registerConditions,
      LawfulResource.conditions_withConditions]
    exact h.upTo.register counted types now

end Cycle

end InfraOperator
