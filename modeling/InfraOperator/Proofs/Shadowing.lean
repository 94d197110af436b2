import InfraOperator.Proofs.Marks

/-!
# Conditions of one type

Nothing keeps a status from listing several conditions of one type. One check of completeness looks
at all of them and the other at the first, which is the only one that marks change: conditions
behind the first are in its shadow, and the checks part exactly where one of these is complete and
the first is not.
-/

set_option autoImplicit false

namespace InfraOperator

namespace Conditions

def shadowed (conditions : List Condition) (type : String) : List Condition :=
  (conditions.filter (·.type = type)).tail

section

variable {type : String} {conditions : List Condition} {generation : Int}

theorem shadowed_cons_of_ne {c : Condition} (rest : List Condition) (h : c.type ≠ type) :
    shadowed (c :: rest) type = shadowed rest type := by
  rw [shadowed, List.filter_cons_of_neg (by simpa using h), shadowed]

theorem shadowed_cons_of_eq {c : Condition} (rest : List Condition) (h : c.type = type) :
    shadowed (c :: rest) type = rest.filter (·.type = type) := by
  rw [shadowed, List.filter_cons_of_pos (by simpa using h), List.tail_cons]

/-- Some condition of the type is complete: the first, or one in its shadow. -/
theorem any_isComplete_eq :
    conditions.any (fun c => c.type = type && c.isComplete generation) =
      (complete conditions type generation ||
        (shadowed conditions type).any (·.isComplete generation)) := by
  induction conditions with
  | nil => rfl
  | cons c rest ih =>
    by_cases h : c.type = type
    · have first : complete (c :: rest) type generation = c.isComplete generation := by
        rw [complete, findCondition_cons_of_eq rest h]
      rw [first, shadowed_cons_of_eq rest h, List.any_cons, List.any_filter]
      simp [h]
    · have first : complete (c :: rest) type generation = complete rest type generation := by
        rw [complete, findCondition_cons_of_ne rest h, complete]
      rw [first, shadowed_cons_of_ne rest h, List.any_cons, ih]
      simp [h]

/-- A change of the first condition leaves its shadow as it is. -/
theorem shadowed_updateFirst {f : Condition → Condition}
    (keeps : ∀ c, c.type = type → (f c).type = type) :
    shadowed (updateFirst type f conditions) type = shadowed conditions type := by
  induction conditions with
  | nil => rfl
  | cons c rest ih =>
    by_cases h : c.type = type
    · rw [updateFirst, if_pos h, shadowed_cons_of_eq rest (keeps c h), shadowed_cons_of_eq rest h]
    · rw [updateFirst, if_neg h, shadowed_cons_of_ne _ h, shadowed_cons_of_ne _ h, ih]

theorem shadowed_put (c : Condition) :
    shadowed (put conditions c) c.type = shadowed conditions c.type := by
  by_cases h : conditions.any (·.type = c.type)
  · rw [put, if_pos h, shadowed_updateFirst fun _ _ => rfl]
  · have none : conditions.filter (·.type = c.type) = [] := by
      rw [List.filter_eq_nil_iff]
      intro x hx typed
      exact h (List.any_eq_true.2 ⟨x, hx, typed⟩)
    rw [put, if_neg h, shadowed, shadowed, List.filter_append, none,
      List.filter_cons_of_pos (by simp)]
    rfl

/-- There are no shadows just where no two conditions are of one type. -/
theorem shadowed_eq_nil_iff :
    (∀ type, shadowed conditions type = []) ↔ Distinct conditions := by
  induction conditions with
  | nil => exact ⟨fun _ => List.nodup_nil, fun _ _ => rfl⟩
  | cons c rest ih =>
    have split : Distinct (c :: rest) ↔
        rest.filter (·.type = c.type) = [] ∧ Distinct rest := by
      rw [Distinct, List.map_cons, List.nodup_cons, List.filter_eq_nil_iff]
      simp [Distinct]
    rw [split, ← ih]
    constructor
    · intro none
      have alone : rest.filter (·.type = c.type) = [] := by
        rw [← shadowed_cons_of_eq rest rfl, none]
      refine ⟨alone, fun type => ?_⟩
      by_cases h : c.type = type
      · rw [← h, shadowed, alone, List.tail_nil]
      · rw [← shadowed_cons_of_ne rest h, none]
    · rintro ⟨alone, none⟩ type
      by_cases h : c.type = type
      · subst h
        rw [shadowed_cons_of_eq rest rfl, alone]
      · rw [shadowed_cons_of_ne rest h, none]

end

end Conditions

namespace Cycle

open Conditions

variable {R X : Type} [Resource R] {c : Cycle R X} {type : String} {mark : Mark}
  {message : String} {now : Instant}

theorem hasComplete_eq : c.hasComplete type =
    (c.isComplete type || (shadowed c.conditions type).any (·.isComplete c.generation)) :=
  any_isComplete_eq

variable [LawfulResource R]

theorem shadowed_markAt :
    shadowed (c.markAt type mark message now).2.conditions type = shadowed c.conditions type := by
  rw [conditions_markAt]
  split
  · exact shadowed_updateFirst fun _ h => h
  · exact shadowed_put (Condition.marked type mark message c.generation now)

/-- The two checks agree exactly if the first condition is complete or none in its shadow is. A mark
makes the first complete or not, as it is one of success or not, and leaves the shadow as it was;
only where no type is listed twice is there none. -/
theorem checks_agree_iff (c : Cycle R X) (type : String) :
    (c.hasComplete type = c.isComplete type ↔
      (c.isComplete type = true ∨
        ∀ x ∈ shadowed c.conditions type, x.isComplete c.generation = false)) ∧
    (∀ mark message now,
      (c.markAt type mark message now).2.isComplete type = decide (mark = .success) ∧
      (c.markAt type mark message now).2.hasComplete type =
        (decide (mark = .success) ||
          (shadowed c.conditions type).any (·.isComplete c.generation))) ∧
    ((∀ other, shadowed c.conditions other = []) ↔ Distinct c.conditions) := by
  refine ⟨?_, fun mark message now => ⟨isComplete_markAt, ?_⟩, shadowed_eq_nil_iff⟩
  · rw [hasComplete_eq]
    cases c.isComplete type with
    | true => simp
    | false => simp
  · rw [hasComplete_eq, isComplete_markAt, shadowed_markAt, generation_markAt]

/-- A configuration whose plan failed, with an older success in the shadow of that. -/
def plannedTwice : Configuration where
  metadata := { name := some "bucket", generation := some 1 }
  spec := { module := "m", providerName := "aws" }
  status := some
    { conditions :=
        [⟨Configuration.planned, .false, .error, "plan failed", 1, .ofSeconds 1⟩,
          ⟨Configuration.planned, .true, .ready, "planned", 1, .ofSeconds 0⟩] }

/-- With its plan complete in the shadow only, the two checks disagree on it. -/
theorem checks_agree_iff_plannedTwice :
    let c : Cycle Configuration Unit := .start plannedTwice ()
    ¬ c.hasComplete Configuration.planned = c.isComplete Configuration.planned ∧
    ¬ Distinct c.conditions := by
  intro c
  obtain ⟨agree, -, distinct⟩ := checks_agree_iff c Configuration.planned
  have shadow : shadowed c.conditions Configuration.planned =
      [⟨Configuration.planned, .true, .ready, "planned", 1, .ofSeconds 0⟩] := by decide
  constructor
  · intro same
    rcases agree.1 same with complete | none
    · exact absurd complete (by decide)
    · exact absurd (none _ (shadow ▸ List.mem_singleton_self _)) (by decide)
  · intro once
    cases shadow.symm.trans (distinct.2 once Configuration.planned)

/-- One check finds its plan complete and the other does not, also after it is marked as failed. -/
theorem shadowed_success_counts :
    let c : Cycle Configuration Unit := .start plannedTwice ()
    let marked := (c.markAt Configuration.planned .failed "plan failed again" (.ofSeconds 2)).2
    (c.hasComplete Configuration.planned = true ∧ c.isComplete Configuration.planned = false) ∧
    marked.hasComplete Configuration.planned = true ∧
    marked.isComplete Configuration.planned = false := by
  decide +kernel

end Cycle

end InfraOperator
