import InfraOperator.Cycle.Basic
import InfraOperator.Resource.Configuration
import InfraOperator.Resource.Revision

/-!
# What marks do to conditions

A mark speaks of the first condition of its type, or adds one at the end. Afterwards that condition
says what was marked, for the generation of the cycle, and the first conditions of all other types
are what they were. Conditions are made complete by a mark of success alone.
-/

set_option autoImplicit false

namespace InfraOperator

theorem Mark.eq_success_of_status {mark : Mark} (h : mark.status = .true) : mark = .success := by
  cases mark with
  | success => rfl
  | _ => cases h

/-- A resource keeps the conditions it is given, and they are no part of its metadata. -/
class LawfulResource (R : Type) [Resource R] : Prop where
  conditions_withConditions : ∀ (r : R) (cs : List Condition),
    Resource.conditions (Resource.withConditions r cs) = cs
  metadata_withConditions : ∀ (r : R) (cs : List Condition),
    Resource.metadata (Resource.withConditions r cs) = Resource.metadata r
  conditions_withMetadata : ∀ (r : R) (m : ObjectMeta),
    Resource.conditions (Resource.withMetadata r m) = Resource.conditions r

instance : LawfulResource Configuration where
  conditions_withConditions _ _ := rfl
  metadata_withConditions _ _ := rfl
  conditions_withMetadata _ _ := rfl

instance : LawfulResource Revision where
  conditions_withConditions _ _ := rfl
  metadata_withConditions _ _ := rfl
  conditions_withMetadata _ _ := rfl

theorem findCondition_cons_of_eq {type : String} {c : Condition} (rest : List Condition)
    (h : c.type = type) : findCondition (c :: rest) type = some c :=
  List.find?_cons_of_pos (by simpa using h)

theorem findCondition_cons_of_ne {type : String} {c : Condition} (rest : List Condition)
    (h : c.type ≠ type) : findCondition (c :: rest) type = findCondition rest type :=
  List.find?_cons_of_neg (by simpa using h)

theorem type_of_findCondition {type : String} {conditions : List Condition} {c : Condition}
    (h : findCondition conditions type = some c) : c.type = type := by
  simpa using List.find?_some h

namespace Conditions

def complete (conditions : List Condition) (type : String) (generation : Int) : Bool :=
  match findCondition conditions type with
  | some c => c.isComplete generation
  | none => false

theorem complete_iff {conditions : List Condition} {type : String} {generation : Int} :
    complete conditions type generation = true ↔
      ∃ x, findCondition conditions type = some x ∧ x.status = .true ∧
        x.observedGeneration = generation := by
  unfold complete
  cases findCondition conditions type with
  | none => simp
  | some x => simp [Condition.isComplete]

section

variable {type type' : String} {conditions : List Condition} {f : Condition → Condition}

theorem find_updateFirst (hf : ∀ c, c.type = type → (f c).type = type) :
    findCondition (updateFirst type f conditions) type =
      (findCondition conditions type).map f := by
  induction conditions with
  | nil => rfl
  | cons c rest ih =>
    by_cases h : c.type = type
    · rw [updateFirst, if_pos h, findCondition_cons_of_eq _ (hf c h),
        findCondition_cons_of_eq _ h, Option.map_some]
    · rw [updateFirst, if_neg h, findCondition_cons_of_ne _ h, findCondition_cons_of_ne _ h, ih]

theorem find_updateFirst_of_ne (hne : type' ≠ type)
    (hf : ∀ c, c.type = type → (f c).type = type) :
    findCondition (updateFirst type f conditions) type' = findCondition conditions type' := by
  induction conditions with
  | nil => rfl
  | cons c rest ih =>
    by_cases h : c.type = type
    · have hc : c.type ≠ type' := fun e => hne (e.symm.trans h)
      have hfc : (f c).type ≠ type' := fun e => hne (e.symm.trans (hf c h))
      rw [updateFirst, if_pos h, findCondition_cons_of_ne _ hfc, findCondition_cons_of_ne _ hc]
    · rw [updateFirst, if_neg h]
      by_cases h' : c.type = type'
      · rw [findCondition_cons_of_eq _ h', findCondition_cons_of_eq _ h']
      · rw [findCondition_cons_of_ne _ h', findCondition_cons_of_ne _ h', ih]

theorem mem_updateFirst {x : Condition} (h : x ∈ updateFirst type f conditions) :
    x ∈ conditions ∨ ∃ c, findCondition conditions type = some c ∧ x = f c := by
  induction conditions with
  | nil => exact .inl h
  | cons c rest ih =>
    by_cases hc : c.type = type
    · rw [updateFirst, if_pos hc] at h
      rcases List.mem_cons.1 h with rfl | h
      · exact .inr ⟨c, findCondition_cons_of_eq _ hc, rfl⟩
      · exact .inl (List.mem_cons_of_mem _ h)
    · rw [updateFirst, if_neg hc] at h
      rcases List.mem_cons.1 h with rfl | h
      · exact .inl (List.mem_cons_self ..)
      · rcases ih h with h | ⟨d, hd, rfl⟩
        · exact .inl (List.mem_cons_of_mem _ h)
        · exact .inr ⟨d, by rw [findCondition_cons_of_ne _ hc, hd], rfl⟩

theorem any_type_iff : conditions.any (·.type = type) ↔
    ∃ c, findCondition conditions type = some c := by
  rw [findCondition, ← Option.isSome_iff_exists, List.find?_isSome, List.any_eq_true]

theorem find_put (c : Condition) : findCondition (put conditions c) c.type = some c := by
  by_cases h : conditions.any (·.type = c.type)
  · obtain ⟨d, hd⟩ := any_type_iff.1 h
    rw [put, if_pos h, find_updateFirst fun _ _ => rfl, hd, Option.map_some]
  · have hn : findCondition conditions c.type = none := by
      rw [Option.eq_none_iff_forall_ne_some]
      intro d hd
      exact h (any_type_iff.2 ⟨d, hd⟩)
    rw [findCondition] at hn
    rw [put, if_neg h, findCondition, List.find?_append, hn, Option.none_or]
    exact findCondition_cons_of_eq [] rfl

theorem find_put_of_ne {c : Condition} (hne : type' ≠ c.type) :
    findCondition (put conditions c) type' = findCondition conditions type' := by
  by_cases h : conditions.any (·.type = c.type)
  · rw [put, if_pos h, find_updateFirst_of_ne hne fun _ _ => rfl]
  · rw [put, if_neg h, findCondition, List.find?_append]
    have hlast : findCondition [c] type' = none := findCondition_cons_of_ne [] hne.symm
    rw [findCondition] at hlast
    rw [hlast, Option.or_none, findCondition]

theorem types_updateFirst (hf : ∀ c, c.type = type → (f c).type = type) :
    (updateFirst type f conditions).map (·.type) = conditions.map (·.type) := by
  induction conditions with
  | nil => rfl
  | cons c rest ih =>
    by_cases h : c.type = type
    · rw [updateFirst, if_pos h, List.map_cons, List.map_cons, hf c h, h]
    · rw [updateFirst, if_neg h, List.map_cons, List.map_cons, ih]

theorem not_mem_types (h : ¬ conditions.any (·.type = type) = true) :
    type ∉ conditions.map (·.type) := by
  intro listed
  obtain ⟨c, hc, typed⟩ := List.mem_map.1 listed
  exact h (List.any_eq_true.2 ⟨c, hc, by simpa using typed⟩)

def Distinct (conditions : List Condition) : Prop := (conditions.map (·.type)).Nodup

theorem Distinct.append {c : Condition} (h : Distinct conditions)
    (new : ¬ conditions.any (·.type = c.type) = true) : Distinct (conditions ++ [c]) := by
  have absent : c.type ∉ conditions.map (·.type) := not_mem_types new
  rw [Distinct, List.map_append, List.nodup_append]
  refine ⟨h, List.nodup_cons.2 ⟨List.not_mem_nil, .nil⟩, fun a ha b hb same => absent ?_⟩
  obtain rfl : b = c.type := List.mem_singleton.1 hb
  rwa [← same]

theorem Distinct.put {c : Condition} (h : Distinct conditions) : Distinct (put conditions c) := by
  unfold Conditions.put
  split
  · rw [Distinct, types_updateFirst fun _ _ => rfl]
    exact h
  · rename_i new
    exact h.append new

theorem Distinct.confirm {generation : Int} (h : Distinct conditions) :
    Distinct (confirm conditions type generation) := by
  rw [Distinct, Conditions.confirm, types_updateFirst (by intro _ typed; exact typed)]
  exact h

theorem Distinct.find {x : Condition} (h : Distinct conditions) (hx : x ∈ conditions) :
    findCondition conditions x.type = some x := by
  induction conditions with
  | nil => cases hx
  | cons c rest ih =>
    obtain ⟨new, rest_distinct⟩ := List.nodup_cons.1 h
    rcases List.mem_cons.1 hx with rfl | hx
    · exact findCondition_cons_of_eq rest rfl
    · have other : c.type ≠ x.type := by
        intro same
        exact new (List.mem_map.2 ⟨x, hx, same.symm⟩)
      rw [findCondition_cons_of_ne rest other]
      exact ih rest_distinct hx

theorem mem_put {c x : Condition} (h : x ∈ put conditions c) : x ∈ conditions ∨ x = c := by
  unfold put at h
  split at h
  · rcases mem_updateFirst h with h | ⟨_, _, rfl⟩
    · exact .inl h
    · exact .inr rfl
  · simpa using h

/-! Registered types -/

variable {types : List String} {now : Instant}

theorem registerTypes_cons (type : String) (types : List String) (now : Instant)
    (conditions : List Condition) :
    registerTypes (type :: types) now conditions = registerTypes types now
      (if conditions.any (·.type = type) then conditions
        else conditions ++ [Condition.registered type now]) := rfl

theorem Distinct.register (h : Distinct conditions) :
    Distinct (registerTypes types now conditions) := by
  induction types generalizing conditions with
  | nil => exact h
  | cons type types ih =>
    rw [registerTypes_cons]
    split
    · exact ih h
    · rename_i new
      exact ih (h.append new)

theorem mem_registerTypes {x : Condition} (h : x ∈ registerTypes types now conditions) :
    x ∈ conditions ∨ x.status = .unknown := by
  induction types generalizing conditions with
  | nil => exact .inl h
  | cons type types ih =>
    rw [registerTypes_cons] at h
    split at h
    · exact ih h
    · rcases ih h with h | unknown
      · rcases List.mem_append.1 h with h | h
        · exact .inl h
        · obtain rfl : x = Condition.registered type now := List.mem_singleton.1 h
          exact .inr rfl
      · exact .inr unknown

theorem complete_append_of_unmet {c : Condition} (unmet : c.status ≠ .true) (generation : Int) :
    complete (conditions ++ [c]) type generation = complete conditions type generation := by
  unfold complete findCondition
  rw [List.find?_append]
  cases conditions.find? (·.type = type) with
  | some x => rfl
  | none =>
    by_cases h : c.type = type
    · simp [h, Condition.isComplete, unmet]
    · simp [h]

theorem complete_registerTypes (generation : Int) :
    complete (registerTypes types now conditions) type generation =
      complete conditions type generation := by
  induction types generalizing conditions with
  | nil => rfl
  | cons new types ih =>
    rw [registerTypes_cons, ih]
    split
    · rfl
    · have unknown : (Condition.registered new now).status ≠ .true := nofun
      exact complete_append_of_unmet unknown generation

end

structure Says (x : Condition) (type : String) (mark : Mark) (message : String)
    (generation : Int) : Prop where
  type_eq : x.type = type
  status_eq : x.status = mark.status
  reason_eq : x.reason = mark.reason
  message_eq : x.message = message
  generation_eq : x.observedGeneration = generation

end Conditions

namespace Cycle

open Conditions

variable {R X : Type} [Resource R] {c : Cycle R X} {type type' : String} {mark : Mark}
  {message : String} {now : Instant}

theorem isComplete_eq : c.isComplete type = complete c.conditions type c.generation := rfl

@[simp] theorem scratch_markAt : (c.markAt type mark message now).2.scratch = c.scratch := by
  unfold markAt
  split <;> rfl

theorem says_of_shows (h : shows c.conditions type mark message) :
    ∃ x, findCondition c.conditions type = some x ∧
      Says { x with observedGeneration := c.generation } type mark message c.generation := by
  unfold shows at h
  cases hx : findCondition c.conditions type with
  | none => simp [hx] at h
  | some x =>
    simp only [hx, Condition.shows, Bool.and_eq_true, decide_eq_true_eq] at h
    have typed : x.type = type := type_of_findCondition hx
    exact ⟨x, rfl, typed, h.1.1, h.1.2, h.2, rfl⟩

variable [LawfulResource R]

theorem conditions_withConditions (c : Cycle R X) (cs : List Condition) :
    (c.withConditions cs).conditions = cs :=
  LawfulResource.conditions_withConditions c.resource cs

theorem conditions_markAt : (c.markAt type mark message now).2.conditions =
    if shows c.conditions type mark message then
      Conditions.confirm c.conditions type c.generation
    else put c.conditions (Condition.marked type mark message c.generation now) := by
  unfold markAt
  split
  · exact conditions_withConditions c _
  · exact conditions_withConditions c _

@[simp] theorem metadata_markAt :
    Resource.metadata (c.markAt type mark message now).2.resource =
      Resource.metadata c.resource := by
  unfold markAt
  split
  · exact LawfulResource.metadata_withConditions c.resource _
  · exact LawfulResource.metadata_withConditions c.resource _

@[simp] theorem generation_markAt :
    (c.markAt type mark message now).2.generation = c.generation := by
  unfold generation Resource.generation
  rw [metadata_markAt]

/-- After a mark the first condition of its type says what was marked. -/
theorem find_markAt : ∃ x, findCondition (c.markAt type mark message now).2.conditions type =
    some x ∧ Says x type mark message c.generation := by
  rw [conditions_markAt]
  split
  · rename_i h
    obtain ⟨x, hx, said⟩ := says_of_shows h
    refine ⟨_, ?_, said⟩
    rw [Conditions.confirm, find_updateFirst (by intro _ h; exact h), hx, Option.map_some]
  · exact ⟨_, find_put (Condition.marked type mark message c.generation now),
      rfl, rfl, rfl, rfl, rfl⟩

theorem find_markAt_of_ne (hne : type' ≠ type) :
    findCondition (c.markAt type mark message now).2.conditions type' =
      findCondition c.conditions type' := by
  rw [conditions_markAt]
  split
  · exact find_updateFirst_of_ne hne fun _ h => h
  · exact find_put_of_ne hne

theorem mem_conditions_markAt {x : Condition}
    (h : x ∈ (c.markAt type mark message now).2.conditions) :
    x ∈ c.conditions ∨ Says x type mark message c.generation := by
  rw [conditions_markAt] at h
  split at h
  · rename_i shown
    rcases mem_updateFirst h with h | ⟨y, hy, rfl⟩
    · exact .inl h
    · obtain ⟨z, hz, said⟩ := says_of_shows shown
      obtain rfl : y = z := Option.some.inj (hy.symm.trans hz)
      exact .inr said
  · rcases mem_put h with h | rfl
    · exact .inl h
    · exact .inr ⟨rfl, rfl, rfl, rfl, rfl⟩

theorem distinct_markAt (h : Distinct c.conditions) :
    Distinct (c.markAt type mark message now).2.conditions := by
  rw [conditions_markAt]
  split
  · exact h.confirm
  · exact h.put

theorem complete_markAt (generation : Int) :
    complete (c.markAt type mark message now).2.conditions type generation =
      (decide (mark = .success) && decide (c.generation = generation)) := by
  obtain ⟨x, hx, said⟩ : ∃ x, findCondition (c.markAt type mark message now).2.conditions type =
    some x ∧ Says x type mark message c.generation := find_markAt
  rw [complete, hx]
  simp only [Condition.isComplete, said.status_eq, said.generation_eq]
  cases mark <;> rfl

theorem complete_markAt_of_ne (hne : type' ≠ type) (generation : Int) :
    complete (c.markAt type mark message now).2.conditions type' generation =
      complete c.conditions type' generation := by
  rw [complete, find_markAt_of_ne hne, complete]

/-- Only a mark of success completes a condition. -/
@[simp] theorem isComplete_markAt :
    (c.markAt type mark message now).2.isComplete type = decide (mark = .success) := by
  rw [isComplete_eq, complete_markAt, generation_markAt]
  simp

theorem isComplete_markAt_of_ne (hne : type' ≠ type) :
    (c.markAt type mark message now).2.isComplete type' = c.isComplete type' := by
  rw [isComplete_eq, complete_markAt_of_ne hne, generation_markAt, isComplete_eq]

/-- What is complete stays so, unless it is marked otherwise. -/
theorem isComplete_markAt_of_isComplete (completed : c.isComplete type' = true)
    (succeeded : type' = type → mark = .success) :
    (c.markAt type mark message now).2.isComplete type' = true := by
  by_cases same : type' = type
  · subst same
    rw [isComplete_markAt, succeeded rfl]
    rfl
  · rw [isComplete_markAt_of_ne same]
    exact completed

end Cycle

end InfraOperator
