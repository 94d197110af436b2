import InfraOperator.Proofs.Execution
import InfraOperator.Proofs.Marks

/-!
# Marks in a row

Through a cycle conditions are marked, and missing ones registered, any number of times and for any
generations. The order of the conditions never changes, what a type says is what its last mark
said, the time on a condition is that of the last change of what it says, and the events are those
changes in order. What is a change is judged by looking at the conditions before and after.
-/

set_option autoImplicit false

namespace InfraOperator

open Conditions (Distinct Says registerTypes_cons)

/-- What a condition says, whichever generation it says it of and since when. -/
structure Saying where
  status : ConditionStatus
  reason : ConditionReason
  message : String
  deriving DecidableEq

def Condition.saying (x : Condition) : Saying := ⟨x.status, x.reason, x.message⟩

namespace Mark

def text (m : Mark) (message : String) (detail : Option String) : String :=
  match m with
  | .failed => failureMessage message detail
  | _ => message

def saying (m : Mark) (message : String) : Saying := ⟨m.status, m.reason, message⟩

theorem status_eq_true {m : Mark} : m.status = .true ↔ m = .success := by
  constructor
  · exact eq_success_of_status
  · rintro rfl
    rfl

end Mark

inductive Deed where
  | mark (type : String) (m : Mark) (message : String) (detail : Option String) (now : Instant)
  /-- Types that are registered at different times are so many deeds. -/
  | register (types : List String) (now : Instant)
  /-- The object is of another generation from now on. -/
  | regenerate (generation : Option Int)

namespace Deed

def types : Deed → List String
  | .mark type .. => [type]
  | .register types _ => types
  | .regenerate _ => []

def time? : Deed → Option Instant
  | .mark _ _ _ _ now | .register _ now => some now
  | .regenerate _ => none

def Marks (type : String) : Deed → Prop
  | .mark marked .. => marked = type
  | .register .. | .regenerate _ => False

end Deed

def newcomers (seen : List String) : List String → List String
  | [] => []
  | type :: rest =>
    if type ∈ seen then newcomers seen rest else type :: newcomers (seen ++ [type]) rest

theorem newcomers_append (seen types more : List String) : newcomers seen (types ++ more) =
    newcomers seen types ++ newcomers (seen ++ newcomers seen types) more := by
  induction types generalizing seen with
  | nil => simp [newcomers]
  | cons type types ih =>
    rw [List.cons_append, newcomers, newcomers]
    split
    · exact ih seen
    · rw [ih, List.cons_append, List.append_assoc]
      rfl

/-! ## Registering -/

section Register

variable {conditions : List Condition} {type : String} {types : List String} {now : Instant}
  {x : Condition}

theorem any_type_eq_mem :
    conditions.any (·.type = type) = true ↔ type ∈ conditions.map (·.type) := by
  simp [List.any_eq_true]

theorem types_registerTypes : (registerTypes types now conditions).map (·.type) =
    conditions.map (·.type) ++ newcomers (conditions.map (·.type)) types := by
  induction types generalizing conditions with
  | nil => exact (List.append_nil _).symm
  | cons type types ih =>
    rw [registerTypes_cons, newcomers]
    by_cases listed : type ∈ conditions.map (·.type)
    · rw [if_pos (any_type_eq_mem.2 listed), if_pos listed]
      exact ih
    · rw [if_neg (mt any_type_eq_mem.1 listed), if_neg listed, ih, List.map_append,
        List.append_assoc]
      rfl

theorem find_registerTypes_of_some (found : findCondition conditions type = some x) :
    findCondition (registerTypes types now conditions) type = some x := by
  induction types generalizing conditions with
  | nil => exact found
  | cons new types ih =>
    rw [registerTypes_cons]
    split
    · exact ih found
    · apply ih
      rw [findCondition] at found
      rw [findCondition, List.find?_append, found]
      rfl

theorem registered_of_find (absent : findCondition conditions type = none)
    (found : findCondition (registerTypes types now conditions) type = some x) :
    type ∈ types ∧ x = Condition.registered type now := by
  induction types generalizing conditions with
  | nil => cases absent.symm.trans found
  | cons new types ih =>
    rw [registerTypes_cons] at found
    split at found
    · exact (ih absent found).imp_left (List.mem_cons_of_mem _)
    by_cases same : new = type
    · subst same
      have first : findCondition (conditions ++ [Condition.registered new now]) new =
          some (Condition.registered new now) := by
        rw [findCondition] at absent
        rw [findCondition, List.find?_append, absent]
        exact findCondition_cons_of_eq [] rfl
      cases (find_registerTypes_of_some first).symm.trans found
      exact ⟨List.mem_cons_self .., rfl⟩
    · refine (ih ?_ found).imp_left (List.mem_cons_of_mem _)
      have other : findCondition [Condition.registered new now] type = none :=
        findCondition_cons_of_ne [] same
      rw [findCondition] at absent other
      rw [findCondition, List.find?_append, absent, other]
      rfl

end Register

namespace Cycle

variable {R X : Type} [Resource R]

def types (c : Cycle R X) : List String := c.conditions.map (·.type)

def said (c : Cycle R X) (type : String) : Option Saying :=
  (findCondition c.conditions type).map Condition.saying

def atGeneration (c : Cycle R X) (generation : Option Int) : Cycle R X :=
  { c with
    resource := Resource.withMetadata c.resource
      { Resource.metadata c.resource with generation } }

def perform (c : Cycle R X) : Deed → Cycle R X
  | .mark type m message detail now => (c.markAt type m (m.text message detail) now).2
  | .register types now => c.register types now
  | .regenerate generation => c.atGeneration generation

def performAll (c : Cycle R X) : List Deed → Cycle R X
  | [] => c
  | d :: ds => (c.perform d).performAll ds

def Alters (c : Cycle R X) (d : Deed) (type : String) : Prop :=
  (c.perform d).said type ≠ c.said type

instance (c : Cycle R X) (d : Deed) (type : String) : Decidable (c.Alters d type) :=
  inferInstanceAs (Decidable (_ ≠ _))

def lastAltered (c : Cycle R X) (type : String) : List Deed → Option Instant
  | [] => none
  | d :: ds =>
    ((c.perform d).lastAltered type ds).or (if c.Alters d type then d.time? else none)

def alteration (c : Cycle R X) (d : Deed) : List ConditionEvent :=
  match d with
  | .mark type m message detail _ =>
    if c.Alters d type then [⟨type, m.reason, m.text message detail⟩] else []
  | .register .. | .regenerate _ => []

def alterations (c : Cycle R X) : List Deed → List ConditionEvent
  | [] => []
  | d :: ds => c.alteration d ++ (c.perform d).alterations ds

theorem performAll_append (c : Cycle R X) (ds more : List Deed) :
    c.performAll (ds ++ more) = (c.performAll ds).performAll more := by
  induction ds generalizing c with
  | nil => rfl
  | cons d ds ih => exact ih _

/-! ## One deed -/

variable {c : Cycle R X} {d : Deed} {ds : List Deed} {type message : String} {m : Mark}
  {now : Instant} {x : Condition}

theorem shows_iff : Conditions.shows c.conditions type m message = true ↔
    c.said type = some (m.saying message) := by
  unfold Conditions.shows said
  cases findCondition c.conditions type with
  | none => simp
  | some x => simp [Condition.shows, Condition.saying, Mark.saying, and_assoc]

/-- A mark answers whether it changed anything, and that is when it leaves an event. -/
theorem markAt_cases (c : Cycle R X) (type : String) (m : Mark) (message : String)
    (now : Instant) : c.said type ≠ some (m.saying message) ∧
      (c.markAt type m message now).1 = true ∧
      (c.markAt type m message now).2.events = c.events ++ [⟨type, m.reason, message⟩] ∨
    c.said type = some (m.saying message) ∧ (c.markAt type m message now).1 = false ∧
      (c.markAt type m message now).2.events = c.events := by
  unfold markAt
  by_cases shown : Conditions.shows c.conditions type m message = true
  · rw [if_pos shown]
    exact .inr ⟨shows_iff.1 shown, rfl, rfl⟩
  · rw [if_neg shown]
    exact .inl ⟨mt shows_iff.2 shown, rfl, rfl⟩

variable [LawfulResource R]

theorem conditions_register (types : List String) :
    (c.register types now).conditions = registerTypes types now c.conditions :=
  LawfulResource.conditions_withConditions c.resource _

theorem conditions_atGeneration (generation : Option Int) :
    (c.atGeneration generation).conditions = c.conditions :=
  LawfulResource.conditions_withMetadata c.resource _

theorem find_markAt_self : findCondition (c.markAt type m message now).2.conditions type =
    if c.said type = some (m.saying message) then
      (findCondition c.conditions type).map ({ · with observedGeneration := c.generation })
    else some (Condition.marked type m message c.generation now) := by
  rw [conditions_markAt]
  by_cases shown : Conditions.shows c.conditions type m message = true
  · rw [if_pos shown, if_pos (shows_iff.1 shown), Conditions.confirm]
    exact Conditions.find_updateFirst fun _ typed => typed
  · rw [if_neg shown, if_neg (mt shows_iff.2 shown)]
    exact Conditions.find_put (Condition.marked type m message c.generation now)

theorem said_markAt_self :
    (c.markAt type m message now).2.said type = some (m.saying message) := by
  obtain ⟨x, found, said⟩ :
      ∃ x, findCondition (c.markAt type m message now).2.conditions type = some x ∧
        Says x type m message c.generation := find_markAt
  rw [Cycle.said, found, Option.map_some, Condition.saying, said.status_eq, said.reason_eq,
    said.message_eq]
  rfl

theorem types_markAt :
    (c.markAt type m message now).2.types = c.types ++ newcomers c.types [type] := by
  have found : c.conditions.any (·.type = (Condition.marked type m message c.generation now).type)
      = true ↔ type ∈ c.types := any_type_eq_mem
  rw [types, conditions_markAt, newcomers, newcomers]
  by_cases listed : type ∈ c.types
  · rw [if_pos listed, List.append_nil, types]
    split
    · exact Conditions.types_updateFirst fun _ typed => typed
    · rw [Conditions.put, if_pos (found.2 listed)]
      exact Conditions.types_updateFirst fun _ _ => rfl
  · have unseen : ¬ Conditions.shows c.conditions type m message = true := by
      intro shown
      obtain ⟨x, seen, -⟩ := says_of_shows shown
      exact listed (found.1 (Conditions.any_type_iff.2 ⟨x, seen⟩))
    rw [if_neg listed, if_neg unseen, Conditions.put, if_neg (mt found.1 listed), List.map_append]
    rfl

theorem types_perform : (c.perform d).types = c.types ++ newcomers c.types d.types := by
  cases d with
  | mark => exact types_markAt
  | register types now => rw [perform, Cycle.types, conditions_register, types_registerTypes]; rfl
  | regenerate generation =>
    rw [perform, types, conditions_atGeneration]
    exact (List.append_nil _).symm

theorem distinct_perform (h : Distinct c.conditions) : Distinct (c.perform d).conditions := by
  cases d with
  | mark => exact distinct_markAt h
  | register types now =>
    rw [perform, conditions_register]
    exact h.register
  | regenerate generation =>
    rw [perform, conditions_atGeneration]
    exact h

/-- A type that is not marked is as before. -/
theorem find_perform_of_unmarked (unmarked : ¬ d.Marks type)
    (found : findCondition c.conditions type = some x) :
    findCondition (c.perform d).conditions type = some x := by
  cases d with
  | mark => exact (find_markAt_of_ne (Ne.symm unmarked)).trans found
  | register types now =>
    rw [perform, conditions_register]
    exact find_registerTypes_of_some found
  | regenerate generation =>
    rw [perform, conditions_atGeneration]
    exact found

theorem registered_of_perform (unmarked : ¬ d.Marks type)
    (absent : findCondition c.conditions type = none)
    (found : findCondition (c.perform d).conditions type = some x) :
    ∃ types now, d = .register types now ∧ type ∈ types ∧ x = Condition.registered type now := by
  cases d with
  | mark =>
    cases absent.symm.trans ((find_markAt_of_ne (Ne.symm unmarked)).symm.trans found)
  | register types now =>
    rw [perform, conditions_register] at found
    exact ⟨types, now, rfl, registered_of_find absent found⟩
  | regenerate generation =>
    rw [perform, conditions_atGeneration] at found
    cases absent.symm.trans found

theorem alters_mark_iff {detail : Option String} :
    c.Alters (.mark type m message detail now) type ↔
      c.said type ≠ some (m.saying (m.text message detail)) := by
  have after : (c.perform (.mark type m message detail now)).said type =
      some (m.saying (m.text message detail)) := said_markAt_self
  rw [Alters, after]
  exact ne_comm

/-- What is found after a mark is as old as the mark if that changed what is said, and otherwise as
old as before. -/
theorem time_mark {detail : Option String} (found : findCondition
      (c.perform (.mark type m message detail now)).conditions type = some x) :
    c.Alters (.mark type m message detail now) type ∧ x.lastTransitionTime = now ∨
      ¬ c.Alters (.mark type m message detail now) type ∧
        ∃ before, findCondition c.conditions type = some before ∧
          x.lastTransitionTime = before.lastTransitionTime := by
  rw [perform, find_markAt_self] at found
  by_cases same : c.said type = some (m.saying (m.text message detail))
  · rw [if_pos same] at found
    obtain ⟨before, was, rfl⟩ := Option.map_eq_some_iff.1 found
    exact .inr ⟨mt alters_mark_iff.1 (not_not_intro same), before, was, rfl⟩
  · rw [if_neg same] at found
    cases found
    exact .inl ⟨alters_mark_iff.2 same, rfl⟩

/-- Other deeds change what is said of a type only where there was no condition of it. -/
theorem time_of_unmarked (unmarked : ¬ d.Marks type)
    (found : findCondition (c.perform d).conditions type = some x) :
    c.Alters d type ∧ d.time? = some x.lastTransitionTime ∨
      ¬ c.Alters d type ∧ findCondition c.conditions type = some x := by
  cases was : findCondition c.conditions type with
  | none =>
    refine .inl ⟨?_, ?_⟩
    · rw [Alters, said, said, found, was]
      exact nofun
    · obtain ⟨types, now, rfl, -, rfl⟩ := registered_of_perform unmarked was found
      rfl
  | some before =>
    have still := find_perform_of_unmarked unmarked was
    refine .inr ⟨not_not_intro ?_, still.symm.trans found⟩
    rw [said, said, still, was]

theorem time_perform (found : findCondition (c.perform d).conditions type = some x) :
    (if c.Alters d type then d.time? else none) = some x.lastTransitionTime ∨
      (if c.Alters d type then d.time? else none) = none ∧
        ∃ before, findCondition c.conditions type = some before ∧
          x.lastTransitionTime = before.lastTransitionTime := by
  by_cases marks : d.Marks type
  · cases d with
    | mark marked m message detail now =>
      obtain rfl : marked = type := marks
      rcases time_mark found with ⟨alters, time⟩ | ⟨kept, before⟩
      · exact .inl ((if_pos alters).trans (congrArg some time.symm))
      · exact .inr ⟨if_neg kept, before⟩
    | register | regenerate => exact marks.elim
  · rcases time_of_unmarked marks found with ⟨alters, time⟩ | ⟨kept, was⟩
    · exact .inl ((if_pos alters).trans time)
    · exact .inr ⟨if_neg kept, x, was, rfl⟩

theorem events_perform : (c.perform d).events = c.events ++ c.alteration d := by
  cases d with
  | mark type m message detail now =>
    rw [alteration]
    rcases c.markAt_cases type m (m.text message detail) now with
      ⟨other, -, events⟩ | ⟨same, -, events⟩
    · rw [if_pos (alters_mark_iff.2 other)]
      exact events
    · rw [if_neg (mt alters_mark_iff.1 (not_not_intro same)), List.append_nil]
      exact events
  | register types now => exact (List.append_nil _).symm
  | regenerate generation => exact (List.append_nil _).symm

/-! ## Deeds in a row -/

theorem types_performAll :
    (c.performAll ds).types = c.types ++ newcomers c.types (ds.flatMap Deed.types) := by
  induction ds generalizing c with
  | nil => exact (List.append_nil _).symm
  | cons d ds ih =>
    rw [performAll, ih, types_perform, List.flatMap_cons, newcomers_append, List.append_assoc]

theorem distinct_performAll (h : Distinct c.conditions) :
    Distinct (c.performAll ds).conditions := by
  induction ds generalizing c with
  | nil => exact h
  | cons d ds ih => exact ih (distinct_perform h)

theorem find_performAll_of_unmarked (unmarked : ∀ d ∈ ds, ¬ d.Marks type)
    (found : findCondition c.conditions type = some x) :
    findCondition (c.performAll ds).conditions type = some x := by
  induction ds generalizing c with
  | nil => exact found
  | cons d ds ih =>
    obtain ⟨first, later⟩ := List.forall_mem_cons.1 unmarked
    exact ih later (find_perform_of_unmarked first found)

theorem registered_of_performAll (unmarked : ∀ d ∈ ds, ¬ d.Marks type)
    (absent : findCondition c.conditions type = none)
    (found : findCondition (c.performAll ds).conditions type = some x) :
    ∃ types now, .register types now ∈ ds ∧ type ∈ types ∧
      x = Condition.registered type now := by
  induction ds generalizing c with
  | nil => cases absent.symm.trans found
  | cons d ds ih =>
    obtain ⟨first, later⟩ := List.forall_mem_cons.1 unmarked
    cases met : findCondition (c.perform d).conditions type with
    | none =>
      obtain ⟨types, now, mem, rest⟩ := ih later met found
      exact ⟨types, now, List.mem_cons_of_mem _ mem, rest⟩
    | some y =>
      obtain rfl : y = x :=
        Option.some.inj ((find_performAll_of_unmarked later met).symm.trans found)
      obtain ⟨types, now, rfl, rest⟩ := registered_of_perform first absent met
      exact ⟨types, now, List.mem_cons_self .., rest⟩

/-- A condition is as old as the last change of what it says, or as it was before all of that. -/
theorem time_performAll (found : findCondition (c.performAll ds).conditions type = some x) :
    c.lastAltered type ds = some x.lastTransitionTime ∨
      c.lastAltered type ds = none ∧
        ∃ before, findCondition c.conditions type = some before ∧
          x.lastTransitionTime = before.lastTransitionTime := by
  induction ds generalizing c with
  | nil => exact .inr ⟨rfl, x, found, rfl⟩
  | cons d ds ih =>
    rw [lastAltered]
    rcases ih found with later | ⟨never, middle, was, same⟩
    · rw [later]
      exact .inl rfl
    · rw [never, Option.none_or, same]
      exact time_perform was

theorem events_performAll : (c.performAll ds).events = c.events ++ c.alterations ds := by
  induction ds generalizing c with
  | nil => exact (List.append_nil _).symm
  | cons d ds ih => rw [performAll, ih, events_perform, alterations, List.append_assoc]

/-- What deeds in a row leave of a cycle. -/
structure Account (c : Cycle R X) (ds : List Deed) : Prop where
  distinct : Distinct (c.performAll ds).conditions
  /-- What was listed keeps its order, and the rest follows as it came. -/
  order : (c.performAll ds).types = c.types ++ newcomers c.types (ds.flatMap Deed.types)
  /-- A type says what its last mark said. -/
  marked : ∀ {pre post : List Deed} {type : String} {m : Mark} {message : String}
    {detail : Option String} {now : Instant},
    ds = pre ++ .mark type m message detail now :: post → (∀ d ∈ post, ¬ d.Marks type) →
    ∃ x, findCondition (c.performAll ds).conditions type = some x ∧
      Says x type m (m.text message detail) (c.performAll pre).generation ∧
      (x.status = .true ↔ m = .success)
  untouched : ∀ x ∈ c.conditions, (∀ d ∈ ds, ¬ d.Marks x.type) →
    x ∈ (c.performAll ds).conditions
  registered : ∀ x ∈ (c.performAll ds).conditions, x.type ∉ c.types →
    (∀ d ∈ ds, ¬ d.Marks x.type) →
    ∃ types now, .register types now ∈ ds ∧ x.type ∈ types ∧
      x = Condition.registered x.type now
  since : ∀ x ∈ (c.performAll ds).conditions,
    c.lastAltered x.type ds = some x.lastTransitionTime ∨
      c.lastAltered x.type ds = none ∧
        ∃ before ∈ c.conditions, before.type = x.type ∧
          x.lastTransitionTime = before.lastTransitionTime
  events : (c.performAll ds).events = c.events ++ c.alterations ds
  /-- Each mark answers whether it leaves an event. -/
  answered : ∀ {pre post : List Deed} {type : String} {m : Mark} {message : String}
    {detail : Option String} {now : Instant},
    ds = pre ++ .mark type m message detail now :: post →
    ((c.performAll pre).markAt type m (m.text message detail) now).1 =
      !((c.performAll pre).alteration (.mark type m message detail now)).isEmpty

/-- However marks and registrations follow each other through a cycle, whatever they are for: they
leave the conditions in order, each saying what was said last and since when, and the events are
the changes. -/
theorem deeds_account (c : Cycle R X) (ds : List Deed) (distinct : Distinct c.conditions) :
    c.Account ds where
  distinct := distinct_performAll distinct
  order := types_performAll
  marked := by
    intro pre post type m message detail now parts unmarked
    obtain ⟨x, found, told⟩ :
        ∃ x, findCondition ((c.performAll pre).markAt type m (m.text message detail)
            now).2.conditions type = some x ∧
          Says x type m (m.text message detail) (c.performAll pre).generation := find_markAt
    refine ⟨x, ?_, told, told.status_eq ▸ Mark.status_eq_true⟩
    rw [parts, performAll_append, performAll]
    exact find_performAll_of_unmarked unmarked found
  untouched x listed unmarked :=
    List.mem_of_find?_eq_some (find_performAll_of_unmarked unmarked (distinct.find listed))
  registered x listed new unmarked := by
    have absent : findCondition c.conditions x.type = none := by
      rw [← Option.not_isSome_iff_eq_none, Option.isSome_iff_exists, ← Conditions.any_type_iff,
        any_type_eq_mem]
      exact new
    exact registered_of_performAll unmarked absent ((distinct_performAll distinct).find listed)
  since x listed := by
    have found : findCondition (c.performAll ds).conditions x.type = some x :=
      (distinct_performAll distinct).find listed
    refine (time_performAll found).imp_right (And.imp_right ?_)
    rintro ⟨before, was, same⟩
    exact ⟨before, List.mem_of_find?_eq_some was, type_of_findCondition was, same⟩
  events := events_performAll
  answered := by
    intro pre post type m message detail now parts
    rw [alteration]
    rcases (c.performAll pre).markAt_cases type m (m.text message detail) now with
      ⟨other, changed, -⟩ | ⟨same, kept, -⟩
    · rw [if_pos (alters_mark_iff.2 other), changed]
      rfl
    · rw [if_neg (mt alters_mark_iff.1 (not_not_intro same)), kept]
      rfl

def renewed : Cycle Revision Unit :=
  .start
    { metadata := { name := some "net-1.0.0", generation := some 1 }
      spec :=
        { planName := "net"
          version := "1.0.0"
          configuration := { module := "m", providerName := "aws" } }
      status := some
        { conditions :=
            [Condition.marked "Available" .success "served" 1 (.ofSeconds 5),
              Condition.registered "Used" (.ofSeconds 5)] } }
    ()

/-- A failure that comes again when the revision has another generation is no change, and so are
placeholders for conditions that are there. -/
theorem deeds_account_renewed :
    let deeds : List Deed :=
      [.register ["Used", "Stored"] (.ofSeconds 10),
        .mark "Stored" .failed "cannot store" (some "conflict") (.ofSeconds 20),
        .regenerate (some 2),
        .mark "Stored" .failed "cannot store" (some "conflict") (.ofSeconds 30),
        .mark "Available" .warning "served late" none (.ofSeconds 40),
        .register ["Available"] (.ofSeconds 50)]
    Distinct renewed.conditions ∧ renewed.Account deeds ∧
      (renewed.performAll deeds).conditions =
        [Condition.marked "Available" .warning "served late" 2 (.ofSeconds 40),
          Condition.registered "Used" (.ofSeconds 5),
          Condition.marked "Stored" .failed "cannot store: conflict" 2 (.ofSeconds 20)] ∧
      (renewed.performAll deeds).events =
        [⟨"Stored", .error, "cannot store: conflict"⟩, ⟨"Available", .warning, "served late"⟩] := by
  have distinct : Distinct renewed.conditions := by
    unfold Distinct
    decide
  exact ⟨distinct, deeds_account renewed _ distinct, by decide +kernel, by decide +kernel⟩

end Cycle

end InfraOperator
