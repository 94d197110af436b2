import InfraOperator.Proofs.Provisioning.Turns

/-!
# Plays

In a world that stands still, the steps of a cycle that creates nothing make a play: they take their
turns one after the other until one of them ends it. What a step says of a condition no later step
says otherwise, so over the status that a play has left the steps find all of it said and counted
already: they take the same turns and leave the object as it was read (`Plays.quiet`).
-/

set_option autoImplicit false

namespace InfraOperator

def Answered.Undisturbed {S : Interface} : Answered (Supervised S) → Prop
  | ⟨.cancelled, cancelled⟩ => cancelled = false
  | ⟨.plain _, _⟩ => True
  | ⟨.watched _, answer⟩ => Option.isSome answer = true

namespace Conditions

variable {type : String} {conditions : List Condition} {types : List String} {now : Instant}

theorem confirm_eq {x : Condition} {generation : Int}
    (found : findCondition conditions type = some x)
    (observed : x.observedGeneration = generation) :
    confirm conditions type generation = conditions := by
  unfold confirm
  induction conditions with
  | nil => rfl
  | cons c rest ih =>
    by_cases typed : c.type = type
    · rw [findCondition_cons_of_eq rest typed] at found
      obtain rfl := Option.some.inj found
      rw [updateFirst, if_pos typed, ← observed]
    · rw [findCondition_cons_of_ne rest typed] at found
      rw [updateFirst, if_neg typed, ih found]

def Lists (types : List String) (conditions : List Condition) : Prop :=
  ∀ type ∈ types, ∃ x, findCondition conditions type = some x

theorem Lists.register (h : Lists types conditions) :
    registerTypes types now conditions = conditions := by
  induction types with
  | nil => rfl
  | cons type types ih =>
    rw [registerTypes_cons, if_pos (any_type_iff.2 (h type (List.mem_cons_self ..)))]
    exact ih fun type ht => h type (List.mem_cons_of_mem _ ht)

theorem lists_registerTypes : Lists types (registerTypes types now conditions) := by
  suffices ∀ type, (type ∈ types ∨ ∃ x, findCondition conditions type = some x) →
      ∃ x, findCondition (registerTypes types now conditions) type = some x from
    fun type ht => this type (.inl ht)
  intro type h
  induction types generalizing conditions with
  | nil => exact h.resolve_left List.not_mem_nil
  | cons new types ih =>
    rw [registerTypes_cons]
    split
    · rename_i listed
      refine ih (h.elim (fun ht => ?_) .inr)
      rcases List.mem_cons.1 ht with rfl | ht
      · exact .inr (any_type_iff.1 listed)
      · exact .inl ht
    · rename_i missing
      have added : conditions ++ [Condition.registered new now] =
          put conditions (Condition.registered new now) := (if_neg missing).symm
      rw [added]
      refine ih ?_
      by_cases same : type = new
      · subst same
        exact .inr ⟨_, find_put (Condition.registered type now)⟩
      · refine h.imp (fun ht => (List.mem_cons.1 ht).resolve_left same) ?_
        rintro ⟨x, found⟩
        have kept : findCondition (put conditions (Condition.registered new now)) type =
            findCondition conditions type := find_put_of_ne same
        exact ⟨x, kept.trans found⟩

end Conditions

namespace Provisioning

open Conditions (Says Lists)

/-! ## What turns leave -/

section Leave

variable {t : Turn} {type type' : String} {now : Instant} {c : ConfigurationCycle}

def resourcesOf (c : ConfigurationCycle) : Option Nat :=
  (c.resource.status.getD {}).resources

theorem resourcesOf_counted (count : Nat) : resourcesOf (counted c count) = some count := by
  unfold resourcesOf counted
  split
  · assumption
  · rfl

namespace Turn

theorem metadata_leave : (t.leave type now c).resource.metadata = c.resource.metadata := by
  have said : (speak t.marks type now c).resource.metadata = c.resource.metadata := by
    unfold speak
    split
    · exact metadata_markAt
    · rfl
  rw [← said]
  unfold leave tally
  split
  · exact metadata_counted _
  · rfl

theorem spec_leave : (t.leave type now c).resource.spec = c.resource.spec := by
  have said : (speak t.marks type now c).resource.spec = c.resource.spec := by
    unfold speak
    split
    · exact spec_markAt
    · rfl
  rw [← said]
  unfold leave tally
  split
  · exact spec_counted _
  · rfl

theorem conditions_leave :
    (t.leave type now c).conditions = (speak t.marks type now c).conditions := by
  unfold leave tally
  split
  · exact conditions_counted _
  · rfl

theorem find_leave_of_ne (other : type' ≠ type) :
    findCondition (t.leave type now c).conditions type' = findCondition c.conditions type' := by
  rw [conditions_leave]
  unfold speak
  split
  · exact Cycle.find_markAt_of_ne other
  · rfl

theorem find_leave {mark : Mark} {message : String} (marks : t.marks = some (mark, message)) :
    ∃ x, findCondition (t.leave type now c).conditions type = some x ∧
      Says x type mark message c.generation := by
  rw [conditions_leave, marks]
  exact Cycle.find_markAt

theorem resourcesOf_speak {marks : Option (Mark × String)} :
    resourcesOf (speak marks type now c) = resourcesOf c := by
  unfold speak
  split
  · unfold Cycle.markAt
    split <;> rfl
  · rfl

theorem resourcesOf_leave {count : Nat} (tallied : t.count = some count) :
    resourcesOf (t.leave type now c) = some count := by
  unfold leave
  rw [tallied]
  exact resourcesOf_counted count

theorem resourcesOf_leave_of_none (untold : t.count = none) :
    resourcesOf (t.leave type now c) = resourcesOf c := by
  unfold leave
  rw [untold]
  exact resourcesOf_speak

theorem initialConditions_leave :
    (t.leave type now c).initialConditions = c.initialConditions := by
  have said : (speak t.marks type now c).initialConditions = c.initialConditions := by
    unfold speak Cycle.markAt
    split
    · split <;> rfl
    · rfl
  rw [← said]
  unfold leave tally
  split
  · unfold counted
    split <;> rfl
  · rfl

theorem clean_leave (clean : (t.leave type now c).dirty = false) :
    c.dirty = false ∧ resourcesOf (t.leave type now c) = resourcesOf c := by
  have said : (speak t.marks type now c).dirty = c.dirty := by
    unfold speak Cycle.markAt
    split
    · split <;> rfl
    · rfl
  cases tallied : t.count with
  | none =>
    refine ⟨?_, resourcesOf_leave_of_none tallied⟩
    unfold leave at clean
    rw [tallied] at clean
    exact said.symm.trans clean
  | some count =>
    unfold leave at clean
    rw [tallied] at clean
    simp only [tally, counted] at clean
    split at clean
    · rename_i same
      refine ⟨said.symm.trans clean, ?_⟩
      rw [resourcesOf_leave tallied, ← resourcesOf_speak]
      exact same.symm
    · cases clean

theorem lists_leave {types : List String} (h : Lists types c.conditions) :
    Lists types (t.leave type now c).conditions := by
  intro type' ht
  by_cases same : type' = type
  · subst same
    cases marks : t.marks with
    | none =>
      rw [conditions_leave, marks]
      exact h type' ht
    | some said =>
      obtain ⟨mark, message⟩ := said
      have stands : ∃ x, findCondition (t.leave type' now c).conditions type' = some x ∧
          Says x type' mark message c.generation := find_leave marks
      exact stands.imp fun _ => And.left
  · rw [find_leave_of_ne same]
    exact h type' ht

end Turn

end Leave

/-! ## Plays -/

section Plays

variable {settings : Settings} {w : World} {uid : String} {object : Configuration}
  {a : Account settings w uid object} {rest as : List (Account settings w uid object)}
  {c final : ConfigurationCycle} {outcome : Outcome Directive} {t : Turn}

def Account.turnIn (a : Account settings w uid object) (c : ConfigurationCycle) : Option Turn :=
  turnOf a.type a.passes a.turn c

inductive Plays : List (Account settings w uid object) → ConfigurationCycle →
    Outcome Directive → ConfigurationCycle → Prop
  | done {c : ConfigurationCycle} : Plays [] c (.ok .done) c
  | ended {a : Account settings w uid object} {rest : List (Account settings w uid object)}
      {c : ConfigurationCycle} {t : Turn} {now : Instant} {ending : Ending}
      (turn : a.turnIn c = some t) (ends : t.verdict.ending? = some ending) :
      Plays (a :: rest) c ending.outcome (t.leave a.type now c)
  | went {a : Account settings w uid object} {rest : List (Account settings w uid object)}
      {c final : ConfigurationCycle} {outcome : Outcome Directive} {t : Turn} {now : Instant}
      (turn : a.turnIn c = some t) (go : t.verdict.ending? = none)
      (later : Plays rest (t.leave a.type now c) outcome final) : Plays (a :: rest) c outcome final

theorem Plays.alike (h : Plays as c outcome final) (start : Alike object c.resource) :
    Alike object final.resource := by
  induction h with
  | done => exact start
  | ended => exact start.congr Turn.metadata_leave Turn.spec_leave
  | went _ _ _ ih => exact ih (start.congr Turn.metadata_leave Turn.spec_leave)

theorem Plays.lists {types : List String} (h : Plays as c outcome final)
    (start : Lists types c.conditions) : Lists types final.conditions := by
  induction h with
  | done => exact start
  | ended => exact Turn.lists_leave start
  | went _ _ _ ih => exact ih (Turn.lists_leave start)

theorem Plays.initialConditions (h : Plays as c outcome final) :
    final.initialConditions = c.initialConditions := by
  induction h with
  | done => rfl
  | ended => exact Turn.initialConditions_leave
  | went _ _ _ ih => exact ih.trans Turn.initialConditions_leave

theorem Plays.clean (h : Plays as c outcome final) (clean : final.dirty = false) :
    c.dirty = false ∧ resourcesOf final = resourcesOf c := by
  induction h with
  | done => exact ⟨clean, rfl⟩
  | ended => exact Turn.clean_leave clean
  | went _ _ _ ih =>
    obtain ⟨clean, same⟩ := ih clean
    obtain ⟨clean, same'⟩ := Turn.clean_leave clean
    exact ⟨clean, same.trans same'⟩

/-- What none of the steps speaks of stands as it did. -/
theorem Plays.find {type : String} (h : Plays as c outcome final)
    (silent : ∀ a ∈ as, a.type ≠ type) :
    findCondition final.conditions type = findCondition c.conditions type := by
  induction h with
  | done => rfl
  | ended => exact Turn.find_leave_of_ne (silent _ (List.mem_cons_self ..)).symm
  | went _ _ _ ih =>
    rw [ih fun a ha => silent a (List.mem_cons_of_mem _ ha)]
    exact Turn.find_leave_of_ne (silent _ (List.mem_cons_self ..)).symm

def Account.Uncounting (a : Account settings w uid object) : Prop :=
  ∀ x t, a.turn x = some t → t.count = none

theorem Account.Uncounting.turnIn (h : a.Uncounting) (turn : a.turnIn c = some t) :
    t.count = none := by
  unfold Account.turnIn turnOf at turn
  split at turn
  · cases turn
    rfl
  · exact h _ _ turn

theorem Plays.resourcesOf (h : Plays as c outcome final) (silent : ∀ a ∈ as, a.Uncounting) :
    resourcesOf final = resourcesOf c := by
  induction h with
  | done => rfl
  | ended turn =>
    exact Turn.resourcesOf_leave_of_none ((silent _ (List.mem_cons_self ..)).turnIn turn)
  | went turn _ _ ih =>
    rw [ih fun a ha => silent a (List.mem_cons_of_mem _ ha)]
    exact Turn.resourcesOf_leave_of_none ((silent _ (List.mem_cons_self ..)).turnIn turn)

/-- What a step says or counts, or finds complete, before the cycle goes on, no later step says or
counts otherwise. -/
def Apart : List (Account settings w uid object) → Prop
  | [] => True
  | a :: rest =>
    ((∀ later ∈ rest, later.type ≠ a.type) ∨
      a.passes = false ∧ ∀ x t, a.turn x = some t → t.verdict.ending? = none → t.marks = none) ∧
    (a.Uncounting ∨ ∀ later ∈ rest, later.Uncounting) ∧ Apart rest

/-! ## Once more -/

structure Standing (object : Configuration) (final : ConfigurationCycle) (left : Configuration) :
    Prop where
  alike : Alike object left
  status_eq : left.status = final.resource.status
  stored : left.status.isSome = true

variable {left : Configuration} {type : String} {x : Scratch} {now : Instant}

theorem Standing.conditions (h : Standing object final left) :
    (Cycle.start left x).conditions = final.conditions :=
  congrArg (fun status => (Option.getD status ({} : ConfigurationStatus)).conditions) h.status_eq

theorem Standing.lists {types : List String} (h : Standing object final left)
    (listed : Lists types final.conditions) : Lists types (Resource.conditions left) := by
  have same : Resource.conditions left = final.conditions := h.conditions (x := {})
  rw [same]
  exact listed

theorem Standing.resourcesOf (h : Standing object final left) :
    resourcesOf (Cycle.start left x) = resourcesOf final :=
  congrArg (fun status => (Option.getD status ({} : ConfigurationStatus)).resources) h.status_eq

theorem Alike.generation {c : ConfigurationCycle} (h : Alike object c.resource) :
    c.generation = Resource.generation object :=
  h.same Resource.generation fun _ _ => rfl

theorem Standing.withConditions (h : Standing object final left) :
    (Cycle.start left x).withConditions (Cycle.start left x).conditions = Cycle.start left x := by
  obtain ⟨m, s, status⟩ := left
  cases status with
  | none => cases h.stored
  | some status => rfl

theorem Standing.counted (h : Standing object final left) {count : Nat}
    (told : Provisioning.resourcesOf final = some count) :
    counted (Cycle.start left x) count = Cycle.start left x := by
  rw [← h.resourcesOf (x := x), Provisioning.resourcesOf] at told
  rw [Provisioning.counted, if_pos told]
  obtain ⟨m, s, status⟩ := left
  cases status with
  | none => cases h.stored
  | some status => rfl

/-- What stands already is marked without a change. -/
theorem Standing.markAt (h : Standing object final left) {mark : Mark} {message : String}
    {said : Condition} (found : findCondition final.conditions type = some said)
    (marks : Says said type mark message (Resource.generation object)) :
    ((Cycle.start left x).markAt type mark message now).2 = Cycle.start left x := by
  have found : findCondition (Cycle.start left x).conditions type = some said := by
    rw [h.conditions, found]
  have current : said.observedGeneration = (Cycle.start left x).generation := by
    rw [marks.generation_eq]
    exact (Alike.generation (c := Cycle.start left x) h.alike).symm
  have shown : Conditions.shows (Cycle.start left x).conditions type mark message = true := by
    rw [Conditions.shows, found]
    simp [Condition.shows, marks.status_eq, marks.reason_eq, marks.message_eq]
  rw [Cycle.markAt, if_pos shown]
  change (Cycle.start left x).confirm type = _
  rw [Cycle.confirm, Conditions.confirm_eq found current]
  exact h.withConditions

theorem Standing.leave (h : Standing object final left)
    (spoken : Turn.speak t.marks type now (Cycle.start left x) = Cycle.start left x)
    (told : ∀ count, t.count = some count → Provisioning.resourcesOf final = some count) :
    t.leave type now (Cycle.start left x) = Cycle.start left t.scratch := by
  rw [Turn.leave, spoken]
  cases tallied : t.count with
  | none => rfl
  | some count =>
    rw [Turn.tally, h.counted (told count tallied)]
    rfl

theorem Standing.isComplete_eq (h : Standing object final left) :
    (Cycle.start left x).isComplete type =
      Conditions.complete final.conditions type (Resource.generation object) := by
  rw [Cycle.isComplete_eq, h.conditions, Alike.generation (c := Cycle.start left x) h.alike]

/-- Over the object as it is left, the step takes a turn that ends like this one and changes
nothing. -/
def Account.Repeats (a : Account settings w uid object) (left : Configuration) (x : Scratch)
    (t : Turn) : Prop :=
  ∃ t', a.turnIn (Cycle.start left x) = some t' ∧ t'.verdict = t.verdict ∧
    ∀ now, t'.leave a.type now (Cycle.start left x) = Cycle.start left t.scratch

/-- A step repeats its turn where what the turn said and counted stands. -/
theorem Account.repeats (a : Account settings w uid object) (standing : Standing object final left)
    (alike : Alike object c.resource) (turn : a.turnIn c = some t)
    (said : a.passes = true ∨ t.marks ≠ none →
      findCondition final.conditions a.type =
        findCondition (t.leave a.type now c).conditions a.type)
    (told : ∀ count, t.count = some count → Provisioning.resourcesOf final = some count) :
    a.Repeats left c.scratch t := by
  have complete : findCondition final.conditions a.type = findCondition c.conditions a.type →
      (Cycle.start left c.scratch).isComplete a.type = c.isComplete a.type := by
    intro same
    rw [standing.isComplete_eq, Cycle.isComplete_eq, alike.generation, Conditions.complete,
      Conditions.complete, same]
  have silent : t.marks = none → findCondition (t.leave a.type now c).conditions a.type =
      findCondition c.conditions a.type := by
    intro none
    rw [Turn.conditions_leave, none]
    rfl
  unfold Account.Repeats Account.turnIn turnOf
  unfold Account.turnIn turnOf at turn
  by_cases passed : a.passes = true ∧ c.isComplete a.type = true
  · -- Passed over, and complete still.
    rw [if_pos passed] at turn
    obtain rfl := Option.some.inj turn
    have same := (said (.inl passed.1)).trans (silent rfl)
    refine ⟨{ scratch := c.scratch }, ?_, rfl, fun _ => rfl⟩
    rw [if_pos ⟨passed.1, (complete same).trans passed.2⟩]
    rfl
  rw [if_neg passed] at turn
  cases marks : t.marks with
  | none =>
    refine ⟨t, ?_, rfl, fun now => standing.leave (by rw [marks]; rfl) told⟩
    rw [if_neg]
    · exact turn
    · rintro ⟨passes, completed⟩
      have same := (said (.inl passes)).trans (silent marks)
      exact passed ⟨passes, (complete same).symm.trans completed⟩
  | some spoken =>
    obtain ⟨mark, message⟩ := spoken
    have spoke : t.marks ≠ none := by
      rw [marks]
      exact Option.some_ne_none _
    obtain ⟨y, found, right⟩ : ∃ y, findCondition final.conditions a.type = some y ∧
        Says y a.type mark message (Resource.generation object) := by
      rw [said (.inr spoke), ← alike.generation]
      exact Turn.find_leave marks
    have spokenAgain : ∀ now, Turn.speak t.marks a.type now (Cycle.start left c.scratch) =
        Cycle.start left c.scratch := by
      intro now
      rw [marks]
      exact standing.markAt found right
    by_cases success : a.passes = true ∧ mark = .success
    · -- A success is passed over from now on.
      obtain ⟨passes, rfl⟩ := success
      have last := a.lasting passes _ _ _ turn marks
      refine ⟨{ scratch := c.scratch }, ?_, by rw [last], fun _ => by rw [last]; rfl⟩
      have completed : (Cycle.start left c.scratch).isComplete a.type = true := by
        rw [standing.isComplete_eq, Conditions.complete_iff]
        exact ⟨y, found, right.status_eq, right.generation_eq⟩
      rw [if_pos ⟨passes, completed⟩]
      rfl
    · refine ⟨t, ?_, rfl, fun now => standing.leave (spokenAgain now) told⟩
      rw [if_neg]
      · exact turn
      · rintro ⟨passes, completed⟩
        rw [standing.isComplete_eq, Conditions.complete_iff] at completed
        obtain ⟨z, found', met, -⟩ := completed
        obtain rfl := Option.some.inj (found.symm.trans found')
        exact success ⟨passes, Mark.eq_success_of_status (right.status_eq.symm.trans met)⟩

/-! ## The programs -/

/-- The request is answered as the world is, and nothing is given up. -/
def World.Allows (w : World) (settings : Settings) (uid : String)
    (e : Answered (Supervised ConfigurationStore)) : Prop :=
  e.Undisturbed ∧ ∀ call ∈ Supervised.calls e, w.Answers settings uid call

/-- In the world, and without creating anything, the steps of accounts make a play. -/
theorem plays_runSteps {name : String} (as : List (Account settings w uid object))
    (alike : Alike object c.resource) :
    (Pipeline.runSteps name (as.map (·.step)) c).Under
      (fun e => w.Allows settings uid e ∧ ∀ call ∈ Supervised.calls e, created? call = none)
      (fun _ => True) fun v => Plays as c v.1 v.2 := by
  induction as generalizing c with
  | nil => exact Plays.done
  | cons a rest ih =>
    rw [List.map_cons, Pipeline.runSteps]
    refine ⟨trivial, fun cancelled given => ?_⟩
    obtain rfl : cancelled = false := given.1.1
    have taken := (a.takes c alike).under
      (A := fun e => w.Allows settings uid e ∧ ∀ call ∈ Supervised.calls e, created? call = none)
      (C := fun call => w.Answers settings uid call ∧ created? call = none) (P := fun _ => True)
      (fun r given => Bool.false_ne_true given.1.1)
      (fun e given call hc => ⟨given.1.2 call hc, given.2 call hc⟩) (fun _ _ => trivial)
      fun _ _ _ _ => trivial
    refine taken.bind ?_
    rintro ⟨verdict, c'⟩ ⟨own, value, answered, rfl, ends⟩
    rcases ends fun call hc => (answered call hc).1 with ⟨-, call, hc, made⟩ | turned
    · exact absurd (answered call hc).2 made
    obtain ⟨t, now, turn, rfl, rfl⟩ := turned
    cases ending : t.verdict.ending? with
    | none =>
      simp only [ending]
      have alike : Alike object (t.leave a.type now c).resource :=
        alike.congr Turn.metadata_leave Turn.spec_leave
      exact (ih alike).mono fun _ later => .went turn ending later
    | some ending' =>
      simp only [ending]
      exact ⟨trivial, fun _ _ => .ended turn ending⟩

/-- In the world the steps ask nothing but ordinary requests over the object as it is left, end like
this, and leave it as it is. -/
def Quiet (name : String) (as : List (Account settings w uid object)) (left : Configuration)
    (outcome : Outcome Directive) (x : Scratch) : Prop :=
  (Pipeline.runSteps name (as.map (·.step)) (Cycle.start left x)).Under (w.Allows settings uid)
    (Supervised.Within Ordinary) fun v => v.1 = outcome ∧ ∃ x, v.2 = Cycle.start left x

theorem quiet_cons {name : String} (alike : Alike object left) (again : a.Repeats left x t)
    (ends : ∀ ending, t.verdict.ending? = some ending → ending.outcome = outcome)
    (goes : t.verdict.ending? = none → Quiet name rest left outcome t.scratch) :
    Quiet name (a :: rest) left outcome x := by
  obtain ⟨t', turn, verdict_eq, left_eq⟩ := again
  have taken : ∀ none : a.turnIn (Cycle.start left x) = none, False := by
    intro none
    rw [turn] at none
    cases none
  unfold Quiet
  rw [List.map_cons, Pipeline.runSteps]
  refine ⟨trivial, fun cancelled given => ?_⟩
  obtain rfl : cancelled = false := given.1
  have turned := (a.takes (Cycle.start left x) alike).under
    (A := w.Allows settings uid) (C := w.Answers settings uid) (P := Supervised.Within Ordinary)
    (fun r given => Bool.false_ne_true given.1) (fun e given => given.2)
    (fun r prompt => ordinary_of_prompt prompt)
    fun own r given asks => (asks given).resolve_left taken
  refine turned.bind ?_
  rintro ⟨verdict, c'⟩ ⟨own, value, answered, rfl, ended⟩
  rcases ended answered with ⟨none, -⟩ | ⟨t'', now, turn', rfl, rfl⟩
  · exact (taken none).elim
  obtain rfl := Option.some.inj (turn.symm.trans turn')
  rw [left_eq now]
  cases ending : t'.verdict.ending? with
  | none =>
    simp only [ending]
    exact goes (verdict_eq ▸ ending)
  | some ending' =>
    simp only [ending]
    exact ⟨trivial, fun _ _ => ⟨ends _ (verdict_eq ▸ ending), _, rfl⟩⟩

/-- The steps of a play are quiet over the status that it has left. -/
theorem Plays.quiet (plays : Plays as c outcome final) (name : String) (apart : Apart as)
    (alike : Alike object c.resource) (standing : Standing object final left) :
    Quiet name as left outcome c.scratch := by
  induction plays with
  | done => exact ⟨rfl, _, rfl⟩
  | @ended a rest c t now ending turn ends =>
    have again : a.Repeats left c.scratch t :=
      a.repeats standing alike turn (fun _ => rfl) fun _ => Turn.resourcesOf_leave
    refine quiet_cons standing.alike again (fun ending' ends' => ?_) fun go => ?_
    · rw [Option.some.inj (ends'.symm.trans ends)]
    · rw [go] at ends
      cases ends
  | @went a rest c final outcome t now turn go later ih =>
    obtain ⟨others, counts, apart⟩ := apart
    have said : a.passes = true ∨ t.marks ≠ none →
        findCondition final.conditions a.type =
          findCondition (t.leave a.type now c).conditions a.type := by
      intro speaks
      rcases others with others | ⟨stays, silent⟩
      · exact later.find others
      · rcases speaks with passes | speaks
        · exact absurd (stays.symm.trans passes) Bool.false_ne_true
        · rw [Account.turnIn, turnOf, if_neg (by simp [stays])] at turn
          exact absurd (silent _ _ turn go) speaks
    have told : ∀ count, t.count = some count → Provisioning.resourcesOf final = some count := by
      intro count tallied
      rcases counts with none | none
      · rw [none.turnIn turn] at tallied
        cases tallied
      · exact (later.resourcesOf none).trans (Turn.resourcesOf_leave tallied)
    have again : a.Repeats left c.scratch t := a.repeats standing alike turn said told
    refine quiet_cons standing.alike again (fun ending ends => ?_) fun _ => ?_
    · rw [go] at ends
      cases ends
    · exact ih apart (alike.congr Turn.metadata_leave Turn.spec_leave) standing

/-! ## The steps before the deletion -/

theorem apart_of_silent (stays : a.passes = false)
    (silent : ∀ x t, a.turn x = some t → t.verdict.ending? = none → t.marks = none)
    (counts : a.Uncounting ∨ ∀ later ∈ rest, later.Uncounting) (h : Apart rest) :
    Apart (a :: rest) :=
  ⟨.inr ⟨stays, silent⟩, counts, h⟩

theorem apart_of_types (types : a.type ∉ rest.map (·.type)) (uncounting : a.Uncounting)
    (h : Apart rest) : Apart (a :: rest) :=
  ⟨.inl fun _ later same => types (same ▸ List.mem_map_of_mem later), .inl uncounting, h⟩

theorem StageRun.count_turn {s : StageRun} (h : s.turn settings w uid object x = some t) :
    t.count = none := by
  unfold StageRun.turn at h
  split at h
  · cases h
    rfl
  split at h
  · cases h
    unfold StageRun.followTurn
    split <;> rfl
  split at h
  · cases h
    rfl
  unfold StageRun.openTurn at h
  split at h
  · cases h
    rfl
  · split at h
    · cases h
      rfl
    · cases h

theorem count_providerTurn : (providerTurn w object x).count = none := by
  unfold providerTurn
  dsimp only
  split
  · rfl
  · split <;> rfl

theorem count_connectionTurn : (connectionTurn w uid object x).count = none := by
  unfold connectionTurn
  split <;> rfl

theorem says_connectionTurn (go : (connectionTurn w uid object x).verdict.ending? = none) :
    (connectionTurn w uid object x).marks = none := by
  unfold connectionTurn at go ⊢
  split at go
  · cases go
  · split <;> first | contradiction | rfl

theorem apart_of_unspoken {step : ConfigurationStep} {type : String} {turn : Scratch → Turn}
    {takes : ∀ c, Alike object c.resource →
      Takes settings w uid step type (some (turn c.scratch)) c}
    (silent : ∀ x, (turn x).marks = none ∧ (turn x).count = none) (h : Apart rest) :
    Apart (.plain step type turn takes :: rest) := by
  refine apart_of_silent rfl (fun x t turned _ => ?_) (.inl fun x t turned => ?_) h
  · obtain rfl := Option.some.inj turned
    exact (silent x).1
  · obtain rfl := Option.some.inj turned
    exact (silent x).2

theorem apart_accounts (owner : object.metadata.uid = some uid)
    (held : object.metadata.hasFinalizer cleanupFinalizer = true) :
    Apart (accounts settings w owner held) := by
  have stage : ∀ (s : StageRun) (rest : List (Account settings w uid object)),
      s.condition ∉ rest.map (·.type) → Apart rest → Apart (s.account owner :: rest) :=
    fun s rest types h => apart_of_types types (fun _ _ h => StageRun.count_turn h) h
  unfold accounts
  refine apart_of_unspoken (fun _ => ⟨rfl, rfl⟩) ?_
  refine apart_of_unspoken (fun _ => ⟨rfl, rfl⟩) ?_
  refine apart_of_types (of_decide_eq_true rfl) ?_ ?_
  · intro x t h
    cases h
    exact count_providerTurn
  refine apart_of_unspoken (fun _ => ⟨rfl, rfl⟩) ?_
  refine apart_of_unspoken (fun _ => ⟨rfl, rfl⟩) ?_
  refine apart_of_unspoken (fun _ => ⟨rfl, rfl⟩) ?_
  refine stage _ _ (of_decide_eq_true rfl) ?_
  refine stage _ _ (of_decide_eq_true rfl) ?_
  refine stage _ _ (of_decide_eq_true rfl) ?_
  refine apart_of_silent rfl (fun x t h _ => by cases h; rfl) ?_ ?_
  · refine .inr (List.forall_mem_cons.2 ⟨?_, List.forall_mem_cons.2 ⟨?_, nofun⟩⟩)
    · intro x t h
      cases h
      exact count_connectionTurn
    · intro x t h
      cases h
      rfl
  refine apart_of_silent rfl ?_ (.inl ?_) ?_
  · intro x t h go
    obtain rfl := Option.some.inj h
    exact says_connectionTurn go
  · intro x t h
    cases h
    exact count_connectionTurn
  refine ⟨.inl nofun, .inr nofun, trivial⟩
end Plays

end Provisioning

end InfraOperator
