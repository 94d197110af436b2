import InfraOperator.Proofs.Observed
import InfraOperator.Proofs.Persisting
import InfraOperator.Proofs.Stepping

/-!
# Whole cycles of a pipeline

A cycle runs its steps, writes the status if it changed, tells of the conditions that changed unless
the write failed, and is counted as finished. Steps change their cycle in few ways
(`Cycle.Handled`): which events they record is known from their marks, and the conditions that the
cycle began with stay known.
-/

set_option autoImplicit false

namespace InfraOperator

variable {S : Interface} {R X : Type}

namespace Cycle

variable [Resource R]

def transition (c : Cycle R X) (type : String) (mark : Mark) (message : String) :
    List ConditionEvent :=
  if Conditions.shows c.conditions type mark message then [] else [⟨type, mark.reason, message⟩]

inductive Handled (c : Cycle R X) : List ConditionEvent → Cycle R X → Prop
  | untouched : Handled c [] c
  | edited {es : List ConditionEvent} {c' : Cycle R X} (h : Handled c es c') (resource : R) :
      Handled c es { c' with resource }
  | noted {es : List ConditionEvent} {c' : Cycle R X} (h : Handled c es c') (scratch : X) :
      Handled c es { c' with scratch }
  | dirtied {es : List ConditionEvent} {c' : Cycle R X} (h : Handled c es c') :
      Handled c es c'.markDirty
  | marked {es : List ConditionEvent} {c' : Cycle R X} (h : Handled c es c') (type : String)
      (mark : Mark) (message : String) (now : Instant) :
      Handled c (es ++ c'.transition type mark message) (c'.markAt type mark message now).2

variable {c c' c'' : Cycle R X} {es es' : List ConditionEvent}

theorem events_markAt {type message : String} {mark : Mark} {now : Instant} :
    (c.markAt type mark message now).2.events = c.events ++ c.transition type mark message := by
  unfold markAt transition
  split
  · exact (List.append_nil _).symm
  · rfl

theorem initialConditions_markAt {type message : String} {mark : Mark} {now : Instant} :
    (c.markAt type mark message now).2.initialConditions = c.initialConditions := by
  unfold markAt
  split <;> rfl

theorem Handled.trans (h : c.Handled es c') (later : c'.Handled es' c'') :
    c.Handled (es ++ es') c'' := by
  induction later with
  | untouched =>
    rw [List.append_nil]
    exact h
  | edited _ resource ih => exact ih.edited resource
  | noted _ scratch ih => exact ih.noted scratch
  | dirtied _ ih => exact ih.dirtied
  | marked _ type mark message now ih =>
    rw [← List.append_assoc]
    exact ih.marked type mark message now

theorem Handled.initialConditions_eq (h : c.Handled es c') :
    c'.initialConditions = c.initialConditions := by
  induction h with
  | untouched => rfl
  | edited _ _ ih => exact ih
  | noted _ _ ih => exact ih
  | dirtied _ ih => exact ih
  | marked _ _ _ _ _ ih => exact initialConditions_markAt.trans ih

theorem Handled.events_eq (h : c.Handled es c') : c'.events = c.events ++ es := by
  induction h with
  | untouched => exact (List.append_nil _).symm
  | edited _ _ ih => exact ih
  | noted _ _ ih => exact ih
  | dirtied _ ih => exact ih
  | marked _ _ _ _ _ ih => rw [events_markAt, ih, List.append_assoc]

end Cycle

variable [Resource R]

/-- However far the step gets, it has only handled its cycle. -/
def Step.Handles (step : Step S R X) : Prop :=
  ∀ c, step.run.Does c (fun _ t _ => ∃ es, c.Handled es t) (fun _ _ t => ∃ es, c.Handled es t) []

theorem Step.Handles.left {step : Step S R X} (handles : step.Handles) {c c' : Cycle R X}
    {run : List (Answered (Supervised S))} {returned : Option Verdict}
    (reached : (Staged.watch (step.run.run c)).Reaches run (.done (returned, c'))) :
    ∃ es, c.Handled es c' := by
  have ends : (Staged.observe (step.run.run c)).Safe Supervised.notedCalls (fun _ _ => True)
      (fun _ v => ∃ es, c.Handled es v.2) [] := by
    refine ((handles c).observe []).mono (fun _ _ _ => trivial) ?_
    rintro past ⟨returned, t⟩ left
    cases returned with
    | none =>
      obtain ⟨own, r, -, -, handled⟩ := left
      exact handled
    | some verdict =>
      obtain ⟨own, -, handled⟩ := left
      exact handled
  have forgotten := Program.Only.forget (P := fun _ => True) ends.only
  rw [Staged.forget_observe] at forgotten
  exact forgotten.ended reached

namespace Row

/-- Steps in a row handle their cycle one after the other. -/
theorem Runs.handled {row : Row S R X} {c c' : Cycle R X} {run : List (Answered (Supervised S))}
    (h : row.Runs c run c') (handle : ∀ step ∈ row.map Prod.fst, step.Handles) :
    ∃ es, c.Handled es c' := by
  induction h with
  | nil c => exact ⟨[], .untouched⟩
  | cons ran _ ih =>
    obtain ⟨es, first⟩ := (handle _ (List.mem_cons_self ..)).left ran
    obtain ⟨es', rest⟩ := ih fun step h => handle step (List.mem_cons_of_mem _ h)
    exact ⟨es ++ es', first.trans rest⟩

end Row

namespace Supervised

def answeredPlain (e : Answered (Surroundings S)) : Answered (Supervised S) :=
  ⟨.plain e.request, e.answer⟩

theorem reaches_plain {α : Type} {r : Surroundings.Request S}
    {f : Surroundings.Answer r → Program (Supervised S) α} {run : List (Answered (Supervised S))}
    {value : α} (reached : (plain r >>= f).Reaches run (.done value)) :
    ∃ answer later, run = answeredPlain ⟨r, answer⟩ :: later ∧
      (f answer).Reaches later (.done value) := by
  cases reached with
  | told later => exact ⟨_, _, rfl, later⟩

theorem reaches_unwatched {α : Type} {p : Program (Surroundings S) α} {value : α}
    {run : List (Answered (Supervised S))} (reached : (unwatched p).Reaches run (.done value)) :
    ∃ own, run = own.map answeredPlain ∧ p.Reaches own (.done value) := by
  induction p generalizing run with
  | done value =>
    cases reached
    exact ⟨[], rfl, .here _⟩
  | ask r next ih =>
    cases reached with
    | @told _ _ answer _ _ later =>
      obtain ⟨own, rfl, ran⟩ := ih answer later
      exact ⟨⟨r, answer⟩ :: own, rfl, .told ran⟩

end Supervised

namespace Pipeline

def telling (object : ObjectReference) (e : ConditionEvent) : List (Answered (Supervised S)) :=
  [⟨.plain (.measure (.conditionTransitioned (Resource.kind R) e.condition e.reason.text)), ()⟩,
    ⟨.plain (.publish ⟨object, e.reason ≠ .ready, e.reason.text, e.condition, some e.message⟩), ()⟩]

theorem run_of_publishEvents {object : ObjectReference} {events : List ConditionEvent}
    {run : List (Answered (Supervised S))}
    (reached : (publishEvents (S := S) (R := R) object events).Reaches run (.done ())) :
    run = events.flatMap (telling (R := R) object) := by
  induction events generalizing run with
  | nil =>
    cases reached
    rfl
  | cons e rest ih =>
    cases reached with
    | told reached =>
      cases reached with
      | told reached =>
        rw [ih reached]
        rfl

def finishes : Answered (Supervised S) → Bool
  | ⟨.plain (.measure (.reconcileFinished _ _)), _⟩ => true
  | _ => false

omit [Resource R] in
theorem countP_finishes_log {told : List (Answered (Supervised S))}
    (h : ∀ t ∈ told, ∃ line, t = ⟨.plain (.log line), ()⟩) : told.countP finishes = 0 := by
  rw [List.countP_eq_zero]
  intro t ht
  obtain ⟨line, rfl⟩ := h t ht
  exact Bool.false_ne_true

theorem countP_finishes_telling (object : ObjectReference) (events : List ConditionEvent) :
    (events.flatMap (telling (S := S) (R := R) object)).countP finishes = 0 := by
  rw [List.countP_eq_zero]
  intro t ht
  obtain ⟨e, -, told⟩ := List.mem_flatMap.1 ht
  simp only [telling, List.mem_cons, List.not_mem_nil, or_false] at told
  rcases told with rfl | rfl
  · exact Bool.false_ne_true
  · exact Bool.false_ne_true

def combined : Outcome Directive → Outcome Unit → Outcome Directive
  | .error e, _ => .error e
  | .ok _, .error e => .error e
  | .ok directive, .ok () => .ok directive

inductive Labelled : Outcome Directive → String → Prop
  | done : Labelled (.ok .done) "done"
  | requeue (delay : Span) : Labelled (.ok (.requeue delay)) "requeue"
  | requeueNow : Labelled (.ok .requeueNow) "requeue"
  | error (e : Failure) : Labelled (.error e) "error"

omit [Resource R] in
theorem labelled_outcomeLabel (result : Outcome Directive) :
    Labelled result (outcomeLabel result) := by
  rcases result with e | _ | delay | _
  · exact .error e
  · exact .done
  · exact .requeue delay
  · exact .requeueNow

variable {p : Pipeline S R X} {store : StatusStore S R} {c c' : Cycle R X}
  {run : List (Answered (Supervised S))} {outcome result : Outcome Directive}
  {persisted : Outcome Unit}

theorem run_of_report (reached : (p.report outcome persisted c).Reaches run (.done (result, c'))) :
    ∃ told, run = told ++ [⟨.plain (.measure (.reconcileFinished (Resource.kind R)
        (outcomeLabel result))), ()⟩] ∧ result = combined outcome persisted ∧
      (persisted = .ok () →
        told = c.events.flatMap (telling (R := R) (Resource.reference c.resource))) ∧
      ∀ e, persisted = .error e → ∀ t ∈ told, ∃ line, t = ⟨.plain (.log line), ()⟩ := by
  unfold report at reached
  rcases persisted with e | value
  · rcases outcome with e' | directive
    · obtain ⟨_, run, rfl, logged⟩ := Supervised.reaches_plain reached
      obtain ⟨_, run, rfl, counted⟩ := Supervised.reaches_plain logged
      cases counted
      refine ⟨[_], rfl, rfl, fun written => ?_, ?_⟩
      · cases written
      · intro _ _ t ht
        exact ⟨_, List.mem_singleton.1 ht⟩
    · obtain ⟨_, run, rfl, counted⟩ := Supervised.reaches_plain reached
      cases counted
      refine ⟨[], rfl, rfl, fun written => ?_, ?_⟩
      · cases written
      · intro _ _ t ht
        cases ht
  · obtain ⟨told, last, _, rfl, tells, finish⟩ := Program.reaches_bind reached
    cases finish with
    | told finish =>
      cases finish
      refine ⟨told, rfl, ?_, fun _ => run_of_publishEvents tells, fun e failed => ?_⟩
      · cases outcome <;> rfl
      · cases failed

theorem run_of_writeStatus
    (reached : (writeStatus store c).Reaches run (.done persisted)) :
    (c.statusChanged = true → ∃ own last, run = own.map Supervised.answeredPlain ∧
      store.Tries c.resource 2 (Resource.metadata c.resource).resourceVersion own last ∧
      persisted = StatusStore.forgiven c.isDeleting last) ∧
    (c.statusChanged = false → run = [] ∧ persisted = .ok ()) := by
  unfold writeStatus at reached
  cases changed : c.statusChanged with
  | true =>
    rw [if_pos changed] at reached
    obtain ⟨own, rfl, persists⟩ := Supervised.reaches_unwatched reached
    obtain ⟨last, tries, result⟩ := StatusStore.exists_tries_of_persist persists
    exact ⟨fun _ => ⟨own, last, rfl, tries, result⟩, nofun⟩
  | false =>
    rw [if_neg (Bool.eq_false_iff.1 changed)] at reached
    cases reached
    exact ⟨nofun, fun _ => ⟨rfl, rfl⟩⟩

def Changed (start c : Cycle R X) : Prop := c.conditions ≠ start.conditions ∨ c.dirty = true

theorem statusChanged_iff {r : R} {x : X} {es : List ConditionEvent}
    (h : (Cycle.start r x).Handled es c) :
    c.statusChanged = true ↔ Changed (Cycle.start r x) c := by
  have began : c.initialConditions = (Cycle.start r x).conditions := h.initialConditions_eq
  simp only [Cycle.statusChanged, Changed, began, Bool.or_eq_true, decide_eq_true_eq]
  exact or_comm

/-- A whole cycle: its steps leave a cycle with the events that they recorded, the status is written
exactly if it changed, what changed is told after that unless the write failed, and last the cycle
is counted, once. -/
inductive Executed (p : Pipeline S R X) (store : StatusStore S R) (start c : Cycle R X)
    (run : List (Answered (Supervised S))) (result : Outcome Directive) : Prop
  | parts {ran written told : List (Answered (Supervised S))} {outcome : Outcome Directive}
      {c' : Cycle R X} {es : List ConditionEvent} {persisted : Outcome Unit} {label : String}
      (run_eq : run = ran ++ (written ++ (told ++
        [⟨.plain (.measure (.reconcileFinished (Resource.kind R) label)), ()⟩])))
      (stepped : (p.run c).Reaches ran (.done (outcome, c')))
      (recorded : start.Handled es c')
      (attempted : Changed start c' → ∃ own last, written = own.map Supervised.answeredPlain ∧
        store.Tries c'.resource 2 (Resource.metadata c'.resource).resourceVersion own last ∧
        persisted = StatusStore.forgiven c'.isDeleting last)
      (unattempted : ¬ Changed start c' → written = [] ∧ persisted = .ok ())
      (published : persisted = .ok () →
        told = es.flatMap (telling (R := R) (Resource.reference c'.resource)))
      (withheld : ∀ e, persisted = .error e → ∀ t ∈ told, ∃ line, t = ⟨.plain (.log line), ()⟩)
      (result_eq : result = combined outcome persisted)
      (labelled : Labelled result label)
      (once : run.countP finishes = ran.countP finishes + written.countP finishes + 1) :
      Executed p store start c run result

/-- A cycle in the hands of a pipeline whose steps handle theirs comes to an end, unless a request
is never answered, and is executed as that says, however its steps and its writes end. -/
theorem execute_account (p : Pipeline S R X) (store : StatusStore S R) (r : R) (x : X)
    (c : Cycle R X) (es : List ConditionEvent) (begun : (Cycle.start r x).Handled es c)
    (steps : ∀ step ∈ p.steps, step.Handles) :
    (∀ run rest, (p.execute store c).Reaches run rest →
      ∃ more value, (p.execute store c).Reaches (run ++ more) (.done value)) ∧
    ∀ run result c', (p.execute store c).Reaches run (.done (result, c')) →
      Executed p store (Cycle.start r x) c run result := by
  constructor
  · intro run rest reached
    exact reached.exists_end Supervised.giveUp
  · intro run result c₂ reached
    obtain ⟨ran, run, ⟨outcome, c'⟩, rfl, stepped, reached⟩ := Program.reaches_bind reached
    obtain ⟨written, run, persisted, rfl, writes, reports⟩ := Program.reaches_bind reached
    obtain ⟨told, rfl, result_eq, published, withheld⟩ := run_of_report reports
    obtain ⟨changed, unchanged⟩ := run_of_writeStatus writes
    obtain ⟨row, account⟩ := ran_of_reaches stepped
    obtain ⟨own, closing, -, runs, -⟩ := account.exists_closing
    obtain ⟨es', handled⟩ := runs.handled fun step h => steps step (account.row_prefix.subset h)
    have recorded := begun.trans handled
    have same := statusChanged_iff recorded
    have silent : told.countP finishes = 0 := by
      cases persisted with
      | ok value =>
        rw [published rfl]
        exact countP_finishes_telling _ _
      | error e => exact countP_finishes_log (withheld e rfl)
    refine .parts rfl stepped recorded ?_ ?_ ?_ withheld result_eq (labelled_outcomeLabel result) ?_
    · intro wrote
      exact changed (same.2 wrote)
    · intro kept
      exact unchanged (Bool.eq_false_iff.2 fun wrote => kept (same.1 wrote))
    · intro fine
      rw [published fine, recorded.events_eq]
      rfl
    · simp only [List.countP_append, silent]
      rw [Nat.zero_add, ← Nat.add_assoc]
      rfl

end Pipeline

end InfraOperator
