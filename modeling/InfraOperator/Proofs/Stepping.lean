import InfraOperator.Cycle.Pipeline
import InfraOperator.Proofs.Runs

/-!
# Steps in a row

The steps of a pipeline run one after the other until a verdict stops the cycle, the token is found
cancelled before a step, or a request of a step is given up. `Ran` is the whole run of the steps
with what each of them returned, one constructor for each way it may end; what holds of all whole
runs is by induction on it.
-/

set_option autoImplicit false

namespace InfraOperator

variable {S : Interface} {R X : Type}

namespace Verdict

def Passes : Verdict → Prop
  | .proceed => True
  | .requeue delay => delay = .zero
  | .requeueNow | .pause | .stop _ => False

instance : DecidablePred Passes
  | .proceed => .isTrue trivial
  | .requeue delay => inferInstanceAs (Decidable (delay = .zero))
  | .requeueNow | .pause | .stop _ => .isFalse id

def result : Verdict → Outcome Directive
  | .requeue delay => .ok (.requeue delay)
  | .requeueNow => .ok .requeueNow
  | .proceed | .pause => .ok .done
  | .stop failure => .error failure

theorem ending?_eq_none {v : Verdict} : v.ending? = none ↔ v.Passes := by
  cases v with
  | requeue delay =>
    obtain ⟨nanos⟩ := delay
    simp [ending?, Passes, Span.isZero, Span.zero]
  | _ => simp [ending?, Passes]

theorem outcome_of_ending? {v : Verdict} {ending : Ending} (h : v.ending? = some ending) :
    ending.outcome = v.result := by
  cases v with
  | requeue delay =>
    simp only [ending?, Option.ite_none_left_eq_some, Option.some.injEq] at h
    obtain ⟨-, rfl⟩ := h
    rfl
  | proceed => cases h
  | requeueNow | pause | stop =>
    cases h
    rfl

def decide (verdicts : List Verdict) : Outcome Directive :=
  match verdicts.find? fun v => ¬ v.Passes with
  | some v => v.result
  | none => .ok .done

theorem decide_cons_of_passes {v : Verdict} {rest : List Verdict} (h : v.Passes) :
    decide (v :: rest) = decide rest := by
  simp [decide, h]

theorem decide_cons_of_not_passes {v : Verdict} {rest : List Verdict} (h : ¬ v.Passes) :
    decide (v :: rest) = v.result := by
  simp [decide, h]

end Verdict

/-- The token was cancelled: it was found so between two steps, or a request was given up. -/
def Answered.Cancels : Answered (Supervised S) → Prop
  | ⟨.cancelled, found⟩ => found = true
  | ⟨.watched _, answer⟩ => answer = none
  | ⟨.plain _, _⟩ => False

namespace Supervised

def look? : Answered (Supervised S) → Option Bool
  | ⟨.cancelled, found⟩ => some found
  | _ => none

def looks (run : List (Answered (Supervised S))) : List Bool := run.filterMap look?

theorem looks_step {own run : List (Answered (Supervised S))} (h : looks own = []) :
    looks (⟨.cancelled, false⟩ :: own ++ run) = false :: looks run := by
  have split : looks (own ++ run) = looks own ++ looks run := List.filterMap_append ..
  rw [h] at split
  exact congrArg (false :: ·) split

/-- An answer to every request: whatever can be given up is. -/
def giveUp : (r : Supervised.Request S) → Supervised.Answer r
  | .cancelled => false
  | .watched _ => none
  | .plain (.store _) => .error .cancelled
  | .plain .clock => (default : Instant)
  | .plain (.publish _) | .plain (.measure _) | .plain (.log _) | .plain (.wait _) => ()

end Supervised

namespace Staged

variable {σ α : Type} {p : Program ((Surroundings S).noting σ) (α × σ)}
  {run : List (Answered (Supervised S))} {v : Option α × σ}

theorem looks_watch (reached : (watch p).Reaches run (.done v)) : Supervised.looks run = [] := by
  induction p generalizing run with
  | done value =>
    cases reached
    rfl
  | ask r next ih =>
    obtain ⟨s, r⟩ := r
    rw [watch] at reached
    split at reached
    · cases reached with
      | @told _ _ answer _ _ later =>
        cases answer with
        | none =>
          cases later
          rfl
        | some answer =>
          have rest := ih answer later
          exact rest
    · cases reached with
      | told later =>
        have rest := ih _ later
        exact rest

/-- How a whole run ends: something is returned and nothing was given up, or the last request was,
and nothing is returned. -/
inductive WatchEnds : List (Answered (Supervised S)) → Option α → Prop
  | returned {run : List (Answered (Supervised S))} {value : α} (free : ∀ e ∈ run, ¬ e.Cancels) :
      WatchEnds run (some value)
  | givenUp (before : List (Answered (Supervised S))) {last : Answered (Supervised S)}
      (free : ∀ e ∈ before, ¬ e.Cancels) (cancels : last.Cancels) :
      WatchEnds (before ++ [last]) none

theorem WatchEnds.cons {returned : Option α} {first : Answered (Supervised S)}
    (h : WatchEnds run returned) (kept : ¬ first.Cancels) : WatchEnds (first :: run) returned := by
  cases h with
  | returned free => exact .returned (List.forall_mem_cons.2 ⟨kept, free⟩)
  | givenUp before free cancels =>
    exact .givenUp (first :: before) (List.forall_mem_cons.2 ⟨kept, free⟩) cancels

theorem watchEnds_of_reaches (reached : (watch p).Reaches run (.done v)) : WatchEnds run v.1 := by
  induction p generalizing run with
  | done value =>
    cases reached
    exact .returned fun e he => absurd he List.not_mem_nil
  | ask r next ih =>
    obtain ⟨s, r⟩ := r
    rw [watch] at reached
    split at reached
    · cases reached with
      | @told _ _ answer _ _ later =>
        cases answer with
        | none =>
          cases later
          exact .givenUp [] (fun e he => absurd he List.not_mem_nil) rfl
        | some answer =>
          apply (ih answer later).cons
          intro given
          cases given
    · cases reached with
      | told later => exact (ih _ later).cons id

theorem WatchEnds.cancelled {returned : Option α} (h : WatchEnds run returned)
    {pre post : List (Answered (Supervised S))} {e : Answered (Supervised S)}
    (parts : run = pre ++ e :: post) (cancels : e.Cancels) : post = [] ∧ returned = none := by
  cases h with
  | returned free =>
    refine absurd cancels (free e ?_)
    rw [parts]
    exact List.mem_append_right _ (List.mem_cons_self ..)
  | givenUp before free =>
    rcases List.append_eq_append_iff.1 parts with ⟨front, -, later⟩ | ⟨behind, early, later⟩
    · cases front with
      | nil => exact ⟨(List.cons.inj later).2.symm, rfl⟩
      | cons first front => simp at later
    · cases behind with
      | nil => exact ⟨(List.cons.inj later).2, rfl⟩
      | cons first behind =>
        obtain ⟨rfl, -⟩ := List.cons.inj later
        refine absurd cancels (free e ?_)
        rw [early]
        exact List.mem_append_right _ (List.mem_cons_self ..)

/-- So a cancellation is looked for behind a step that returned something. -/
theorem later_of_cancels {value : α} {s : σ} {more : List (Answered (Supervised S))}
    (reached : (watch p).Reaches run (.done (some value, s)))
    {pre post : List (Answered (Supervised S))} {e : Answered (Supervised S)}
    (parts : ⟨.cancelled, false⟩ :: run ++ more = pre ++ e :: post) (cancels : e.Cancels) :
    ∃ pre, more = pre ++ e :: post := by
  have free : WatchEnds (⟨.cancelled, false⟩ :: run) (some value) :=
    (watchEnds_of_reaches reached).cons Bool.false_ne_true
  rcases List.append_eq_append_iff.1 parts with ⟨behind, -, later⟩ | ⟨front, early, later⟩
  · exact ⟨behind, later⟩
  · cases front with
    | nil => exact ⟨[], later.symm⟩
    | cons first front =>
      obtain ⟨rfl, -⟩ := List.cons.inj later
      cases (free.cancelled early cancels).2

end Staged

/-- Steps that were run, with what each returned; one that was given up returned nothing. -/
abbrev Row (S : Interface) (R X : Type) := List (Step S R X × Option Verdict)

/-- The steps run one after the other, each after a look at the token that finds it not cancelled
and from where the one before it left the cycle. -/
inductive Row.Runs : Row S R X → Cycle R X → List (Answered (Supervised S)) → Cycle R X → Prop
  | nil (c : Cycle R X) : Row.Runs [] c [] c
  | cons {step : Step S R X} {returned : Option Verdict} {rest : Row S R X}
      {c c' c'' : Cycle R X} {own run : List (Answered (Supervised S))}
      (ran : (Staged.watch (step.run.run c)).Reaches own (.done (returned, c')))
      (later : Row.Runs rest c' run c'') :
      Row.Runs ((step, returned) :: rest) c (⟨.cancelled, false⟩ :: own ++ run) c''

namespace Pipeline

/-- A whole run of the steps: the steps that were run in it, what they returned, and how it
ended. -/
inductive Ran (pipeline : String) : List (Step S R X) → Cycle R X → Row S R X →
    List (Answered (Supervised S)) → Outcome Directive → Cycle R X → Prop
  | finished (c : Cycle R X) : Ran pipeline [] c [] [] (.ok .done) c
  | cancelled (step : Step S R X) (rest : List (Step S R X)) (c : Cycle R X) :
      Ran pipeline (step :: rest) c [] [⟨.cancelled, true⟩] (.error .cancelled) c
  | abandoned {step : Step S R X} {rest : List (Step S R X)} {c c' : Cycle R X}
      {own : List (Answered (Supervised S))}
      (ran : (Staged.watch (step.run.run c)).Reaches own (.done (none, c'))) :
      Ran pipeline (step :: rest) c [(step, none)] (⟨.cancelled, false⟩ :: own)
        (.error .cancelled) c'
  | ended {step : Step S R X} {rest : List (Step S R X)} {c c' : Cycle R X}
      {own : List (Answered (Supervised S))} {verdict : Verdict} {line : LogLine}
      (ran : (Staged.watch (step.run.run c)).Reaches own (.done (some verdict, c')))
      (stops : ¬ verdict.Passes) :
      Ran pipeline (step :: rest) c [(step, some verdict)]
        (⟨.cancelled, false⟩ :: own ++ [⟨.plain (.log line), ()⟩]) verdict.result c'
  | passed {step : Step S R X} {rest : List (Step S R X)} {c c' c'' : Cycle R X}
      {own run : List (Answered (Supervised S))} {verdict : Verdict} {row : Row S R X}
      {outcome : Outcome Directive}
      (ran : (Staged.watch (step.run.run c)).Reaches own (.done (some verdict, c')))
      (passes : verdict.Passes) (later : Ran pipeline rest c' row run outcome c'') :
      Ran pipeline (step :: rest) c ((step, some verdict) :: row)
        (⟨.cancelled, false⟩ :: own ++ run) outcome c''

variable {pipeline : String} {steps : List (Step S R X)} {c c' : Cycle R X} {row : Row S R X}
  {run : List (Answered (Supervised S))} {outcome : Outcome Directive}

theorem ran_of_reaches
    (reached : (runSteps pipeline steps c).Reaches run (.done (outcome, c'))) :
    ∃ row, Ran pipeline steps c row run outcome c' := by
  induction steps generalizing c run with
  | nil =>
    cases reached
    exact ⟨[], .finished _⟩
  | cons step rest ih =>
    rw [runSteps] at reached
    cases reached with
    | @told _ _ found run _ later =>
      cases found with
      | true =>
        cases later
        exact ⟨[], .cancelled step rest _⟩
      | false =>
        change (Staged.watch (step.run.run c) >>= _).Reaches run _ at later
        obtain ⟨own, run, ⟨returned, c₁⟩, rfl, ran, later⟩ := Program.reaches_bind later
        cases returned with
        | none =>
          cases later
          rw [List.append_nil]
          exact ⟨_, .abandoned ran⟩
        | some verdict =>
          cases ending : verdict.ending? with
          | none =>
            simp only [ending] at later
            obtain ⟨row, later⟩ := ih later
            exact ⟨_, .passed ran (Verdict.ending?_eq_none.1 ending) later⟩
          | some result =>
            simp only [ending] at later
            have stops : ¬ verdict.Passes := by
              rw [← Verdict.ending?_eq_none, ending]
              exact nofun
            cases later with
            | told later =>
              cases later
              rw [Verdict.outcome_of_ending? ending]
              exact ⟨_, .ended ran stops⟩

/-- The steps that were run are the first ones of the pipeline, in order. -/
theorem Ran.row_prefix (h : Ran pipeline steps c row run outcome c') :
    row.map Prod.fst <+: steps := by
  induction h with
  | finished => exact List.nil_prefix
  | cancelled => exact List.nil_prefix
  | abandoned => exact List.cons_prefix_cons.2 ⟨rfl, List.nil_prefix⟩
  | ended => exact List.cons_prefix_cons.2 ⟨rfl, List.nil_prefix⟩
  | passed _ _ _ ih => exact List.cons_prefix_cons.2 ⟨rfl, ih⟩

def Closing : List (Answered (Supervised S)) → Prop
  | [] => True
  | [⟨.cancelled, found⟩] => found = true
  | [⟨.plain (.log _), _⟩] => True
  | _ => False

/-- The run is one of the steps that were run, and what closes it. -/
theorem Ran.exists_closing (h : Ran pipeline steps c row run outcome c') :
    ∃ own closing, run = own ++ closing ∧ row.Runs c own c' ∧ Closing closing := by
  induction h with
  | finished c => exact ⟨[], [], rfl, .nil c, trivial⟩
  | cancelled step rest c => exact ⟨[], _, rfl, .nil c, rfl⟩
  | abandoned ran =>
    exact ⟨_, [], (List.append_nil _).symm, by simpa using Row.Runs.cons ran (.nil _), trivial⟩
  | ended ran => exact ⟨_, _, rfl, by simpa using Row.Runs.cons ran (.nil _), trivial⟩
  | passed ran _ _ ih =>
    obtain ⟨own, closing, rfl, runs, closed⟩ := ih
    exact ⟨_, closing, (List.append_assoc ..).symm, .cons ran runs, closed⟩

def PassedAt (row : Row S R X) (i : Nat) : Prop :=
  ∃ step verdict, row[i]? = some (step, some verdict) ∧ verdict.Passes

theorem passedAt_cons_succ {entry : Step S R X × Option Verdict} {i : Nat} :
    PassedAt (entry :: row) (i + 1) ↔ PassedAt row i := by
  simp [PassedAt]

theorem passedAt_cons_zero {step : Step S R X} {returned : Option Verdict} :
    PassedAt ((step, returned) :: row) 0 ↔ ∃ verdict, returned = some verdict ∧ verdict.Passes := by
  constructor
  · rintro ⟨_, verdict, same, passes⟩
    cases same
    exact ⟨verdict, rfl, passes⟩
  · rintro ⟨verdict, rfl, passes⟩
    exact ⟨step, verdict, rfl, passes⟩

theorem lt_length_iff_of_stuck {Q : Prop} {i : Nat} (short : row.length ≤ 1)
    (stuck : ¬ PassedAt row 0) :
    i + 1 < row.length ↔ (∀ j < i + 1, PassedAt row j) ∧ Q := by
  constructor
  · intro ran
    omega
  · intro ran
    exact absurd (ran.1 0 (Nat.succ_pos i)) stuck

/-- A step is run exactly if all steps before it passed and the token was not found cancelled
before it. -/
theorem Ran.lt_length_iff (h : Ran pipeline steps c row run outcome c') {i : Nat}
    (hi : i < steps.length) :
    i < row.length ↔
      (∀ j < i, PassedAt row j) ∧ (Supervised.looks run)[i]? ≠ some true := by
  induction h generalizing i with
  | finished => exact absurd hi (Nat.not_lt_zero i)
  | cancelled step rest c =>
    cases i with
    | zero => simp [Supervised.looks, Supervised.look?]
    | succ i => exact lt_length_iff_of_stuck (Nat.zero_le 1) (by simp [PassedAt])
  | abandoned ran =>
    cases i with
    | zero => simp [Supervised.looks, Supervised.look?]
    | succ i =>
      apply lt_length_iff_of_stuck (by simp)
      rw [passedAt_cons_zero]
      exact nofun
  | ended ran stops =>
    cases i with
    | zero => simp [Supervised.looks, Supervised.look?]
    | succ i =>
      apply lt_length_iff_of_stuck (by simp)
      rw [passedAt_cons_zero]
      rintro ⟨verdict, same, passes⟩
      cases same
      exact stops passes
  | passed ran passes later ih =>
    rw [Supervised.looks_step (Staged.looks_watch ran)]
    cases i with
    | zero => simp
    | succ i =>
      rw [List.length_cons, Nat.add_lt_add_iff_right, ih (Nat.lt_of_succ_lt_succ hi),
        List.getElem?_cons_succ]
      refine and_congr_left fun _ => ?_
      constructor
      · intro behind j hj
        cases j with
        | zero => exact passedAt_cons_zero.2 ⟨_, rfl, passes⟩
        | succ j => exact passedAt_cons_succ.2 (behind j (Nat.lt_of_succ_lt_succ hj))
      · intro all j hj
        exact passedAt_cons_succ.1 (all (j + 1) (Nat.succ_lt_succ hj))

/-- Nothing comes after a cancellation, and nothing that a step returned counts then. -/
theorem Ran.cancelled_last (h : Ran pipeline steps c row run outcome c')
    {pre post : List (Answered (Supervised S))} {e : Answered (Supervised S)}
    (parts : run = pre ++ e :: post) (cancels : e.Cancels) :
    post = [] ∧ outcome = .error .cancelled := by
  induction h generalizing pre with
  | finished => simp at parts
  | cancelled step rest c =>
    cases pre with
    | nil => exact ⟨(List.cons.inj parts).2.symm, rfl⟩
    | cons first pre => simp at parts
  | abandoned ran =>
    cases pre with
    | nil =>
      obtain ⟨rfl, -⟩ := List.cons.inj parts
      cases cancels
    | cons first pre =>
      have ends := Staged.watchEnds_of_reaches ran
      exact ⟨(ends.cancelled (List.cons.inj parts).2 cancels).1, rfl⟩
  | ended ran stops =>
    obtain ⟨pre, last⟩ := Staged.later_of_cancels ran parts cancels
    cases pre with
    | nil =>
      obtain ⟨rfl, -⟩ := List.cons.inj last
      exact cancels.elim
    | cons first pre => simp at last
  | passed ran passes later ih =>
    obtain ⟨pre, behind⟩ := Staged.later_of_cancels ran parts cancels
    exact ih behind

/-- Without a cancellation every step that was run returned something, and what they returned
decides. -/
theorem Ran.decided (h : Ran pipeline steps c row run outcome c')
    (free : ∀ e ∈ run, ¬ e.Cancels) :
    ∃ verdicts, row.map Prod.snd = verdicts.map some ∧ outcome = Verdict.decide verdicts := by
  induction h with
  | finished => exact ⟨[], rfl, rfl⟩
  | cancelled step rest c => exact absurd rfl (free _ (List.mem_singleton_self _))
  | abandoned ran =>
    cases Staged.watchEnds_of_reaches ran with
    | givenUp before _ cancels =>
      refine absurd cancels (free _ (List.mem_cons_of_mem _ ?_))
      exact List.mem_append_right _ (List.mem_singleton_self _)
  | @ended _ _ _ _ _ verdict _ ran stops =>
    exact ⟨[verdict], rfl, (Verdict.decide_cons_of_not_passes stops).symm⟩
  | @passed _ _ _ _ _ _ _ verdict _ _ ran passes later ih =>
    obtain ⟨verdicts, returned, rfl⟩ := ih fun e he => free e (List.mem_append_right _ he)
    exact ⟨verdict :: verdicts, by rw [List.map_cons, List.map_cons, returned],
      (Verdict.decide_cons_of_passes passes).symm⟩

/-- What became of the steps in a whole run. -/
structure Account (steps : List (Step S R X)) (row : Row S R X)
    (run : List (Answered (Supervised S))) (outcome : Outcome Directive) : Prop where
  /-- The steps that were run are the first ones, each once and in order. -/
  inOrder : row.map Prod.fst <+: steps
  /-- A step is run exactly if those before it passed and the token was not found cancelled. -/
  runs_iff : ∀ i < steps.length,
    (i < row.length ↔ (∀ j < i, PassedAt row j) ∧ (Supervised.looks run)[i]? ≠ some true)
  /-- Nothing happens after a cancellation. -/
  cancelled : ∀ pre e post, run = pre ++ e :: post → e.Cancels →
    post = [] ∧ outcome = .error .cancelled
  /-- Without one the first verdict that does not pass decides. -/
  decided : (∀ e ∈ run, ¬ e.Cancels) →
    ∃ verdicts, row.map Prod.snd = verdicts.map some ∧ outcome = Verdict.decide verdicts

/-- The steps come to an end, unless a request is never answered, and however they do, it is clear
from their verdicts and from the token which were run and what came out. -/
theorem runSteps_account (pipeline : String) (steps : List (Step S R X)) (c : Cycle R X) :
    (∀ run rest, (runSteps pipeline steps c).Reaches run rest →
      ∃ more value, (runSteps pipeline steps c).Reaches (run ++ more) (.done value)) ∧
    ∀ run outcome c', (runSteps pipeline steps c).Reaches run (.done (outcome, c')) →
      ∃ row own closing, run = own ++ closing ∧ row.Runs c own c' ∧ Closing closing ∧
        Account steps row run outcome := by
  constructor
  · intro run rest reached
    exact reached.exists_end Supervised.giveUp
  · intro run outcome c' reached
    obtain ⟨row, ran⟩ := ran_of_reaches reached
    obtain ⟨own, closing, parts, runs, closed⟩ := ran.exists_closing
    refine ⟨row, own, closing, parts, runs, closed, ?_⟩
    constructor
    · exact ran.row_prefix
    · intro i hi
      exact ran.lt_length_iff hi
    · intro pre e post within cancels
      exact ran.cancelled_last within cancels
    · intro free
      exact ran.decided free

def Bell : Interface := ⟨Unit, fun _ => Unit⟩

def ringing (name : String) (verdict : Verdict) : Step Bell Unit Unit where
  name := name
  run := do
    let _ ← Staged.call (S := Bell) ()
    return verdict

def ring : (r : Supervised.Request Bell) → List Bool → Supervised.Answer r × List Bool
  | .watched (.store _), s => (if s.headD false then none else some (.ok ()), s.tail)
  | .cancelled, s => (s.headD false, s.tail)
  | r, s => (Supervised.giveUp r, s)

/-- The token is cancelled while the first step runs, which passes and is all that is run; if the
second one is given up the cycle is cancelled too, else its pause ends it. -/
theorem runSteps_account_ring :
    let steps := [ringing "a" (.requeue .zero), ringing "b" .pause, ringing "c" .proceed]
    let p := runSteps "bells" steps ⟨(), (), [], [], false⟩
    (∃ row, row.length = 1 ∧
      Account steps row (p.trace ring [false, false, true]) (.error .cancelled)) ∧
    (p.run ring [false, false, false, true]).1.1 = .error .cancelled ∧
    (p.run ring [false, false, false, false]).1.1 = .ok .done := by
  intro steps p
  have overtaken : (p.run ring [false, false, true]).1.1 = .error .cancelled := by
    decide +kernel
  constructor
  · obtain ⟨row, -, -, -, -, -, account⟩ :=
      (runSteps_account "bells" steps _).2 _ _ _ (Program.reaches_trace ring p [false, false, true])
    rw [overtaken] at account
    have first := (account.runs_iff 0 (by decide)).2 ⟨nofun, by decide +kernel⟩
    have second : ¬ 1 < row.length := by
      intro ran
      exact ((account.runs_iff 1 (by decide)).1 ran).2 (by decide +kernel)
    exact ⟨row, by omega, account⟩
  constructor
  · decide +kernel
  · decide +kernel

end Pipeline

end InfraOperator
