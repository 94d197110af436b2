import InfraOperator.Cycle.Pipeline
import InfraOperator.Proofs.Delays
import InfraOperator.Proofs.Runs

/-!
# How a status is persisted

A status is written under the version that was read. After a conflict the resource is read anew, its
version is taken over, and the status is written once more, up to three times in all. `Try` is one
attempt with all the ways it may end, `Tries` the attempts in a row; every whole run is one of those
(`exists_tries_of_persist`).
-/

set_option autoImplicit false

namespace InfraOperator

namespace StatusStore

variable {S : Interface} {R : Type} [Resource R]

/-- One attempt under a version: how it ends, and under which version the next one would be. -/
inductive Try (store : StatusStore S R) (r : R) (version : Option String) :
    List (Answered (Surroundings S)) → Outcome Unit → Option String → Prop
  | written {run : List (Answered (Surroundings S))}
      (wrote : (store.write (Resource.withResourceVersion r version)).Reaches run
        (.done (.ok ()))) : Try store r version run (.ok ()) version
  | refused {run : List (Answered (Surroundings S))} {e : Failure}
      (wrote : (store.write (Resource.withResourceVersion r version)).Reaches run
        (.done (.error e)))
      (final : e.isConflict = false) : Try store r version run (.error e) version
  | renewed {run reading : List (Answered (Surroundings S))} {e : Failure} {fresh : R}
      (wrote : (store.write (Resource.withResourceVersion r version)).Reaches run
        (.done (.error e)))
      (conflict : e.isConflict = true)
      (read : (store.reload (Resource.withResourceVersion r version)).Reaches reading
        (.done (.ok (some fresh)))) :
      Try store r version (run ++ reading) (.error e) (Resource.metadata fresh).resourceVersion
  | gone {run reading : List (Answered (Surroundings S))} {e : Failure}
      (wrote : (store.write (Resource.withResourceVersion r version)).Reaches run
        (.done (.error e)))
      (conflict : e.isConflict = true)
      (read : (store.reload (Resource.withResourceVersion r version)).Reaches reading
        (.done (.ok none))) : Try store r version (run ++ reading) (.error e) version
  | unread {run reading : List (Answered (Surroundings S))} {e e' : Failure}
      (wrote : (store.write (Resource.withResourceVersion r version)).Reaches run
        (.done (.error e)))
      (conflict : e.isConflict = true)
      (read : (store.reload (Resource.withResourceVersion r version)).Reaches reading
        (.done (.error e'))) : Try store r version (run ++ reading) (.error e') version

variable {store : StatusStore S R} {r : R} {run : List (Answered (Surroundings S))}

theorem try_of_attempt {version version' : Option String} {result : Outcome Unit}
    (reached : ((store.attempt r).run version).Reaches run (.done (result, version'))) :
    Try store r version run result version' := by
  simp only [attempt, StateT.run_bind, StateT.run_get, liftM, StateT.run_monadLift,
    monadLift_self, bind_assoc, pure_bind] at reached
  obtain ⟨writing, run, wrote, rfl, writes, reached⟩ := Program.reaches_bind reached
  cases wrote with
  | ok value =>
    cases reached
    rw [List.append_nil]
    exact .written writes
  | error e =>
    cases conflict : e.isConflict with
    | false =>
      simp only [conflict] at reached
      cases reached
      rw [List.append_nil]
      exact .refused writes conflict
    | true =>
      simp only [conflict, if_true, StateT.run_bind, StateT.run_monadLift, monadLift_self,
        bind_assoc, pure_bind] at reached
      obtain ⟨reading, run, fresh, rfl, reads, reached⟩ := Program.reaches_bind reached
      rcases fresh with e' | _ | fresh
      · cases reached
        rw [List.append_nil]
        exact .unread writes conflict reads
      · cases reached
        rw [List.append_nil]
        exact .gone writes conflict reads
      · cases reached
        rw [List.append_nil]
        exact .renewed writes conflict reads

/-- Attempts in a row, with so many more after the first: each later one follows a conflict, after a
line of log and a wait. -/
inductive Tries (store : StatusStore S R) (r : R) :
    Nat → Option String → List (Answered (Surroundings S)) → Outcome Unit → Prop
  | ended {left : Nat} {version version' : Option String}
      {run : List (Answered (Surroundings S))} {result : Outcome Unit}
      (once : Try store r version run result version')
      (final : ∀ e, result = .error e → e.isConflict = false) :
      Tries store r left version run result
  | exhausted {version version' : Option String} {run : List (Answered (Surroundings S))}
      {e : Failure} {line : LogLine} (once : Try store r version run (.error e) version')
      (conflict : e.isConflict = true) :
      Tries store r 0 version (run ++ [⟨.log line, ()⟩]) (.error e)
  | again {left : Nat} {version version' : Option String}
      {run later : List (Answered (Surroundings S))} {e : Failure} {line : LogLine} {span : Span}
      {result : Outcome Unit} (once : Try store r version run (.error e) version')
      (conflict : e.isConflict = true) (more : Tries store r left version' later result) :
      Tries store r (left + 1) version (run ++ ⟨.log line, ()⟩ :: ⟨.wait span, ()⟩ :: later) result

/-- The first of some attempts: it is the last one too unless it ends in a conflict. -/
theorem exists_tries_of_first {left : Nat} {version : Option String}
    {next : Outcome Unit →
      StateT (Option String) (Program (Surroundings S)) (Retried Failure Unit)}
    {v : Retried Failure Unit × Option String}
    (reached : ((store.attempt r >>= next).run version).Reaches run (.done v))
    (done : next (.ok ()) = pure (.ended (.ok ())))
    (final : ∀ e, e.isConflict = false → next (.error e) = pure (.ended (.error e)))
    (conflicted : ∀ e version' trying later, Try store r version trying (.error e) version' →
      e.isConflict = true → ((next (.error e)).run version').Reaches later (.done v) →
      ∃ result, v.1 = .ended result ∧ Tries store r left version (trying ++ later) result) :
    ∃ result, v.1 = .ended result ∧ Tries store r left version run result := by
  rw [StateT.run_bind] at reached
  obtain ⟨trying, later, ⟨result, version'⟩, rfl, tries, reached⟩ := Program.reaches_bind reached
  have once := try_of_attempt tries
  cases result with
  | ok value =>
    simp only [done] at reached
    cases reached
    rw [List.append_nil]
    exact ⟨.ok value, rfl, .ended once nofun⟩
  | error e =>
    cases conflict : e.isConflict with
    | true => exact conflicted e version' trying later once conflict reached
    | false =>
      simp only [final e conflict] at reached
      cases reached
      rw [List.append_nil]
      refine ⟨.error e, rfl, .ended once ?_⟩
      intro e' same
      cases same
      exact conflict

theorem exists_tries_of_attempts {c : RetryConfig} (moderate : c.Moderate) {name : String}
    {left attempt : Nat} {delay : Span} {version : Option String}
    {v : Retried Failure Unit × Option String} (short : delay.Moderate)
    (reached : ((Retry.attempts hooks c name Failure.isConflict (store.attempt r) left attempt
      delay).run version).Reaches run (.done v)) :
    ∃ result, v.1 = .ended result ∧ Tries store r left version run result := by
  induction left generalizing attempt delay version run with
  | zero =>
    rw [Retry.attempts] at reached
    apply exists_tries_of_first reached rfl
    · intro e final
      simp only [final, Bool.false_eq_true, if_false]
    · intro e version' trying later once conflict reached
      simp only [conflict, if_true] at reached
      cases reached with
      | told reached =>
        cases reached
        exact ⟨.error e, rfl, .exhausted once conflict⟩
  | succ left ih =>
    rw [Retry.attempts] at reached
    apply exists_tries_of_first reached rfl
    · intro e final
      simp only [final, Bool.false_eq_true, if_false]
    · intro e version' trying later once conflict reached
      have drawn : (Jitter.one.spread delay).held? = some (Jitter.one.spread delay) :=
        Span.held?_of_lt (Jitter.one.spread_lt short)
      simp only [conflict, if_true, hooks, pure_bind, drawn, moderate.nextDelay?_eq] at reached
      cases reached with
      | told reached =>
        cases reached with
        | told reached =>
          obtain ⟨result, ended, more⟩ := ih (moderate.grow delay) reached
          exact ⟨result, ended, .again once conflict more⟩

/-- What a failure to write comes to: that the object is gone is none while it is being deleted. -/
def forgiven (deleting : Bool) : Outcome Unit → Outcome Unit
  | .ok () => .ok ()
  | .error e => if deleting && e.isNotFound then .ok () else .error e

/-- The status is written at least once and at most three times, the first time under the version
that was read. -/
theorem exists_tries_of_persist {deleting : Bool} {persisted : Outcome Unit}
    (reached : (store.persist r deleting).Reaches run (.done persisted)) :
    ∃ result, Tries store r 2 (Resource.metadata r).resourceVersion run result ∧
      persisted = forgiven deleting result := by
  unfold persist at reached
  obtain ⟨first, run, retried, rfl, attempts, reached⟩ := Program.reaches_bind reached
  obtain ⟨trying, last, v, rfl, tries, mapped⟩ := Program.reaches_bind attempts
  obtain ⟨result, ended, tries⟩ := exists_tries_of_attempts RetryConfig.moderate_statusWrite
    RetryConfig.moderate_statusWrite.first tries
  cases mapped
  refine ⟨result, ?_⟩
  simp only [ended] at reached
  cases result with
  | ok value =>
    cases reached
    rw [List.append_nil, List.append_nil]
    exact ⟨tries, rfl⟩
  | error e =>
    cases reached
    rw [List.append_nil, List.append_nil]
    exact ⟨tries, rfl⟩

end StatusStore

end InfraOperator
