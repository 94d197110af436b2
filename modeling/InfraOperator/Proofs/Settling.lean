import InfraOperator.Proofs.Observed

/-!
# How a cycle is settled

After its steps a cycle writes its status, reads the resource anew after a conflict, and tells of
its conditions. It asks nothing else, and what it has found out stays as it is. A whole cycle asks
what its steps ask, and what it takes to settle it (`Pipeline.only_execute`).
-/

set_option autoImplicit false

namespace InfraOperator

variable {S : Interface}

namespace StatusStore

variable {P : Surroundings.Request S → Prop}

theorem only_attempts {τ ε α : Type} {c : RetryConfig} {name : String} {again : ε → Bool}
    {operation : StateT τ (Program (Surroundings S)) (Except ε α)}
    (wait : ∀ span, P (.wait span)) (log : ∀ line, P (.log line))
    (asks : ∀ t, (operation.run t).Only P fun _ => True) (left attempt : Nat) (delay : Span)
    (t : τ) :
    ((Retry.attempts hooks c name again operation left attempt delay).run t).Only P
      fun _ => True := by
  induction left generalizing attempt delay t with
  | zero =>
    rw [Retry.attempts, StateT.run_bind]
    refine (asks t).bind ?_
    rintro ⟨result, t⟩ -
    cases result with
    | ok value => trivial
    | error e =>
      by_cases more : again e = true
      · simp only [more, if_true]
        exact ⟨log _, fun _ => trivial⟩
      · simp only [more]
        trivial
  | succ left ih =>
    rw [Retry.attempts, StateT.run_bind]
    refine (asks t).bind ?_
    rintro ⟨result, t⟩ -
    cases result with
    | ok value => trivial
    | error e =>
      by_cases more : again e = true
      · simp only [more, if_true, hooks, pure_bind]
        cases (Jitter.one.spread delay).held? with
        | none => trivial
        | some span =>
          refine ⟨log _, fun _ => ⟨wait _, fun _ => ?_⟩⟩
          cases c.nextDelay? delay with
          | none => trivial
          | some next => exact ih (attempt + 1) next t
      · simp only [more]
        trivial

variable {R : Type} [Resource R] {store : StatusStore S R} {r : R}

theorem only_attempt
    (write : ∀ version, (store.write (Resource.withResourceVersion r version)).Only P
      fun _ => True)
    (reload : ∀ version, (store.reload (Resource.withResourceVersion r version)).Only P
      fun _ => True) (version : Option String) :
    ((store.attempt r).run version).Only P fun _ => True := by
  simp only [attempt, StateT.run_bind, StateT.run_get, liftM, StateT.run_monadLift,
    monadLift_self, bind_assoc, pure_bind]
  refine (write version).bind fun written _ => ?_
  cases written with
  | ok value => trivial
  | error e =>
    by_cases conflict : e.isConflict = true
    · simp only [conflict, if_true, StateT.run_bind, StateT.run_monadLift, monadLift_self,
        bind_assoc, pure_bind]
      refine (reload version).bind fun fresh _ => ?_
      rcases fresh with e | _ | fresh <;> trivial
    · simp only [conflict]
      trivial

/-- A status is persisted by writing it, and by reading the resource anew between the attempts. -/
theorem only_persist {deleting : Bool} (wait : ∀ span, P (.wait span))
    (log : ∀ line, P (.log line))
    (write : ∀ version, (store.write (Resource.withResourceVersion r version)).Only P
      fun _ => True)
    (reload : ∀ version, (store.reload (Resource.withResourceVersion r version)).Only P
      fun _ => True) : (store.persist r deleting).Only P fun _ => True := by
  unfold persist
  have retried : ((Retry.retryIf hooks .statusWrite "write_status" Failure.isConflict
      (store.attempt r)).run' (Resource.metadata r).resourceVersion).Only P fun _ => True :=
    (only_attempts wait log (only_attempt write reload) _ _ _ _).bind fun _ _ => trivial
  refine retried.bind fun result _ => ?_
  rcases result with (e | _) | _ <;> trivial

end StatusStore

namespace Supervised

variable {P Q : Surroundings.Request S → Prop}

def Plain (P : Surroundings.Request S → Prop) : Supervised.Request S → Prop
  | .plain r => P r
  | _ => False

def Within (P : Surroundings.Request S → Prop) : Supervised.Request S → Prop
  | .cancelled => True
  | .plain r | .watched r => P r

theorem Within.mono {r : Supervised.Request S} (h : Within P r) (le : ∀ r, P r → Q r) :
    Within Q r := by
  cases r with
  | cancelled => trivial
  | plain r => exact le r h
  | watched r => exact le r h

theorem Plain.within {r : Supervised.Request S} (h : Plain P r) : Within P r := by
  cases r with
  | cancelled => trivial
  | plain r => exact h
  | watched r => exact h.elim

/-- A call that is shown was asked for. -/
theorem Within.of_mem_calls {e : Answered (Supervised S)} {call : StoreCall S}
    (h : Within P e.request) (shown : call ∈ calls e) : P (.store call.request) := by
  rcases asks_of_mem_calls shown with asked | asked
  all_goals
    rw [asked] at h
    exact h

/-- What holds of all that a program asks holds of the calls along each run of it. -/
theorem called_of_only {α : Type} {R : α → Prop} {T : (Supervised S).Request → Prop}
    {p rest : Program (Supervised S) α} {run : List (Answered (Supervised S))}
    {call : StoreCall S} (h : p.Only T R) (within : ∀ r, T r → Within P r)
    (reached : p.Reaches run rest) (called : call ∈ run.flatMap calls) :
    P (.store call.request) := by
  obtain ⟨e, he, shown⟩ := List.mem_flatMap.1 called
  exact (within _ (h.asked reached e he)).of_mem_calls shown

theorem only_unwatched {α : Type} {P : Surroundings.Request S → Prop} {R : α → Prop}
    {p : Program (Surroundings S) α} (h : p.Only P R) :
    (unwatched p).Only (Plain P) R :=
  h.interpret fun _ asks => ⟨asks, fun _ => trivial⟩

end Supervised

namespace Pipeline

variable {R X : Type} [Resource R] {P : Surroundings.Request S → Prop}

def noticeOf (object : ObjectReference) (e : ConditionEvent) : Notice :=
  ⟨object, e.isWarning, e.reason.text, e.condition, some e.message⟩

theorem only_publishEvents {object : ObjectReference} (events : List ConditionEvent)
    (measure : ∀ m, P (.measure m)) (tell : ∀ e ∈ events, P (.publish (noticeOf object e))) :
    (publishEvents (S := S) (R := R) object events).Only (Supervised.Plain P)
      fun _ => True := by
  induction events with
  | nil => trivial
  | cons e rest ih =>
    refine ⟨measure _, fun _ => ⟨tell e (List.mem_cons_self ..), fun _ => ?_⟩⟩
    exact ih fun e h => tell e (List.mem_cons_of_mem _ h)

theorem only_settle {p : Pipeline S R X} {store : StatusStore S R} {outcome : Outcome Directive}
    {c : Cycle R X} (prompt : ∀ r, r.suspends = false → P r) (wait : ∀ span, P (.wait span))
    (write : ∀ version, (store.write (Resource.withResourceVersion c.resource version)).Only P
      fun _ => True)
    (reload : ∀ version, (store.reload (Resource.withResourceVersion c.resource version)).Only P
      fun _ => True)
    (tell : ∀ e ∈ c.events, P (.publish (noticeOf (Resource.reference c.resource) e))) :
    (p.settle store outcome c).Only (Supervised.Plain P) fun v =>
      (v.1 = outcome ∨ ∃ e, v.1 = .error e) ∧ v.2.resource = c.resource ∧
        v.2.scratch = c.scratch := by
  have persisted : (writeStatus store c).Only (Supervised.Plain P) fun _ => True := by
    unfold writeStatus
    split
    · exact Supervised.only_unwatched
        (StatusStore.only_persist wait (fun _ => prompt _ rfl) write reload)
    · trivial
  refine persisted.bind fun result _ => ?_
  have finish : ∀ (result : Outcome Directive) (c' : Cycle R X),
      (result = outcome ∨ ∃ e, result = .error e) → c'.resource = c.resource →
      c'.scratch = c.scratch → (do
        Supervised.plain (.measure (.reconcileFinished (Resource.kind R) (outcomeLabel result)))
        return (result, c') : Program (Supervised S) _).Only (Supervised.Plain P) fun v =>
          (v.1 = outcome ∨ ∃ e, v.1 = .error e) ∧ v.2.resource = c.resource ∧
            v.2.scratch = c.scratch :=
    fun _ _ h hr hx => ⟨prompt _ rfl, fun _ => ⟨h, hr, hx⟩⟩
  rcases outcome with e | directive <;> rcases result with e' | value
  · exact ⟨prompt _ rfl, fun _ => finish _ _ (.inl rfl) rfl rfl⟩
  · refine (only_publishEvents (R := R) c.events (fun _ => prompt _ rfl) tell).bind fun _ _ => ?_
    exact finish _ _ (.inl rfl) rfl rfl
  · exact finish _ _ (.inr ⟨e', rfl⟩) rfl rfl
  · refine (only_publishEvents (R := R) c.events (fun _ => prompt _ rfl) tell).bind fun _ _ => ?_
    exact finish _ _ (.inl rfl) rfl rfl

/-! ## Whole cycles -/

open Supervised (Within)

variable (Inv : Cycle R X → Prop)

omit [Resource R] in
theorem safe_runSteps {P : List (StoreCall S) → Surroundings.Request S → Prop}
    {E : List (StoreCall S) → Outcome Directive → Cycle R X → Prop} {name : String}
    {steps : List (Step S R X)} {c : Cycle R X} {past : List (StoreCall S)}
    (kept : Keeps (fun past _ r => P past r) E (observeSteps name steps c) past)
    (prompt : ∀ past r, r.suspends = false → P past r) :
    (runSteps name steps c).Safe Supervised.calls (fun past => Within (P past))
      (fun past v => E past v.1 v.2) past := by
  rw [← forget_observeSteps]
  refine Program.Safe.forget (kept.mono (fun past r allowed => ?_) fun _ _ h => h)
  obtain ⟨c, r⟩ := r
  have asked : ∀ q : Surroundings.Request S, (q.suspends → P past q) → P past q := by
    intro q h
    cases slow : q.suspends with
    | false => exact prompt past q slow
    | true => exact h slow
  cases r with
  | cancelled => trivial
  | plain q => exact asked q allowed
  | watched q => exact asked q allowed

omit [Resource R] in
theorem only_runSteps {name : String} {steps : List (Step S R X)} {c : Cycle R X}
    (prompt : ∀ r, r.suspends = false → P r)
    (each : ∀ step ∈ steps, ∀ c, Inv c →
      step.run.Does c (Staged.From c fun _ r => P r) (fun _ _ c' => Inv c') [])
    (start : Inv c) : (runSteps name steps c).Only (Within P) fun v => Inv v.2 :=
  (safe_runSteps (keeps_of_forall each [] start) fun _ => prompt).only

/-- A whole cycle asks what its steps ask, and what it takes to write the status they leave. -/
theorem only_execute {p : Pipeline S R X} {store : StatusStore S R}
    {c : Cycle R X}
    (prompt : ∀ r, r.suspends = false → P r) (wait : ∀ span, P (.wait span))
    (tell : ∀ notice, P (.publish notice))
    (write : ∀ c, Inv c → ∀ version,
      (store.write (Resource.withResourceVersion c.resource version)).Only P fun _ => True)
    (reload : ∀ r, (store.reload r).Only P fun _ => True)
    (each : ∀ step ∈ p.steps, ∀ c, Inv c →
      step.run.Does c (Staged.From c fun _ r => P r) (fun _ _ c' => Inv c') [])
    (start : Inv c) : (p.execute store c).Only (Within P) fun _ => True := by
  refine (only_runSteps Inv prompt each start).bind ?_
  rintro ⟨outcome, c'⟩ kept
  refine (only_settle prompt wait (write c' kept) (fun _ => reload _) fun _ _ => tell _).mono ?_
    fun _ _ => trivial
  exact fun _ plain => plain.within

end Pipeline

end InfraOperator
