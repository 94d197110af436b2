import InfraOperator.Cycle.Pipeline
import InfraOperator.Proofs.Runs

/-!
# Steps that are answered

What a step returns often depends on what it is answered. Where the answers are known to be such
ones, and nothing is given up, `Staged.Returns` says what comes of a computation and what a view
shows of it; `Pipeline.along_runSteps_cons` puts a step in front of others.
-/

set_option autoImplicit false

namespace InfraOperator

variable {S : Interface} {σ α β ι : Type}

namespace Staged

def Returns (A : Answered (Supervised S) → Prop) (view : Answered (Supervised S) → List ι)
    (m : Staged S σ α) (s : σ) (ends : List ι → α → σ → Prop) (past : List ι) : Prop :=
  (watch (m.run s)).Along A view
    (fun past v => ∃ value, v.1 = some value ∧ ends past value v.2) past

section Returns

variable {A : Answered (Supervised S) → Prop} {view : Answered (Supervised S) → List ι}
  {ends ends' : List ι → α → σ → Prop} {s : σ} {past : List ι}

theorem along_watch_of_suspends {r : (Surroundings S).Request}
    (slow : Surroundings.Request.suspends r = true)
    {next : ((Surroundings S).noting σ).Answer (s, r) →
      Program ((Surroundings S).noting σ) (α × σ)}
    {ends : List ι → Option α × σ → Prop} :
    (watch (.ask (s, r) next)).Along A view ends past ↔
      ∀ answer, A ⟨.watched r, answer⟩ →
        match answer with
        | none => ends (past ++ view ⟨.watched r, none⟩) (none, s)
        | some given => (watch (next given)).Along A view ends
            (past ++ view ⟨.watched r, some given⟩) := by
  rw [watch, if_pos slow]
  refine forall_congr' fun answer => imp_congr_right fun _ => ?_
  cases answer <;> exact Iff.rfl

theorem along_watch_of_prompt {r : (Surroundings S).Request}
    (prompt : Surroundings.Request.suspends r = false)
    {next : ((Surroundings S).noting σ).Answer (s, r) →
      Program ((Surroundings S).noting σ) (α × σ)}
    {ends : List ι → Option α × σ → Prop} :
    (watch (.ask (s, r) next)).Along A view ends past ↔
      ∀ answer, A ⟨.plain r, answer⟩ →
        (watch (next answer)).Along A view ends (past ++ view ⟨.plain r, answer⟩) := by
  rw [watch, if_neg (Bool.eq_false_iff.1 prompt)]
  exact Iff.rfl

theorem Returns.mono {m : Staged S σ α} (h : Returns A view m s ends past)
    (le : ∀ past value t, ends past value t → ends' past value t) :
    Returns A view m s ends' past := by
  refine Program.Along.mono h ?_
  rintro past v ⟨value, returned, right⟩
  exact ⟨value, returned, le past value v.2 right⟩

@[simp] theorem returns_pure {value : α} :
    Returns A view (pure value : Staged S σ α) s ends past ↔ ends past value s := by
  constructor
  · rintro ⟨_, returned, right⟩
    cases returned
    exact right
  · intro right
    exact ⟨value, rfl, right⟩

@[simp] theorem returns_bind {m : Staged S σ α} {f : α → Staged S σ β}
    {ends : List ι → β → σ → Prop} :
    Returns A view (m >>= f) s ends past ↔
      Returns A view m s (fun past value t => Returns A view (f value) t ends past) past := by
  unfold Returns
  rw [StateT.run_bind]
  generalize m.run s = p
  -- On the calls of the first computation. A call that was given up ends both sides with no value.
  induction p generalizing past with
  | done v =>
    constructor
    · intro h
      exact ⟨v.1, rfl, h⟩
    · rintro ⟨value, returned, h⟩
      cases returned
      exact h
  | ask r next ih =>
    obtain ⟨t, r⟩ := r
    cases slow : r.suspends with
    | true =>
      refine (along_watch_of_suspends slow).trans (Iff.trans ?_ (along_watch_of_suspends slow).symm)
      refine forall_congr' fun answer => imp_congr_right fun _ => ?_
      cases answer with
      | none => simp
      | some answer => exact ih answer
    | false =>
      refine (along_watch_of_prompt slow).trans (Iff.trans ?_ (along_watch_of_prompt slow).symm)
      exact forall_congr' fun answer => imp_congr_right fun _ => ih answer

@[simp] theorem returns_get {ends : List ι → σ → σ → Prop} :
    Returns A view (get : Staged S σ σ) s ends past ↔ ends past s s := returns_pure

@[simp] theorem returns_modify {f : σ → σ} {ends : List ι → PUnit → σ → Prop} :
    Returns A view (modify f : Staged S σ PUnit) s ends past ↔ ends past ⟨⟩ (f s) :=
  returns_pure (s := f s)

theorem returns_ask_of_suspends {r : Surroundings.Request S} (slow : r.suspends = true)
    {ends : List ι → Surroundings.Answer r → σ → Prop} :
    Returns A view (ask r : Staged S σ _) s ends past ↔
      ∀ answer, A ⟨.watched r, answer⟩ → ∃ given, answer = some given ∧
        ends (past ++ view ⟨.watched r, answer⟩) given s := by
  refine (along_watch_of_suspends slow).trans ?_
  refine forall_congr' fun answer => imp_congr_right fun _ => ?_
  cases answer with
  | none => simp
  | some given => exact Iff.rfl

theorem returns_ask_of_prompt {r : Surroundings.Request S} (prompt : r.suspends = false)
    {ends : List ι → Surroundings.Answer r → σ → Prop} :
    Returns A view (ask r : Staged S σ _) s ends past ↔
      ∀ answer, A ⟨.plain r, answer⟩ → ends (past ++ view ⟨.plain r, answer⟩) answer s := by
  refine (along_watch_of_prompt prompt).trans ?_
  refine forall_congr' fun answer => imp_congr_right fun _ => ?_
  exact returns_pure

end Returns

end Staged

namespace Pipeline

variable {R X : Type} {A : Answered (Supervised S) → Prop}
  {view : Answered (Supervised S) → List ι}

/-- The token is never found cancelled, and neither looks at it nor lines of log are shown. -/
structure Undisturbed (A : Answered (Supervised S) → Prop)
    (view : Answered (Supervised S) → List ι) : Prop where
  free : ∀ found, A ⟨.cancelled, found⟩ → found = false
  look : ∀ found, view ⟨.cancelled, found⟩ = []
  line : ∀ line answer, view ⟨.plain (.log line), answer⟩ = []

theorem along_runSteps_cons (calm : Undisturbed A view) {pipeline : String} {step : Step S R X}
    {rest : List (Step S R X)} {c : Cycle R X} {past : List ι}
    {ends : List ι → Outcome Directive × Cycle R X → Prop}
    (ran : Staged.Returns A view step.run c
      (fun past verdict c' =>
        (verdict.ending? = none → (runSteps pipeline rest c').Along A view ends past) ∧
        ∀ ending, verdict.ending? = some ending → ends past (ending.outcome, c')) past) :
    (runSteps pipeline (step :: rest) c).Along A view ends past := by
  rw [runSteps]
  refine (Program.along_ask_of_silent calm.look).2 fun found given => ?_
  cases calm.free found given
  change (Staged.watch (step.run.run c) >>= _).Along A view ends past
  refine Program.along_bind.2 (Program.Along.mono ran ?_)
  rintro past ⟨_, c'⟩ ⟨verdict, rfl, passes, ended⟩
  cases ending : verdict.ending? with
  | none =>
    simp only [ending]
    exact passes ending
  | some result =>
    simp only [ending]
    exact (Program.along_ask_of_silent (calm.line _)).2 fun _ _ => ended result ending

end Pipeline

end InfraOperator
