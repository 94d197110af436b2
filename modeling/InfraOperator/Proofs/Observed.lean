import InfraOperator.Cycle.Pipeline
import InfraOperator.Proofs.Runs

/-!
# Observed cycles

The steps of a cycle keep its state to themselves. An observed cycle is the same program with the
state noted on every request: without the notes it is the cycle itself (`forget_observeSteps`), so
each run of a cycle is a run of the observed one. What a step may do from a state is said once for
the step (`Staged.Does`) and composed along the pipeline (`Pipeline.keeps_cons`).
-/

set_option autoImplicit false

namespace InfraOperator

/-- A call of the store with its answer, which is missing if the call was given up. -/
structure StoreCall (S : Interface) where
  request : S.Request
  answer : Option (Outcome (S.Answer request))

def Answered.bare {I : Interface} {σ : Type} (e : Answered (I.noting σ)) : Answered I :=
  ⟨e.request.2, e.answer⟩

def Answered.note {I : Interface} {σ : Type} (e : Answered (I.noting σ)) : σ := e.request.1

def Answered.AsksFor {S : Interface} {σ : Type} (e : Answered ((Supervised S).noting σ))
    (r : Surroundings.Request S) : Prop :=
  e.request.2 = .plain r ∨ e.request.2 = .watched r

namespace Surroundings

variable {S : Interface} {σ : Type}

def calls : Answered ((Surroundings S).noting σ) → List (StoreCall S)
  | ⟨(_, .store call), answer⟩ => [⟨call, some answer⟩]
  | _ => []

/-- What a request that was given up shows of a call. -/
def Request.abandoned : Request S → List (StoreCall S)
  | .store call => [⟨call, none⟩]
  | _ => []

end Surroundings

namespace Supervised

variable {S : Interface} {σ : Type}

def calls : Answered (Supervised S) → List (StoreCall S)
  | ⟨.plain (.store call), answer⟩ => [⟨call, some answer⟩]
  | ⟨.watched (.store call), answer⟩ => [⟨call, answer⟩]
  | _ => []

theorem asks_of_mem_calls {e : Answered (Supervised S)} {call : StoreCall S} (h : call ∈ calls e) :
    e.request = .plain (.store call.request) ∨ e.request = .watched (.store call.request) := by
  obtain ⟨q, answer⟩ := e
  cases q with
  | cancelled => cases h
  | plain r =>
    cases r with
    | store request =>
      obtain rfl := List.mem_singleton.1 h
      exact .inl rfl
    | _ => cases h
  | watched r =>
    cases r with
    | store request =>
      obtain rfl := List.mem_singleton.1 h
      exact .inr rfl
    | _ => cases h

def notedCalls (e : Answered ((Supervised S).noting σ)) : List (StoreCall S) := calls e.bare

def Allowed (P : List (StoreCall S) → σ → Surroundings.Request S → Prop)
    (past : List (StoreCall S)) : ((Supervised S).noting σ).Request → Prop
  | (_, .cancelled) => True
  | (s, .plain r) => P past s r
  | (s, .watched r) => P past s r

theorem Allowed.of_asksFor {P : List (StoreCall S) → σ → Surroundings.Request S → Prop}
    {past : List (StoreCall S)} {e : Answered ((Supervised S).noting σ)}
    {r : Surroundings.Request S} (h : Allowed P past e.request) (asks : e.AsksFor r) :
    P past e.note r := by
  obtain ⟨⟨s, q⟩, answer⟩ := e
  rcases asks with asked | asked
  all_goals
    obtain rfl : q = _ := asked
    exact h

theorem notedCalls_eq (e : Answered ((Supervised S).noting σ)) :
    notedCalls e = [] ∨ ∃ call, notedCalls e = [call] ∧ e.AsksFor (.store call.request) := by
  obtain ⟨⟨s, q⟩, answer⟩ := e
  cases q with
  | cancelled => exact .inl rfl
  | plain r =>
    cases r with
    | store call => exact .inr ⟨⟨call, some answer⟩, rfl, .inl rfl⟩
    | _ => exact .inl rfl
  | watched r =>
    cases r with
    | store call => exact .inr ⟨⟨call, answer⟩, rfl, .inr rfl⟩
    | _ => exact .inl rfl

theorem notedCalls_of_asksFor {e : Answered ((Supervised S).noting σ)} {r : S.Request}
    (h : e.AsksFor (.store r)) : ∃ answer, notedCalls e = [⟨r, answer⟩] := by
  obtain ⟨⟨s, q⟩, answer⟩ := e
  rcases h with asked | asked
  all_goals
    obtain rfl : q = _ := asked
    exact ⟨_, rfl⟩

/-- Where the calls of a run are parted at one of them, the run is parted at the entry that asked
for it. -/
theorem exists_split {run : List (Answered ((Supervised S).noting σ))} {call : StoreCall S}
    {pre post : List (StoreCall S)} (h : run.flatMap notedCalls = pre ++ call :: post) :
    ∃ before e after, run = before ++ e :: after ∧ before.flatMap notedCalls = pre ∧
      e.AsksFor (.store call.request) := by
  induction run generalizing pre with
  | nil => exact absurd h.symm (by simp)
  | cons e run ih =>
    rw [List.flatMap_cons] at h
    rcases notedCalls_eq e with silent | ⟨asked, only, asks⟩
    · rw [silent, List.nil_append] at h
      obtain ⟨before, e', after, rfl, rfl, asks⟩ := ih h
      exact ⟨e :: before, e', after, rfl, by rw [List.flatMap_cons, silent, List.nil_append], asks⟩
    · rw [only, List.singleton_append] at h
      cases pre with
      | nil =>
        obtain ⟨rfl, -⟩ := List.cons.inj h
        exact ⟨[], e, run, rfl, rfl, asks⟩
      | cons first pre =>
        obtain ⟨rfl, later⟩ := List.cons.inj h
        obtain ⟨before, e', after, rfl, rfl, asks'⟩ := ih later
        exact ⟨e :: before, e', after, rfl, by rw [List.flatMap_cons, only]; rfl, asks'⟩

theorem exists_asker {run : List (Answered ((Supervised S).noting σ))} {call : StoreCall S}
    (h : call ∈ run.flatMap notedCalls) :
    ∃ pre e post, run = pre ++ e :: post ∧ e.AsksFor (.store call.request) := by
  obtain ⟨pre, post, parts⟩ := List.append_of_mem h
  obtain ⟨before, e, after, run_eq, -, asks⟩ := exists_split parts
  exact ⟨before, e, after, run_eq, asks⟩

end Supervised

namespace Program

variable {I : Interface} {α β σ : Type}

def forget (p : Program (I.noting σ) α) : Program I α :=
  p.interpret fun r : σ × I.Request => request (I := I) r.2

def note (s : σ) (p : Program I α) : Program (I.noting σ) α :=
  p.interpret fun r => request (I := I.noting σ) (s, r)

theorem forget_bind (p : Program (I.noting σ) α) (f : α → Program (I.noting σ) β) :
    (p >>= f).forget = p.forget >>= fun a => (f a).forget :=
  interpret_bind _ p f

theorem forget_note (s : σ) (p : Program I α) : (p.note s).forget = p := by
  induction p with
  | done value => rfl
  | ask r next ih => exact congrArg (Program.ask r) (funext ih)

theorem Only.forget {P : I.Request → Prop} {R : α → Prop} {p : Program (I.noting σ) α}
    (h : p.Only (fun r : σ × I.Request => P r.2) R) : p.forget.Only P R :=
  h.interpret fun _ asks => ⟨asks, fun _ => trivial⟩

theorem Safe.forget {ι : Type} {view : Answered I → List ι} {ask : List ι → I.Request → Prop}
    {ends : List ι → α → Prop} {p : Program (I.noting σ) α} {past : List ι}
    (h : p.Safe (fun e => view e.bare) (fun past (r : σ × I.Request) => ask past r.2) ends past) :
    p.forget.Safe view ask ends past := by
  induction p generalizing past with
  | done value => exact h
  | ask r next ih => exact ⟨h.1, fun answer => ih answer (h.2 answer)⟩

/-- Every run of a program is one of the program with notes, without its notes. -/
theorem exists_noted_run {p : Program (I.noting σ) α} {run : List (Answered I)}
    {rest : Program I α} (h : p.forget.Reaches run rest) :
    ∃ noted rest', p.Reaches noted rest' ∧ noted.map Answered.bare = run ∧
      rest'.forget = rest := by
  induction p generalizing run with
  | done value =>
    cases h
    exact ⟨[], _, .here _, rfl, rfl⟩
  | ask r next ih =>
    cases h with
    | here => exact ⟨[], _, .here _, rfl, rfl⟩
    | @told _ _ answer _ _ h =>
      obtain ⟨noted, rest', hr, hn, hf⟩ := ih answer h
      exact ⟨⟨r, answer⟩ :: noted, rest', .told hr, by rw [List.map_cons, hn]; rfl, hf⟩

theorem safe_note {ι : Type} {view : Answered I → List ι}
    {ask : List ι → σ × I.Request → Prop} {ends : List ι → α → Prop} (s : σ) {p : Program I α}
    {past : List ι} :
    (p.note s).Safe (I := I.noting σ) (fun e => view e.bare) ask ends past ↔
      p.Safe view (fun past r => ask past (s, r)) ends past := by
  induction p generalizing past with
  | done value => exact Iff.rfl
  | ask r next ih =>
    constructor
    · intro h
      exact ⟨h.1, fun answer => ih answer |>.1 (h.2 answer)⟩
    · intro h
      exact ⟨h.1, fun answer => ih answer |>.2 (h.2 answer)⟩

theorem flatMap_bare {ι : Type} (view : Answered I → List ι)
    (noted : List (Answered (I.noting σ))) :
    (noted.map Answered.bare).flatMap view = noted.flatMap fun e => view e.bare := by
  induction noted with
  | nil => rfl
  | cons e rest ih => simp [ih]

end Program

namespace Staged

variable {S : Interface} {σ α : Type}

def observe : Program ((Surroundings S).noting σ) (α × σ) →
    Program ((Supervised S).noting σ) (Option α × σ)
  | .done (value, s) => .done (some value, s)
  | .ask (s, r) next =>
    if r.suspends then
      Program.ask (I := (Supervised S).noting σ) (s, .watched r) fun
        | none => .done (none, s)
        | some answer => observe (next answer)
    else
      Program.ask (I := (Supervised S).noting σ) (s, .plain r) fun answer =>
        observe (next answer)

theorem forget_observe (p : Program ((Surroundings S).noting σ) (α × σ)) :
    (observe p).forget = watch p := by
  induction p with
  | done value => rfl
  | ask r next ih =>
    obtain ⟨s, r⟩ := r
    simp only [observe, watch]
    split
    · refine congrArg (Program.ask _) (funext fun answer => ?_)
      cases answer with
      | none => rfl
      | some answer => exact ih answer
    · exact congrArg (Program.ask _) (funext ih)

theorem reaches_bind_iff {β : Type} {m : Staged S σ α} {f : α → Staged S σ β} {s : σ}
    {run : List (Answered ((Surroundings S).noting σ))} {v : β × σ} :
    ((m >>= f).run s).Reaches run (.done v) ↔
      ∃ first second a t, run = first ++ second ∧ (m.run s).Reaches first (.done (a, t)) ∧
        ((f a).run t).Reaches second (.done v) := by
  rw [StateT.run_bind]
  constructor
  · intro reached
    obtain ⟨first, second, ⟨a, t⟩, parts, begun, ended⟩ := Program.reaches_bind reached
    exact ⟨first, second, a, t, parts, begun, ended⟩
  · rintro ⟨first, second, a, t, rfl, begun, ended⟩
    exact begun.bind (f := fun p => (f p.1).run p.2) ended

/-- What a computation may ask of its surroundings that takes time, and how it may end: from the
state `s` and after the calls `own` that it has made. -/
def Does (m : Staged S σ α) (s : σ)
    (asks : List (StoreCall S) → σ → Surroundings.Request S → Prop)
    (ends : List (StoreCall S) → α → σ → Prop) (own : List (StoreCall S)) : Prop :=
  (m.run s).Safe Surroundings.calls (fun own r => r.2.suspends → asks own r.1 r.2)
    (fun own v => ends own v.1 v.2) own

def From (s : σ) (asks : List (StoreCall S) → Surroundings.Request S → Prop) :
    List (StoreCall S) → σ → Surroundings.Request S → Prop :=
  fun own t r => t = s ∧ asks own r

section Does

variable {β : Type} {asks : List (StoreCall S) → σ → Surroundings.Request S → Prop}
  {ends : List (StoreCall S) → α → σ → Prop} {own : List (StoreCall S)} {s : σ}

theorem Does.mono {m : Staged S σ α}
    {asks' : List (StoreCall S) → σ → Surroundings.Request S → Prop}
    {ends ends' : List (StoreCall S) → α → σ → Prop} (h : Does m s asks ends own)
    (hasks : ∀ own t r, asks own t r → asks' own t r)
    (hends : ∀ own value t, ends own value t → ends' own value t) :
    Does m s asks' ends' own :=
  Program.Safe.mono h (fun own r ask slow => hasks own r.1 r.2 (ask slow))
    fun own v => hends own v.1 v.2

/-- Earlier calls change nothing but where the own ones begin. -/
theorem Does.after {m : Staged S σ α} {ends : List (StoreCall S) → α → σ → Prop}
    (h : Does m s asks ends []) (past : List (StoreCall S)) :
    Does m s (fun all t r => ∃ own, all = past ++ own ∧ asks own t r)
      (fun all value t => ∃ own, all = past ++ own ∧ ends own value t) past := by
  have later := Program.Safe.after h past
  rw [List.append_nil] at later
  refine later.mono ?_ fun _ _ h => h
  rintro _ r ⟨own, rfl, ask⟩ slow
  exact ⟨own, rfl, ask slow⟩

@[simp] theorem does_pure {value : α} :
    Does (pure value : Staged S σ α) s asks ends own ↔ ends own value s := Iff.rfl

@[simp] theorem does_bind {m : Staged S σ α} {f : α → Staged S σ β}
    {ends : List (StoreCall S) → β → σ → Prop} :
    Does (m >>= f) s asks ends own ↔
      Does m s asks (fun own value s => Does (f value) s asks ends own) own := by
  unfold Does
  rw [StateT.run_bind, Program.safe_bind]

@[simp] theorem does_get {ends : List (StoreCall S) → σ → σ → Prop} :
    Does (get : Staged S σ σ) s asks ends own ↔ ends own s s := Iff.rfl

@[simp] theorem does_set {t : σ} {ends : List (StoreCall S) → PUnit → σ → Prop} :
    Does (set t : Staged S σ PUnit) s asks ends own ↔ ends own ⟨⟩ t := Iff.rfl

@[simp] theorem does_modify {f : σ → σ} {ends : List (StoreCall S) → PUnit → σ → Prop} :
    Does (modify f : Staged S σ PUnit) s asks ends own ↔ ends own ⟨⟩ (f s) := Iff.rfl

@[simp] theorem does_call {r : S.Request}
    {ends : List (StoreCall S) → Outcome (S.Answer r) → σ → Prop} :
    Does (call r : Staged S σ _) s asks ends own ↔
      asks own s (.store r) ∧ ∀ answer, ends (own ++ [⟨r, some answer⟩]) answer s := by
  constructor
  · intro h
    exact ⟨h.1 rfl, h.2⟩
  · intro h
    exact ⟨fun _ => h.1, h.2⟩

@[simp] theorem does_publish {notice : Notice} {ends : List (StoreCall S) → Unit → σ → Prop} :
    Does (publish notice : Staged S σ Unit) s asks ends own ↔
      asks own s (.publish notice) ∧ ends own () s := by
  refine (Program.safe_ask_of_silent fun _ => rfl).trans ?_
  constructor
  · intro h
    exact ⟨h.1 rfl, h.2 ()⟩
  · intro h
    exact ⟨fun _ => h.1, fun _ => h.2⟩

theorem does_ask_of_prompt {r : Surroundings.Request S} (prompt : r.suspends = false)
    {ends : List (StoreCall S) → Surroundings.Answer r → σ → Prop} :
    Does (ask r : Staged S σ _) s asks ends own ↔ ∀ answer, ends own answer s := by
  have calls : ∀ answer, Surroundings.calls (σ := σ) ⟨(s, r), answer⟩ = [] := by
    intro answer
    cases r <;> first | rfl | cases prompt
  refine (Program.safe_ask_of_silent calls).trans ?_
  constructor
  · intro h
    exact h.2
  · intro h
    exact ⟨fun slow => absurd (prompt.symm.trans slow) Bool.false_ne_true, h⟩

@[simp] theorem does_clock {ends : List (StoreCall S) → Instant → σ → Prop} :
    Does (clock : Staged S σ Instant) s asks ends own ↔ ∀ now, ends own now s :=
  does_ask_of_prompt rfl

@[simp] theorem does_measure {m : Measure} {ends : List (StoreCall S) → Unit → σ → Prop} :
    Does (measure m : Staged S σ Unit) s asks ends own ↔ ends own () s :=
  (does_ask_of_prompt rfl).trans ⟨fun h => h (), fun h _ => h⟩

@[simp] theorem does_log {level : LogLevel} {message : String}
    {fields : List (String × String)} {ends : List (StoreCall S) → Unit → σ → Prop} :
    Does (log level message fields : Staged S σ Unit) s asks ends own ↔ ends own () s :=
  (does_ask_of_prompt rfl).trans ⟨fun h => h (), fun h _ => h⟩

@[simp] theorem does_mark {R X : Type} [Resource R] {type : String} {m : Mark}
    {message : String} {c : Cycle R X}
    {asks : List (StoreCall S) → Cycle R X → Surroundings.Request S → Prop}
    {ends : List (StoreCall S) → Unit → Cycle R X → Prop} :
    Does (mark type m message : Staged S (Cycle R X) Unit) c asks ends own ↔
      ∀ now, ends own () (c.markAt type m message now).2 := by
  simp only [mark, does_bind, does_get, Cycle.markAt]
  split
  · rw [does_set]
    exact ⟨fun h _ => h, fun h => h default⟩
  · simp only [does_bind, does_clock, does_set]

/-- The own calls are those that were asked. -/
theorem Does.calling {m : Staged S σ α} (h : Does m s asks ends []) (C : S.Request → Prop)
    (only : ∀ own t call, asks own t (.store call) → C call) :
    Does m s (fun own t r => asks own t r ∧ ∀ call ∈ own, C call.request)
      (fun own value t => ends own value t ∧ ∀ call ∈ own, C call.request) [] := by
  suffices ∀ (p : Program ((Surroundings S).noting σ) (α × σ)) (own : List (StoreCall S)),
      (∀ call ∈ own, C call.request) →
      p.Safe Surroundings.calls (fun own r => r.2.suspends → asks own r.1 r.2)
        (fun own v => ends own v.1 v.2) own →
      p.Safe Surroundings.calls
        (fun own r => r.2.suspends → asks own r.1 r.2 ∧ ∀ call ∈ own, C call.request)
        (fun own v => ends own v.1 v.2 ∧ ∀ call ∈ own, C call.request) own from
    this (m.run s) [] nofun h
  intro p own called h
  induction p generalizing own with
  | done value => exact ⟨h, called⟩
  | ask r next ih =>
    obtain ⟨t, r⟩ := r
    refine ⟨fun slow => ⟨h.1 slow, called⟩, fun answer => ih answer _ ?_ (h.2 answer)⟩
    intro call hc
    rcases List.mem_append.1 hc with hc | hc
    · exact called call hc
    · cases r with
      | store request =>
        obtain rfl := List.mem_singleton.1 hc
        exact only own t request (h.1 rfl)
      | _ => cases hc

theorem Does.calling_from {m : Staged S σ α}
    {asks : List (StoreCall S) → Surroundings.Request S → Prop}
    (h : Does m s (From s asks) ends []) (C : S.Request → Prop)
    (only : ∀ own call, asks own (.store call) → C call) :
    Does m s (From s fun own r => asks own r ∧ ∀ call ∈ own, C call.request)
      (fun own value t => ends own value t ∧ ∀ call ∈ own, C call.request) [] := by
  refine (h.calling C fun own t call asked => only own call asked.2).mono ?_ fun _ _ _ h => h
  rintro own t r ⟨⟨rfl, asked⟩, called⟩
  exact ⟨rfl, asked, called⟩

/-- Where nothing is given up and calls are answered like this, the computation asks what it may
after calls like these, and ends as it may. -/
theorem Does.under {m : Staged S σ α} {asks : List (StoreCall S) → Surroundings.Request S → Prop}
    (h : Does m s (From s asks) ends []) {A : Answered (Supervised S) → Prop}
    {C : StoreCall S → Prop} {P : Supervised.Request S → Prop}
    (kept : ∀ r, ¬ A ⟨.watched r, none⟩) (told : ∀ e, A e → ∀ call ∈ Supervised.calls e, C call)
    (prompt : ∀ r, r.suspends = false → P (.plain r))
    (allowed : ∀ own r, (∀ call ∈ own, C call) → asks own r → P (.watched r)) :
    (watch (m.run s)).Under A P fun v =>
      ∃ own value, (∀ call ∈ own, C call) ∧ v.1 = some value ∧ ends own value v.2 := by
  suffices ∀ (p : Program ((Surroundings S).noting σ) (α × σ)) (own : List (StoreCall S)),
      (∀ call ∈ own, C call) →
      p.Safe Surroundings.calls (fun own r => r.2.suspends → From s asks own r.1 r.2)
        (fun own v => ends own v.1 v.2) own →
      (watch p).Under A P fun v =>
        ∃ own value, (∀ call ∈ own, C call) ∧ v.1 = some value ∧ ends own value v.2 from
    this (m.run s) [] nofun h
  intro p own called h
  induction p generalizing own with
  | done value => exact ⟨own, value.1, called, rfl, h⟩
  | ask r next ih =>
    obtain ⟨t, r⟩ := r
    have shown : ∀ e : Answered (Supervised S), A e →
        ∀ more, more = Supervised.calls e → ∀ call ∈ own ++ more, C call := by
      rintro e given _ rfl call hc
      rcases List.mem_append.1 hc with hc | hc
      · exact called call hc
      · exact told e given call hc
    rw [watch]
    by_cases slow : r.suspends
    · rw [if_pos slow]
      refine ⟨allowed own r called (h.1 slow).2, fun answer given => ?_⟩
      cases answer with
      | none => exact absurd given (kept r)
      | some answer =>
        refine ih answer _ (shown ⟨.watched r, some answer⟩ given _ ?_) (h.2 answer)
        cases r <;> rfl
    · rw [if_neg slow]
      refine ⟨prompt r (Bool.eq_false_iff.2 slow), fun answer given => ?_⟩
      refine ih answer _ (shown ⟨.plain r, answer⟩ given _ ?_) (h.2 answer)
      cases r <;> rfl

theorem Does.observe {m : Staged S σ α} (h : Does m s asks ends own) (past : List (StoreCall S)) :
    (observe (m.run s)).Safe Supervised.notedCalls
      (Supervised.Allowed fun all t r =>
        r.suspends → ∃ own, all = past ++ own ∧ asks own t r)
      (fun all v =>
        match v with
        | (some value, t) => ∃ own, all = past ++ own ∧ ends own value t
        | (none, t) => ∃ own r, r.suspends = true ∧ all = past ++ own ++ r.abandoned ∧
            asks own t r)
      (past ++ own) := by
  unfold Does at h
  generalize m.run s = p at h
  induction p generalizing own with
  | done value => exact ⟨own, rfl, h⟩
  | ask r next ih =>
    obtain ⟨t, r⟩ := r
    rw [Staged.observe]
    by_cases slow : r.suspends
    · rw [if_pos slow]
      refine ⟨fun _ => ⟨own, rfl, h.1 slow⟩, fun answer => ?_⟩
      cases answer with
      | none =>
        refine ⟨own, r, slow, ?_, h.1 slow⟩
        cases r <;> rfl
      | some answer =>
        have later := ih answer (h.2 answer)
        rw [← List.append_assoc] at later
        cases r <;> exact later
    · rw [if_neg slow]
      refine ⟨fun impossible => absurd impossible slow, fun answer => ?_⟩
      have later := ih answer (h.2 answer)
      rw [← List.append_assoc] at later
      cases r <;> exact later

theorem Does.returned {m : Staged S σ α} (h : Does m s asks ends [])
    {run : List (Answered (Supervised S))} {value : α} {t : σ}
    (reached : (watch (m.run s)).Reaches run (.done (some value, t))) :
    ends (run.flatMap Supervised.calls) value t := by
  rw [← forget_observe] at reached
  obtain ⟨noted, rest, ran, rfl, left⟩ := Program.exists_noted_run reached
  obtain rfl : rest = .done (some value, t) := by
    cases rest with
    | done v => exact congrArg Program.done (Program.done.inj left)
    | ask r next => cases left
  obtain ⟨own, whole, ended⟩ := (h.observe []).ended ran
  rw [Program.flatMap_bare]
  simp only [List.nil_append] at whole
  exact whole ▸ ended

end Does

end Staged

namespace Pipeline

variable {S : Interface} {R X : Type}

def observeSteps (pipeline : String) : List (Step S R X) → Cycle R X →
    Program ((Supervised S).noting (Cycle R X)) (Outcome Directive × Cycle R X)
  | [], c => return (.ok .done, c)
  | step :: rest, c => do
    if ← Program.note c Supervised.isCancelled then
      return (.error .cancelled, c)
    else
      let (verdict, c) ← Staged.observe (step.run.run c)
      match verdict with
      | none => return (.error .cancelled, c)
      | some verdict =>
        match verdict.ending? with
        | none => observeSteps pipeline rest c
        | some ending =>
          Program.note c (logStep pipeline step ending.message ending.fields)
          return (ending.outcome, c)

theorem forget_observeSteps (pipeline : String) (steps : List (Step S R X)) (c : Cycle R X) :
    (observeSteps pipeline steps c).forget = runSteps pipeline steps c := by
  induction steps generalizing c with
  | nil => rfl
  | cons step rest ih =>
    rw [observeSteps, runSteps, Program.forget_bind, Program.forget_note]
    refine congrArg _ (funext fun cancelled => ?_)
    cases cancelled with
    | true => rfl
    | false =>
      simp only [Bool.false_eq_true, if_false]
      rw [Program.forget_bind, Staged.forget_observe]
      refine congrArg _ (funext fun v => ?_)
      obtain ⟨verdict, c⟩ := v
      cases verdict with
      | none => rfl
      | some verdict =>
        simp only
        cases verdict.ending? with
        | none => exact ih c
        | some ending =>
          simp only
          rw [Program.forget_bind, Program.forget_note]
          rfl

/-- What may be asked of the surroundings, and how the steps may end, whatever is answered. -/
def Keeps (P : List (StoreCall S) → Cycle R X → Surroundings.Request S → Prop)
    (E : List (StoreCall S) → Outcome Directive → Cycle R X → Prop)
    (p : Program ((Supervised S).noting (Cycle R X)) (Outcome Directive × Cycle R X))
    (past : List (StoreCall S)) : Prop :=
  p.Safe Supervised.notedCalls
    (Supervised.Allowed fun past c r => r.suspends → P past c r)
    (fun past v => E past v.1 v.2) past

variable {P : List (StoreCall S) → Cycle R X → Surroundings.Request S → Prop}
  {E : List (StoreCall S) → Outcome Directive → Cycle R X → Prop}
  {past : List (StoreCall S)} {c : Cycle R X}

theorem safe_isCancelled {P : List (StoreCall S) → Cycle R X → Surroundings.Request S → Prop}
    {ends : List (StoreCall S) → Bool → Prop} :
    (Program.note c Supervised.isCancelled).Safe Supervised.notedCalls (Supervised.Allowed P)
      ends past ↔ ∀ cancelled, ends past cancelled :=
  (Program.safe_ask_of_silent fun _ => rfl).trans (and_iff_right trivial)

/-- What is answered at once is always allowed and adds nothing to the past. -/
theorem safe_prompt {α : Type} {r : Surroundings.Request S} (prompt : r.suspends = false)
    {f : Surroundings.Answer r → Program ((Supervised S).noting (Cycle R X)) α}
    {ends : List (StoreCall S) → α → Prop} :
    (Program.note c (Supervised.plain r) >>= f).Safe Supervised.notedCalls
      (Supervised.Allowed fun past c r => r.suspends → P past c r) ends past ↔
    ∀ answer, (f answer).Safe Supervised.notedCalls
      (Supervised.Allowed fun past c r => r.suspends → P past c r) ends past := by
  have calls : ∀ answer, Supervised.notedCalls (σ := Cycle R X) ⟨(c, .plain r), answer⟩ = [] := by
    intro answer
    cases r <;> first | rfl | cases prompt
  refine (Program.safe_ask_of_silent calls).trans ?_
  constructor
  · intro h
    exact h.2
  · intro h
    exact ⟨fun slow => absurd (prompt.symm.trans slow) Bool.false_ne_true, h⟩

theorem keeps_nil (pipeline : String) (h : E past (.ok .done) c) :
    Keeps P E (observeSteps pipeline [] c) past := h

/-- A step in front of others: it keeps to what is allowed, it may be cancelled before or in its
midst, it may end the cycle, or else the others go on from where it leaves the cycle. -/
theorem keeps_cons {pipeline : String} {step : Step S R X} {rest : List (Step S R X)}
    {asks : List (StoreCall S) → Surroundings.Request S → Prop}
    {ends : List (StoreCall S) → Verdict → Cycle R X → Prop}
    (does : step.run.Does c (Staged.From c asks) ends [])
    (allowed : ∀ own r, asks own r → P (past ++ own) c r)
    (cancelled : E past (.error .cancelled) c)
    (abandoned : ∀ own r, asks own r → r.suspends → E (past ++ own ++ r.abandoned)
      (.error .cancelled) c)
    (ended : ∀ own verdict c' ending, ends own verdict c' → verdict.ending? = some ending →
      E (past ++ own) ending.outcome c')
    (proceeds : ∀ own verdict c', ends own verdict c' → verdict.ending? = none →
      Keeps P E (observeSteps pipeline rest c') (past ++ own)) :
    Keeps P E (observeSteps pipeline (step :: rest) c) past := by
  unfold Keeps
  rw [observeSteps, Program.safe_bind, safe_isCancelled]
  intro answer
  cases answer with
  | true => exact cancelled
  | false =>
    have observed := does.observe past
    rw [List.append_nil] at observed
    rw [if_neg Bool.false_ne_true, Program.safe_bind]
    refine observed.mono ?_ ?_
    · rintro all ⟨t, r⟩ h
      cases r with
      | cancelled => trivial
      | plain r =>
        intro slow
        obtain ⟨own, rfl, rfl, asked⟩ := h slow
        exact allowed own r asked
      | watched r =>
        intro slow
        obtain ⟨own, rfl, rfl, asked⟩ := h slow
        exact allowed own r asked
    · rintro all ⟨verdict, c'⟩ h
      cases verdict with
      | none =>
        obtain ⟨own, r, slow, rfl, rfl, asked⟩ := h
        exact abandoned own r asked slow
      | some verdict =>
        obtain ⟨own, rfl, h⟩ := h
        cases ending : verdict.ending? with
        | none =>
          simp only [ending]
          exact proceeds own verdict c' h ending
        | some result =>
          simp only [ending]
          exact (safe_prompt rfl).2 fun _ => ended own verdict c' result h ending

/-- What every step allows, and keeps of the state, all of them do. -/
theorem keeps_of_forall {pipeline : String} {steps : List (Step S R X)}
    {P : Cycle R X → Surroundings.Request S → Prop} {Inv : Cycle R X → Prop}
    (each : ∀ step ∈ steps, ∀ c, Inv c →
      step.run.Does c (Staged.From c fun _ r => P c r) (fun _ _ c' => Inv c') [])
    (past : List (StoreCall S)) (start : Inv c) :
    Keeps (fun _ c r => P c r) (fun _ _ => Inv) (observeSteps pipeline steps c) past := by
  induction steps generalizing c past with
  | nil => exact start
  | cons step rest ih =>
    refine keeps_cons (each step (List.mem_cons_self ..) c start) (fun _ _ allowed => allowed)
      start (fun _ _ _ _ => start) (fun _ _ _ _ kept _ => kept) fun own verdict c' kept _ => ?_
    exact ih (fun later h => each later (List.mem_cons_of_mem _ h)) (past ++ own) kept

theorem keeps_cons_of_any_end {pipeline : String} {step : Step S R X}
    {rest : List (Step S R X)} {asks : List (StoreCall S) → Surroundings.Request S → Prop}
    {ends : List (StoreCall S) → Verdict → Cycle R X → Prop}
    (does : step.run.Does c (Staged.From c asks) ends [])
    (allowed : ∀ own r, asks own r → P (past ++ own) c r)
    (proceeds : ∀ own verdict c', ends own verdict c' → verdict.ending? = none →
      Keeps P (fun _ _ _ => True) (observeSteps pipeline rest c') (past ++ own)) :
    Keeps P (fun _ _ _ => True) (observeSteps pipeline (step :: rest) c) past :=
  keeps_cons does allowed trivial (fun _ _ _ _ => trivial) (fun _ _ _ _ _ _ => trivial) proceeds

def WhenDone (Q : List (StoreCall S) → Cycle R X → Prop) (past : List (StoreCall S))
    (outcome : Outcome Directive) (c : Cycle R X) : Prop :=
  outcome = .ok .done → Q past c

theorem pauses_of_ending {verdict : Verdict} {ending : Ending}
    (ended : verdict.ending? = some ending) (done : ending.outcome = .ok .done) :
    verdict = .pause := by
  cases verdict with
  | pause => rfl
  | requeue delay =>
    simp only [Verdict.ending?] at ended
    split at ended
    · cases ended
    · cases ended
      cases done
  | proceed => cases ended
  | requeueNow =>
    cases ended
    cases done
  | stop e =>
    cases ended
    cases done

theorem keeps_cons_whenDone {Q : List (StoreCall S) → Cycle R X → Prop} {pipeline : String}
    {step : Step S R X} {rest : List (Step S R X)}
    {asks : List (StoreCall S) → Surroundings.Request S → Prop}
    {ends : List (StoreCall S) → Verdict → Cycle R X → Prop}
    (does : step.run.Does c (Staged.From c asks) ends [])
    (paused : ∀ own c', ends own .pause c' → Q (past ++ own) c')
    (proceeds : ∀ own verdict c', ends own verdict c' → verdict.ending? = none →
      Keeps (fun _ _ _ => True) (WhenDone Q) (observeSteps pipeline rest c') (past ++ own)) :
    Keeps (fun _ _ _ => True) (WhenDone Q) (observeSteps pipeline (step :: rest) c) past := by
  refine keeps_cons does (fun _ _ _ => trivial) nofun (fun _ _ _ _ => nofun) ?_ proceeds
  intro own verdict c' ending ends ended done
  obtain rfl := pauses_of_ending ended done
  exact paused own c' ends

end Pipeline

end InfraOperator
