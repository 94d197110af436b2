import InfraOperator.Cycle.Program

/-!
# Runs of a program

A run of a program lists the requests it has asked so far with their answers. What a program may do
whatever it is answered is a recursion on its tree (`Safe`), and what holds of the tree holds along
every run of it (`Safe.asked`, `Safe.invariant`). A view selects how much of the past is spoken of.
-/

set_option autoImplicit false

namespace InfraOperator

structure Answered (I : Interface) where
  request : I.Request
  answer : I.Answer request

theorem exists_parted {α β : Type} {entries : List α} {n : Nat} {f : α → Option β} {found : β}
    (h : (entries.drop n).head?.bind f = some found) :
    ∃ entry post, entries = entries.take n ++ entry :: post ∧ f entry = some found := by
  obtain ⟨entry, first, finds⟩ := Option.bind_eq_some_iff.1 h
  obtain ⟨post, dropped⟩ := List.head?_eq_some_iff.1 first
  refine ⟨entry, post, ?_, finds⟩
  rw [← dropped, List.take_append_drop]

namespace Program

variable {I : Interface} {α β σ ι : Type}

/-- The program asks these requests, is answered so, and `rest` is what is left of it. -/
inductive Reaches : Program I α → List (Answered I) → Program I α → Prop
  | here (p : Program I α) : Reaches p [] p
  | told {r : I.Request} {next : I.Answer r → Program I α} {answer : I.Answer r}
      {run : List (Answered I)} {rest : Program I α} (h : Reaches (next answer) run rest) :
      Reaches (.ask r next) (⟨r, answer⟩ :: run) rest

/-- Whatever the program is answered, each request is allowed when it is asked and the value is
right when it ends. Both are judged by what the view shows of the past. -/
def Safe (view : Answered I → List ι) (ask : List ι → I.Request → Prop)
    (ends : List ι → α → Prop) : Program I α → List ι → Prop
  | .done value, past => ends past value
  | .ask r next, past =>
    ask past r ∧ ∀ answer, (next answer).Safe view ask ends (past ++ view ⟨r, answer⟩)

section Safe

variable {view : Answered I → List ι} {ask ask' : List ι → I.Request → Prop}
  {ends ends' : List ι → α → Prop} {past : List ι}

theorem Safe.mono {p : Program I α} (h : p.Safe view ask ends past)
    (hask : ∀ past r, ask past r → ask' past r)
    (hends : ∀ past value, ends past value → ends' past value) :
    p.Safe view ask' ends' past := by
  induction p generalizing past with
  | done value => exact hends _ _ h
  | ask r next ih => exact ⟨hask _ _ h.1, fun answer => ih answer (h.2 answer)⟩

theorem safe_ask_of_silent {r : I.Request} {next : I.Answer r → Program I α}
    (silent : ∀ answer, view ⟨r, answer⟩ = []) :
    (Program.ask r next).Safe view ask ends past ↔
      ask past r ∧ ∀ answer, (next answer).Safe view ask ends past := by
  refine and_congr_right fun _ => forall_congr' fun answer => ?_
  rw [silent answer, List.append_nil]

theorem safe_bind (p : Program I α) (f : α → Program I β) (ends : List ι → β → Prop) :
    (p >>= f).Safe view ask ends past ↔
      p.Safe view ask (fun past value => (f value).Safe view ask ends past) past := by
  induction p generalizing past with
  | done value => exact Iff.rfl
  | ask r next ih =>
    constructor
    · intro h
      exact ⟨h.1, fun answer => (ih answer).1 (h.2 answer)⟩
    · intro h
      exact ⟨h.1, fun answer => (ih answer).2 (h.2 answer)⟩

/-- A past from before the program changes nothing but where its own answered requests begin. -/
theorem Safe.after {p : Program I α} {own : List ι} (h : p.Safe view ask ends own)
    (past : List ι) :
    p.Safe view (fun all r => ∃ own, all = past ++ own ∧ ask own r)
      (fun all value => ∃ own, all = past ++ own ∧ ends own value) (past ++ own) := by
  induction p generalizing own with
  | done value => exact ⟨own, rfl, h⟩
  | ask r next ih =>
    refine ⟨⟨own, rfl, h.1⟩, fun answer => ?_⟩
    rw [List.append_assoc]
    exact ih answer (h.2 answer)

theorem Safe.asked {p rest : Program I α} {run : List (Answered I)}
    (h : p.Safe view ask ends past) (reached : p.Reaches run rest)
    {pre post : List (Answered I)} {e : Answered I} (parts : run = pre ++ e :: post) :
    ask (past ++ pre.flatMap view) e.request := by
  induction reached generalizing past pre with
  | here p => simp at parts
  | told _ ih =>
    cases pre with
    | nil =>
      obtain ⟨rfl, -⟩ := List.cons.inj parts
      simpa using h.1
    | cons first pre =>
      obtain ⟨rfl, later⟩ := List.cons.inj parts
      have asked := ih (h.2 _) later
      rwa [List.append_assoc, ← List.flatMap_cons] at asked

/-- The value of a whole run is right. -/
theorem Safe.ended {p : Program I α} {run : List (Answered I)} {value : α}
    (h : p.Safe view ask ends past) (reached : p.Reaches run (.done value)) :
    ends (past ++ run.flatMap view) value := by
  generalize whole : Program.done value = rest at reached
  induction reached generalizing past with
  | here p =>
    subst whole
    rw [List.flatMap_nil, List.append_nil]
    exact h
  | told _ ih =>
    have later := ih (h.2 _) whole
    rwa [List.append_assoc, ← List.flatMap_cons] at later

theorem Safe.later {p rest : Program I α} {run : List (Answered I)}
    (h : p.Safe view ask ends past) (reached : p.Reaches run rest) :
    rest.Safe view ask ends (past ++ run.flatMap view) := by
  induction reached generalizing past with
  | here p =>
    rw [List.flatMap_nil, List.append_nil]
    exact h
  | told _ ih =>
    have later := ih (h.2 _)
    rwa [List.append_assoc, ← List.flatMap_cons] at later

/-- What allowed requests keep, however they are answered, holds after every run. -/
theorem Safe.invariant {p rest : Program I α} {run : List (Answered I)} (Inv : List ι → Prop)
    (h : p.Safe view ask ends past) (reached : p.Reaches run rest) (start : Inv past)
    (keep : ∀ past e, Inv past → ask past e.request → Inv (past ++ view e)) :
    Inv (past ++ run.flatMap view) := by
  induction reached generalizing past with
  | here p => simpa using start
  | told _ ih =>
    have later := ih (h.2 _) (keep past ⟨_, _⟩ start h.1)
    rwa [List.append_assoc, ← List.flatMap_cons] at later

end Safe

theorem Reaches.split {p rest : Program I α} {pre post : List (Answered I)} {e : Answered I}
    (reached : p.Reaches (pre ++ e :: post) rest) :
    ∃ next, p.Reaches pre (.ask e.request next) ∧ (next e.answer).Reaches post rest := by
  induction pre generalizing p with
  | nil =>
    cases reached with
    | told later => exact ⟨_, .here _, later⟩
  | cons first pre ih =>
    cases reached with
    | told later =>
      obtain ⟨next, before, after⟩ := ih later
      exact ⟨next, .told before, after⟩

/-- A run in two parts is a run of the program, and one of what that leaves. -/
theorem Reaches.parted {p rest : Program I α} {run more : List (Answered I)}
    (reached : p.Reaches (run ++ more) rest) :
    ∃ middle, p.Reaches run middle ∧ middle.Reaches more rest := by
  induction run generalizing p with
  | nil => exact ⟨p, .here p, reached⟩
  | cons first run ih =>
    cases reached with
    | told reached =>
      obtain ⟨middle, before, after⟩ := ih reached
      exact ⟨middle, .told before, after⟩

theorem Reaches.append {p middle rest : Program I α} {run more : List (Answered I)}
    (reached : p.Reaches run middle) (later : middle.Reaches more rest) :
    p.Reaches (run ++ more) rest := by
  induction reached with
  | here p => exact later
  | told _ ih => exact .told (ih later)

/-- A whole run of two programs in a row is one of each. -/
theorem reaches_bind {p : Program I α} {f : α → Program I β} {run : List (Answered I)}
    {value : β} (reached : (p >>= f).Reaches run (.done value)) :
    ∃ first second middle, run = first ++ second ∧ p.Reaches first (.done middle) ∧
      (f middle).Reaches second (.done value) := by
  induction p generalizing run with
  | done middle => exact ⟨[], run, middle, rfl, .here _, reached⟩
  | ask r next ih =>
    cases reached with
    | told later =>
      obtain ⟨first, second, middle, rfl, begun, ended⟩ := ih _ later
      exact ⟨_ :: first, second, middle, rfl, .told begun, ended⟩

theorem reaches_done_iff {value value' : α} {run : List (Answered I)} :
    (Program.done value : Program I α).Reaches run (.done value') ↔ run = [] ∧ value' = value := by
  constructor
  · rintro ⟨⟩
    exact ⟨rfl, rfl⟩
  · rintro ⟨rfl, rfl⟩
    exact .here _

theorem reaches_ask_iff {r : I.Request} {next : I.Answer r → Program I α} {value : α}
    {run : List (Answered I)} :
    (Program.ask r next).Reaches run (.done value) ↔
      ∃ answer later, run = ⟨r, answer⟩ :: later ∧
        (next answer).Reaches later (.done value) := by
  constructor
  · rintro (_ | reached)
    exact ⟨_, _, rfl, reached⟩
  · rintro ⟨answer, later, rfl, reached⟩
    exact .told reached

theorem Reaches.bind {p : Program I α} {f : α → Program I β} {first second : List (Answered I)}
    {middle : α} {rest : Program I β} (reached : p.Reaches first (.done middle))
    (later : (f middle).Reaches second rest) : (p >>= f).Reaches (first ++ second) rest := by
  generalize whole : Program.done middle = left at reached
  induction reached with
  | here p =>
    subst whole
    exact later
  | told _ ih => exact .told (ih whole)

def follow (answer : (r : I.Request) → I.Answer r) : Program I α → List (Answered I)
  | .done _ => []
  | .ask r next => ⟨r, answer r⟩ :: (next (answer r)).follow answer

def finish (answer : (r : I.Request) → I.Answer r) : Program I α → α
  | .done value => value
  | .ask r next => (next (answer r)).finish answer

theorem reaches_follow (answer : (r : I.Request) → I.Answer r) (p : Program I α) :
    p.Reaches (p.follow answer) (.done (p.finish answer)) := by
  induction p with
  | done value => exact .here _
  | ask r next ih => exact .told (ih (answer r))

theorem eq_of_mem_follow {answer : (r : I.Request) → I.Answer r} {p : Program I α}
    {e : Answered I} (h : e ∈ p.follow answer) : e = ⟨e.request, answer e.request⟩ := by
  induction p with
  | done value => cases h
  | ask r next ih =>
    rcases List.mem_cons.1 h with rfl | later
    · rfl
    · exact ih _ later

def trace (answer : (r : I.Request) → σ → I.Answer r × σ) : Program I α → σ → List (Answered I)
  | .done _, _ => []
  | .ask r next, s => ⟨r, (answer r s).1⟩ :: (next (answer r s).1).trace answer (answer r s).2

theorem reaches_trace (answer : (r : I.Request) → σ → I.Answer r × σ) (p : Program I α) (s : σ) :
    p.Reaches (p.trace answer s) (.done (p.run answer s).1) := by
  induction p generalizing s with
  | done value => exact .here _
  | ask r next ih => exact .told (ih (answer r s).1 (answer r s).2)

/-- Where every request can be answered, a run that was broken off comes to an end. -/
theorem Reaches.exists_end {p rest : Program I α} {run : List (Answered I)}
    (reached : p.Reaches run rest) (answer : (r : I.Request) → I.Answer r) :
    ∃ more value, p.Reaches (run ++ more) (.done value) :=
  ⟨rest.follow answer, rest.finish answer, reached.append (reaches_follow answer rest)⟩

/-- Whatever the program is answered, it asks nothing but these requests, and ends with nothing but
these values. -/
def Only (P : I.Request → Prop) (R : α → Prop) : Program I α → Prop
  | .done value => R value
  | .ask r next => P r ∧ ∀ answer, (next answer).Only P R

section Only

variable {P Q : I.Request → Prop} {R T : α → Prop}

theorem Only.mono {p : Program I α} (h : p.Only P R) (asks : ∀ r, P r → Q r)
    (ends : ∀ value, R value → T value) : p.Only Q T := by
  induction p with
  | done value => exact ends value h
  | ask r next ih => exact ⟨asks r h.1, fun answer => ih answer (h.2 answer)⟩

theorem Only.bind {p : Program I α} {f : α → Program I β} {T : β → Prop} (h : p.Only P R)
    (hf : ∀ value, R value → (f value).Only P T) : (p >>= f).Only P T := by
  induction p with
  | done value => exact hf value h
  | ask r next ih => exact ⟨h.1, fun answer => ih answer (h.2 answer)⟩

theorem Only.ended {p : Program I α} {run : List (Answered I)} {value : α} (h : p.Only P R)
    (reached : p.Reaches run (.done value)) : R value := by
  generalize whole : Program.done value = rest at reached
  induction reached with
  | here p =>
    subst whole
    exact h
  | told _ ih => exact ih (h.2 _) whole

theorem Only.interpret {J : Interface} {Q : J.Request → Prop} {p : Program J α}
    {f : (r : J.Request) → Program I (J.Answer r)} (h : p.Only Q R)
    (hf : ∀ r, Q r → (f r).Only P fun _ => True) : (p.interpret f).Only P R := by
  induction p with
  | done value => exact h
  | ask r next ih => exact (hf r h.1).bind fun answer _ => ih answer (h.2 answer)

theorem Safe.only {p : Program I α} {view : Answered I → List ι} {past : List ι}
    (h : p.Safe view (fun _ => P) (fun _ => R) past) : p.Only P R := by
  induction p generalizing past with
  | done value => exact h
  | ask r next ih => exact ⟨h.1, fun answer => ih answer (h.2 answer)⟩

theorem Only.safe {p : Program I α} {view : Answered I → List ι} (h : p.Only P R)
    (past : List ι) :
    p.Safe view
      (fun all r => (∃ own, all = past ++ own ∧
        ∀ x ∈ own, ∃ e : Answered I, P e.request ∧ x ∈ view e) ∧ P r)
      (fun all value => (∃ own, all = past ++ own ∧
        ∀ x ∈ own, ∃ e : Answered I, P e.request ∧ x ∈ view e) ∧ R value) past := by
  suffices ∀ own : List ι, (∀ x ∈ own, ∃ e : Answered I, P e.request ∧ x ∈ view e) →
      p.Safe view
        (fun all r => (∃ own, all = past ++ own ∧
          ∀ x ∈ own, ∃ e : Answered I, P e.request ∧ x ∈ view e) ∧ P r)
        (fun all value => (∃ own, all = past ++ own ∧
          ∀ x ∈ own, ∃ e : Answered I, P e.request ∧ x ∈ view e) ∧ R value) (past ++ own) by
    simpa using this []
  induction p with
  | done value => exact fun own shown => ⟨⟨own, rfl, shown⟩, h⟩
  | ask r next ih =>
    intro own shown
    refine ⟨⟨⟨own, rfl, shown⟩, h.1⟩, fun answer => ?_⟩
    rw [List.append_assoc]
    refine ih answer (h.2 answer) _ fun x hx => ?_
    rcases List.mem_append.1 hx with hx | hx
    · exact shown x hx
    · exact ⟨⟨r, answer⟩, h.1, hx⟩

end Only

def Under (A : Answered I → Prop) (P : I.Request → Prop) (R : α → Prop) : Program I α → Prop
  | .done value => R value
  | .ask r next => P r ∧ ∀ answer, A ⟨r, answer⟩ → (next answer).Under A P R

section Under

variable {A : Answered I → Prop} {P : I.Request → Prop} {R : α → Prop}

theorem Only.under {p : Program I α} (h : p.Only P R) : p.Under A P R := by
  induction p with
  | done value => exact h
  | ask r next ih => exact ⟨h.1, fun answer _ => ih answer (h.2 answer)⟩

theorem Under.mono {p : Program I α} {T : α → Prop} (h : p.Under A P R)
    (ends : ∀ value, R value → T value) : p.Under A P T := by
  induction p with
  | done value => exact ends value h
  | ask r next ih => exact ⟨h.1, fun answer given => ih answer (h.2 answer given)⟩

theorem Under.bind {p : Program I α} {f : α → Program I β} {T : β → Prop} (h : p.Under A P R)
    (hf : ∀ value, R value → (f value).Under A P T) : (p >>= f).Under A P T := by
  induction p with
  | done value => exact hf value h
  | ask r next ih => exact ⟨h.1, fun answer given => ih answer (h.2 answer given)⟩

theorem Under.reaches {p rest : Program I α} {run : List (Answered I)} (h : p.Under A P R)
    (reached : p.Reaches run rest) (given : ∀ e ∈ run, A e) :
    (∀ e ∈ run, P e.request) ∧ rest.Under A P R := by
  induction reached with
  | here p => exact ⟨nofun, h⟩
  | told _ ih =>
    obtain ⟨later, left⟩ := ih (h.2 _ (given _ (List.mem_cons_self ..)))
      fun e he => given e (List.mem_cons_of_mem _ he)
    refine ⟨fun e he => ?_, left⟩
    rcases List.mem_cons.1 he with rfl | he
    · exact h.1
    · exact later e he

theorem exists_end_of_total (p : Program I α) (total : ∀ r, ∃ answer, A ⟨r, answer⟩) :
    ∃ run value, p.Reaches run (.done value) ∧ ∀ e ∈ run, A e := by
  induction p with
  | done value => exact ⟨[], value, .here _, nofun⟩
  | ask r next ih =>
    obtain ⟨answer, given⟩ := total r
    obtain ⟨run, value, reached, all⟩ := ih answer
    exact ⟨⟨r, answer⟩ :: run, value, .told reached, List.forall_mem_cons.2 ⟨given, all⟩⟩

/-- What is asked along a run, however it is answered. -/
theorem Only.asked {p rest : Program I α} {run : List (Answered I)} (h : p.Only P R)
    (reached : p.Reaches run rest) : ∀ e ∈ run, P e.request := by
  have under : p.Under (fun _ => True) P R := h.under
  exact (under.reaches reached fun _ _ => trivial).1

theorem Under.exists_end {p : Program I α} (h : p.Under A P R)
    (total : ∀ r, ∃ answer, A ⟨r, answer⟩) :
    ∃ run value, p.Reaches run (.done value) ∧ (∀ e ∈ run, A e) ∧ R value := by
  obtain ⟨run, value, reached, all⟩ := exists_end_of_total p total
  exact ⟨run, value, reached, all, (h.reaches reached all).2⟩

end Under

/-- Answered like this, the program ends right. That is judged by what the view shows of all that
was asked. -/
def Along (A : Answered I → Prop) (view : Answered I → List ι) (ends : List ι → α → Prop) :
    Program I α → List ι → Prop
  | .done value, past => ends past value
  | .ask r next, past =>
    ∀ answer, A ⟨r, answer⟩ → (next answer).Along A view ends (past ++ view ⟨r, answer⟩)

section Along

variable {A : Answered I → Prop} {view : Answered I → List ι} {ends ends' : List ι → α → Prop}
  {past : List ι}

theorem Along.mono {p : Program I α} (h : p.Along A view ends past)
    (le : ∀ past value, ends past value → ends' past value) : p.Along A view ends' past := by
  induction p generalizing past with
  | done value => exact le _ _ h
  | ask r next ih => exact fun answer given => ih answer (h answer given)

theorem along_bind {p : Program I α} {f : α → Program I β} {ends : List ι → β → Prop} :
    (p >>= f).Along A view ends past ↔
      p.Along A view (fun past value => (f value).Along A view ends past) past := by
  induction p generalizing past with
  | done value => exact Iff.rfl
  | ask r next ih => exact forall_congr' fun answer => imp_congr_right fun _ => ih answer

theorem along_ask_of_silent {r : I.Request} {next : I.Answer r → Program I α}
    (silent : ∀ answer, view ⟨r, answer⟩ = []) :
    (Program.ask r next).Along A view ends past ↔
      ∀ answer, A ⟨r, answer⟩ → (next answer).Along A view ends past := by
  refine forall_congr' fun answer => imp_congr_right fun _ => ?_
  rw [silent answer, List.append_nil]

theorem Along.ended {p : Program I α} {run : List (Answered I)} {value : α}
    (h : p.Along A view ends past) (reached : p.Reaches run (.done value))
    (given : ∀ e ∈ run, A e) : ends (past ++ run.flatMap view) value := by
  generalize whole : Program.done value = rest at reached
  induction reached generalizing past with
  | here p =>
    subst whole
    rw [List.flatMap_nil, List.append_nil]
    exact h
  | told _ ih =>
    obtain ⟨first, later⟩ := List.forall_mem_cons.1 given
    have ended := ih (h _ first) later whole
    rwa [List.append_assoc, ← List.flatMap_cons] at ended

end Along

end Program

end InfraOperator
