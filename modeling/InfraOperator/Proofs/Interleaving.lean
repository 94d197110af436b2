import InfraOperator.Proofs.Generations
import InfraOperator.Proofs.Settling
import Mathlib.Logic.Relation

/-!
# Edits between the requests of cycles

An object is edited and read while cycles over it are under way. A scene is the object as it is
stored, as it was stored before, and what is left of the cycles that were started; a move is an
edit, a new cycle, or one request of a cycle with its answer. Answers are arbitrary: reads may be
old, writes may be refused or get lost, and a write that was refused may come again with the version
that is stored by then.
-/

set_option autoImplicit false

namespace InfraOperator

open Conditions (UpTo)
open Supervised (Within)

variable {S : Interface} {R β : Type} [Resource R]

structure Reconciler (S : Interface) (R β : Type) where
  /-- The cycle may be started for the object as it was read. -/
  starts : R → Program (Supervised S) β → Prop
  written? : S.Request → Option R

structure Edits (r r' : R) : Prop where
  generation_lt : Resource.generation r < Resource.generation r'
  version_ne : (Resource.metadata r').resourceVersion ≠ (Resource.metadata r).resourceVersion
  conditions_eq : Resource.conditions r' = Resource.conditions r

structure Touches (r r' : R) : Prop where
  generation_eq : Resource.generation r' = Resource.generation r
  version_ne : (Resource.metadata r').resourceVersion ≠ (Resource.metadata r).resourceVersion
  conditions_eq : Resource.conditions r' = Resource.conditions r

/-- The status of the object is replaced by one that was written under the version of the object,
or under none. -/
structure Overwrites (r written r' : R) : Prop where
  guarded : (Resource.metadata written).resourceVersion = none ∨
    (Resource.metadata written).resourceVersion = (Resource.metadata r).resourceVersion
  generation_eq : Resource.generation r' = Resource.generation r
  conditions_eq : Resource.conditions r' = Resource.conditions written

structure Scene (S : Interface) (R β : Type) where
  stored : R
  /-- As it was stored before. -/
  earlier : List R := []
  /-- What is left of the cycles that were started. -/
  running : List (Program (Supervised S) β) := []

namespace Scene

def states (s : Scene S R β) : List R := s.stored :: s.earlier

def store (s : Scene S R β) (r : R) : Scene S R β :=
  { s with stored := r, earlier := s.states }

/-- One thing that happens to an object or to a cycle over it. -/
inductive Move (k : Reconciler S R β) (s : Scene S R β) : Scene S R β → Prop
  | edit {r : R} (h : Edits s.stored r) : Move k s (s.store r)
  | touch {r : R} (h : Touches s.stored r) : Move k s (s.store r)
  /-- What is read of the object may be old. -/
  | begin {r : R} {p : Program (Supervised S) β} (read : r ∈ s.states) (starts : k.starts r p) :
      Move k s { s with running := p :: s.running }
  | proceed {pre post : List (Program (Supervised S) β)} {q : (Supervised S).Request}
      {next : (Supervised S).Answer q → Program (Supervised S) β} {answer : (Supervised S).Answer q}
      (h : s.running = pre ++ .ask q next :: post) :
      Move k s { s with running := pre ++ next answer :: post }
  /-- The write takes effect, whatever is answered to it. -/
  | write {pre post : List (Program (Supervised S) β)} {q : (Supervised S).Request}
      {next : (Supervised S).Answer q → Program (Supervised S) β} {answer : (Supervised S).Answer q}
      {call : S.Request} {written r : R} (h : s.running = pre ++ .ask q next :: post)
      (asks : q = .plain (.store call) ∨ q = .watched (.store call))
      (writes : k.written? call = some written) (effect : Overwrites s.stored written r) :
      Move k s ({ s with running := pre ++ next answer :: post }.store r)
  /-- Cycles end, or are lost. -/
  | leave {running : List (Program (Supervised S) β)} (h : running ⊆ s.running) :
      Move k s { s with running }

def Reachable (k : Reconciler S R β) (start : R) (s : Scene S R β) : Prop :=
  Relation.ReflTransGen (Move k) { stored := start } s

end Scene

def Reconciler.WritesUpTo (k : Reconciler S R β) (generation : Int) :
    Surroundings.Request S → Prop
  | .store call => ∀ r, k.written? call = some r → UpTo generation (Resource.conditions r)
  | _ => True

theorem Reconciler.WritesUpTo.mono {k : Reconciler S R β} {generation later : Int}
    {r : Surroundings.Request S} (h : k.WritesUpTo generation r) (le : generation ≤ later) :
    k.WritesUpTo later r := by
  cases r with
  | store call => exact fun written writes => (h written writes).mono le
  | _ => trivial

/-- Started for an object that speaks of no generation after its own, cycles write no status that
does. -/
def Reconciler.Dated (k : Reconciler S R β) : Prop :=
  ∀ r p, k.starts r p → 0 ≤ Resource.generation r →
    UpTo (Resource.generation r) (Resource.conditions r) →
    p.Only (Within (k.WritesUpTo (Resource.generation r))) fun _ => True

namespace Scene

variable {k : Reconciler S R β} {s s' : Scene S R β}

/-- No state of the object speaks of a generation after its own, and no cycle will write of one
after that of the object as it is stored now. -/
structure Current (k : Reconciler S R β) (s : Scene S R β) : Prop where
  counted : ∀ r ∈ s.states, 0 ≤ Resource.generation r
  upTo : ∀ r ∈ s.states, UpTo (Resource.generation r) (Resource.conditions r)
  latest : ∀ r ∈ s.states, Resource.generation r ≤ Resource.generation s.stored
  running : ∀ p ∈ s.running,
    p.Only (Within (k.WritesUpTo (Resource.generation s.stored))) fun _ => True

theorem Current.start {r : R} (counted : 0 ≤ Resource.generation r)
    (empty : Resource.conditions r = []) : Current k { stored := r } where
  counted _ hr := List.mem_singleton.1 hr ▸ counted
  upTo r' hr := by
    obtain rfl := List.mem_singleton.1 hr
    rw [empty]
    exact Conditions.upTo_nil
  latest r' hr := by
    obtain rfl := List.mem_singleton.1 hr
    exact Int.le_refl _
  running _ hp := absurd hp List.not_mem_nil

theorem Current.store (h : Current k s) {r : R}
    (le : Resource.generation s.stored ≤ Resource.generation r)
    (upTo : UpTo (Resource.generation r) (Resource.conditions r)) : Current k (s.store r) where
  counted r' hr := by
    rcases List.mem_cons.1 hr with rfl | hr
    · exact Int.le_trans (h.counted _ (List.mem_cons_self ..)) le
    · exact h.counted r' hr
  upTo r' hr := by
    rcases List.mem_cons.1 hr with rfl | hr
    · exact upTo
    · exact h.upTo r' hr
  latest r' hr := by
    rcases List.mem_cons.1 hr with rfl | hr
    · exact Int.le_refl _
    · exact Int.le_trans (h.latest r' hr) le
  running p hp := (h.running p hp).mono
    (fun _ allowed => allowed.mono fun _ writes => writes.mono le) fun _ _ => trivial

/-- A cycle goes on from the answer to its request. -/
theorem Current.proceed (h : Current k s) {pre post : List (Program (Supervised S) β)}
    {q : (Supervised S).Request} {next : (Supervised S).Answer q → Program (Supervised S) β}
    (asking : s.running = pre ++ .ask q next :: post) (answer : (Supervised S).Answer q) :
    Within (k.WritesUpTo (Resource.generation s.stored)) q ∧
      Current k { s with running := pre ++ next answer :: post } := by
  have asked := h.running (.ask q next) (by simp [asking])
  refine ⟨asked.1, h.counted, h.upTo, h.latest, fun p hp => ?_⟩
  rcases List.mem_append.1 hp with hp | hp
  · exact h.running p (by simp [asking, hp])
  rcases List.mem_cons.1 hp with rfl | hp
  · exact asked.2 answer
  · exact h.running p (by simp [asking, hp])

theorem Current.move (dated : k.Dated) (h : Current k s) (move : Move k s s') :
    Current k s' := by
  have upTo := h.upTo s.stored (List.mem_cons_self ..)
  cases move with
  | edit edits =>
    refine h.store (Int.le_of_lt edits.generation_lt) ?_
    rw [edits.conditions_eq]
    exact upTo.mono (Int.le_of_lt edits.generation_lt)
  | touch touches =>
    refine h.store (Int.le_of_eq touches.generation_eq.symm) ?_
    rw [touches.conditions_eq, touches.generation_eq]
    exact upTo
  | @begin r p read starts =>
    refine ⟨h.counted, h.upTo, h.latest, fun q hq => ?_⟩
    rcases List.mem_cons.1 hq with rfl | hq
    · refine (dated r q starts (h.counted r read) (h.upTo r read)).mono ?_ fun _ _ => trivial
      exact fun _ allowed => allowed.mono fun _ writes => writes.mono (h.latest r read)
    · exact h.running q hq
  | proceed asking => exact (h.proceed asking _).2
  | @write pre post q next answer call written r asking asks writes effect =>
    obtain ⟨allowed, current⟩ := h.proceed asking answer
    refine current.store (Int.le_of_eq effect.generation_eq.symm) ?_
    rw [effect.conditions_eq, effect.generation_eq]
    -- The write was allowed by the generation that is stored, whatever version it carries.
    rcases asks with rfl | rfl <;> exact allowed written writes
  | leave sub => exact ⟨h.counted, h.upTo, h.latest, fun p hp => h.running p (sub hp)⟩

theorem Reachable.current (dated : k.Dated) {start : R}
    (counted : 0 ≤ Resource.generation start) (empty : Resource.conditions start = [])
    (reachable : Reachable k start s) : Current k s := by
  induction reachable with
  | refl => exact .start counted empty
  | tail _ move ih => exact ih.move dated move

/-- No condition speaks of a generation that the object did not have by then, so that none is
complete right after an edit. -/
structure NeverAhead (s : Scene S R β) : Prop where
  upTo : ∀ r ∈ s.states, UpTo (Resource.generation r) (Resource.conditions r)
  incomplete : ∀ r, Edits s.stored r →
    ∀ x ∈ Resource.conditions r, x.isComplete (Resource.generation r) = false

theorem Current.neverAhead (h : Current k s) : s.NeverAhead where
  upTo := h.upTo
  incomplete r edits x hx := by
    rw [edits.conditions_eq] at hx
    exact (h.upTo s.stored (List.mem_cons_self ..)).incomplete edits.generation_lt hx

/-- A cycle runs on while nothing else happens. -/
theorem Reachable.run {start : R} {p rest : Program (Supervised S) β}
    {run : List (Answered (Supervised S))} (reached : p.Reaches run rest)
    (reachable : Reachable k start s) (running : s.running = [p]) :
    Reachable k start { s with running := [rest] } := by
  induction reached generalizing s with
  | here p =>
    rw [← running]
    exact reachable
  | @told r next answer _ _ _ ih =>
    have moved : Move k s { s with running := [next answer] } :=
      @Move.proceed S R β _ k s [] [] r next answer running
    exact @ih { s with running := [next answer] } (reachable.tail moved) rfl

theorem Reachable.written {start r written : R} {p rest : Program (Supervised S) β}
    {run : List (Answered (Supervised S))} (reached : p.Reaches run rest)
    (reachable : Reachable k start s) (running : s.running = [p])
    (wrote : written ∈ (run.flatMap Supervised.calls).filterMap fun call =>
      k.written? call.request)
    (effect : Overwrites s.stored written r) :
    ∃ running, Reachable k start ({ s with running }.store r) := by
  obtain ⟨call, called, writes⟩ := List.mem_filterMap.1 wrote
  obtain ⟨e, he, shown⟩ := List.mem_flatMap.1 called
  obtain ⟨pre, post, rfl⟩ := List.append_of_mem he
  obtain ⟨next, before, -⟩ := reached.split
  have asks := Supervised.asks_of_mem_calls shown
  have asking := reachable.run before running
  exact ⟨_, asking.tail
    (@Move.write S R β _ k _ [] [] e.request next e.answer _ written r rfl asks writes effect)⟩

end Scene

end InfraOperator
