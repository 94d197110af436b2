import InfraOperator.Proofs.Observed

/-!
# Computations that nobody disturbs

Where one computation at a time works on a store, its calls carry the store from one state to the
next (`Carries`). Which calls these are is known from what the computation does, whether it is
broken off (`Staged.Does.asked`) or has returned (`Staged.Does.returned`).
-/

set_option autoImplicit false

namespace InfraOperator

variable {S : Interface} {T σ α : Type}

/-- The calls are answered one after the other, and take the store from the first state to the
last. -/
def Carries (serves : T → StoreCall S → T → Prop) : T → List (StoreCall S) → T → Prop
  | first, [], last => last = first
  | first, call :: calls, last => ∃ next, serves first call next ∧ Carries serves next calls last

section Carries

variable {serves : T → StoreCall S → T → Prop} {first last : T}
  {calls pre post : List (StoreCall S)} {call : StoreCall S}

theorem carries_singleton : Carries serves first [call] last ↔ serves first call last := by
  constructor
  · rintro ⟨next, served, rfl⟩
    exact served
  · intro served
    exact ⟨last, served, rfl⟩

theorem carries_append : Carries serves first (pre ++ post) last ↔
    ∃ middle, Carries serves first pre middle ∧ Carries serves middle post last := by
  induction pre generalizing first with
  | nil =>
    constructor
    · intro carried
      exact ⟨first, rfl, carried⟩
    · rintro ⟨_, rfl, carried⟩
      exact carried
  | cons call pre ih =>
    constructor
    · rintro ⟨next, served, carried⟩
      obtain ⟨middle, before, after⟩ := ih.1 carried
      exact ⟨middle, ⟨next, served, before⟩, after⟩
    · rintro ⟨middle, ⟨next, served, before⟩, after⟩
      exact ⟨next, served, ih.2 ⟨middle, before, after⟩⟩

theorem Carries.holds {holds : T → Prop} (carried : Carries serves first calls last)
    (start : holds first)
    (kept : ∀ pre call post now next, calls = pre ++ call :: post →
      Carries serves first pre now → holds now → serves now call next → holds next) :
    holds last := by
  suffices ∀ pre post now, calls = pre ++ post → Carries serves first pre now → holds now →
      Carries serves now post last → holds last from
    this [] calls first rfl rfl start carried
  intro pre post
  induction post generalizing pre with
  | nil =>
    rintro now - - held rfl
    exact held
  | cons call post ih =>
    rintro now parts before held ⟨next, served, later⟩
    refine ih (pre ++ [call]) next (by simp [parts]) ?_ ?_ later
    · exact carries_append.2 ⟨now, before, carries_singleton.2 served⟩
    · exact kept pre call post now next parts before held served

/-- Calls each of which leaves the store as it is leave it so together. -/
theorem Carries.stays (carried : Carries serves first calls last)
    (still : ∀ pre call post next, calls = pre ++ call :: post → Carries serves first pre first →
      serves first call next → next = first) : last = first := by
  have same : first = last := by
    refine carried.holds rfl ?_
    rintro pre call post _ next parts past rfl served
    exact (still pre call post next parts past served).symm
  exact same.symm

/-- Where each request is answered from a state and carries the store on, so does a whole run. -/
theorem carries_trace {answer : (q : Supervised.Request S) → σ → Supervised.Answer q × σ}
    {sound : σ → Prop} {store : σ → T}
    (goes : ∀ q s, sound s → sound (answer q s).2 ∧
      Carries serves (store s) (Supervised.calls ⟨q, (answer q s).1⟩) (store (answer q s).2))
    (p : Program (Supervised S) α) {s : σ} (h : sound s) : sound (p.run answer s).2 ∧
      Carries serves (store s) ((p.trace answer s).flatMap Supervised.calls)
        (store (p.run answer s).2) := by
  induction p generalizing s with
  | done value => exact ⟨h, rfl⟩
  | ask q next ih =>
    obtain ⟨still, carried⟩ := goes q s h
    obtain ⟨ended, later⟩ := ih _ still
    exact ⟨ended, carries_append.2 ⟨_, carried, later⟩⟩

end Carries

namespace Staged

variable {asks : List (StoreCall S) → σ → Surroundings.Request S → Prop}
  {ends : List (StoreCall S) → α → σ → Prop} {s : σ}

theorem Does.asked {m : Staged S σ α} (h : Does m s asks ends [])
    {run : List (Answered (Supervised S))} {rest : Program (Supervised S) (Option α × σ)}
    (reached : (watch (m.run s)).Reaches run rest) {pre post : List (StoreCall S)}
    {call : StoreCall S} (parts : run.flatMap Supervised.calls = pre ++ call :: post) :
    ∃ t, asks pre t (.store call.request) := by
  rw [← forget_observe] at reached
  obtain ⟨noted, rest, ran, rfl, -⟩ := Program.exists_noted_run reached
  rw [Program.flatMap_bare] at parts
  obtain ⟨before, e, after, rfl, rfl, asking⟩ := Supervised.exists_split parts
  have allowed := ((h.observe []).asked ran rfl).of_asksFor asking
  obtain ⟨own, whole, asked⟩ := allowed rfl
  simp only [List.append_nil, List.nil_append] at whole
  exact ⟨e.note, whole ▸ asked⟩

end Staged

end InfraOperator
