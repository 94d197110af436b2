import InfraOperator.Proofs.Stepping

/-!
# Which pipelines are built

A pipeline is built of any steps, as long as there are some and nothing stands behind a step that
releases the finalizer; what is built has just these steps. The steps that a run gets to are the
first ones of the pipeline, so that nothing is run behind a release either, however the steps end.
-/

set_option autoImplicit false

namespace InfraOperator

variable {S : Interface} {R X : Type}

def ReleasesLast (steps : List (Step S R X)) : Prop :=
  ∀ before step after, steps = before ++ step :: after → step.releasesFinalizer = true → after = []

section

variable {steps before after : List (Step S R X)} {step : Step S R X}

theorem exists_behind (parts : steps.dropLast = before ++ step :: after) :
    ∃ final, steps = before ++ step :: (after ++ [final]) := by
  have nonempty : steps ≠ [] := by
    rintro rfl
    simp at parts
  refine ⟨steps.getLast nonempty, ?_⟩
  rw [← List.cons_append, ← List.append_assoc, ← parts, List.dropLast_concat_getLast nonempty]

theorem releasesLast_iff :
    ReleasesLast steps ↔ ∀ step ∈ steps.dropLast, step.releasesFinalizer = false := by
  constructor
  · intro last step within
    obtain ⟨before, after, parts⟩ := List.append_of_mem within
    obtain ⟨final, behind⟩ := exists_behind parts
    rw [Bool.eq_false_iff]
    intro releases
    exact absurd (last _ _ _ behind releases) (by simp)
  · rintro early before step after rfl releases
    cases after with
    | nil => rfl
    | cons next after =>
      have within : step ∈ (before ++ step :: next :: after).dropLast := by simp
      rw [early step within] at releases
      cases releases

theorem ReleasesLast.of_prefix {first : List (Step S R X)} (h : ReleasesLast steps)
    (begins : first <+: steps) : ReleasesLast first := by
  obtain ⟨rest, rfl⟩ := begins
  rintro before step after rfl releases
  have nothing : after ++ rest = [] :=
    h before step (after ++ rest) (by rw [List.append_assoc, List.cons_append]) releases
  exact (List.append_eq_nil_iff.1 nothing).1

end

namespace Pipeline

variable {name : String} {steps : List (Step S R X)}

inductive Refused (name : String) (steps : List (Step S R X)) : Failure → Prop
  | empty (none : steps = []) :
      Refused name steps (.internal "pipeline" ("pipeline " ++ name ++ " has no steps"))
  /-- The first step that releases the finalizer has another one behind it. -/
  | early {before after : List (Step S R X)} {step : Step S R X}
      (parts : steps = before ++ step :: after) (more : after ≠ [])
      (releases : step.releasesFinalizer = true)
      (first : ∀ other ∈ before, other.releasesFinalizer = false) :
      Refused name steps (.internal "pipeline" ("pipeline " ++ name ++ ": step " ++ step.name ++
        " releases the finalizer and must be last"))

theorem refused_of_build {e : Failure} (h : build name steps = .error e) :
    Refused name steps e := by
  unfold build at h
  split at h
  · rename_i none
    cases h
    exact .empty none
  · split at h
    · rename_i step early
      cases h
      obtain ⟨releases, before, after, parts, first⟩ := List.find?_eq_some_iff_append.1 early
      obtain ⟨final, behind⟩ := exists_behind parts
      exact .early behind (by simp) releases (by simpa using first)
    · cases h

theorem Refused.not_buildable {e : Failure} (h : Refused name steps e) :
    ¬ (steps ≠ [] ∧ ReleasesLast steps) := by
  rintro ⟨nonempty, last⟩
  cases h with
  | empty none => exact nonempty none
  | early parts more releases => exact more (last _ _ _ parts releases)

theorem of_build {p : Pipeline S R X} (h : build name steps = .ok p) :
    p.name = name ∧ p.steps = steps := by
  unfold build at h
  split at h
  · cases h
  · split at h
    · cases h
    · cases h
      exact ⟨rfl, rfl⟩

theorem exists_build_iff :
    (∃ p, build name steps = .ok p) ↔ steps ≠ [] ∧ ReleasesLast steps := by
  constructor
  · rintro ⟨p, built⟩
    obtain ⟨-, rfl⟩ := of_build built
    exact ⟨p.nonempty, releasesLast_iff.2 p.releases_last⟩
  · intro buildable
    cases built : build name steps with
    | ok p => exact ⟨p, rfl⟩
    | error e => exact absurd buildable (refused_of_build built).not_buildable

/-- As many looks at the token found it not cancelled as steps were run. -/
theorem looks_of_runs {row : Row S R X} {c c' : Cycle R X} {own : List (Answered (Supervised S))}
    (runs : row.Runs c own c') : Supervised.looks own = List.replicate row.length false := by
  induction runs with
  | nil => rfl
  | cons ran later ih =>
    rw [Supervised.looks_step (Staged.looks_watch ran), ih]
    rfl

theorem looks_of_closing {closing : List (Answered (Supervised S))} (closed : Closing closing) :
    Supervised.looks closing = [] ∨ Supervised.looks closing = [true] := by
  unfold Closing at closed
  split at closed
  · exact .inl rfl
  · subst closed
    exact .inr rfl
  · exact .inl rfl
  · cases closed

theorem length_of_looks {row : Row S R X} {c c' : Cycle R X} {n : Nat}
    {own closing : List (Answered (Supervised S))} (runs : row.Runs c own c')
    (closed : Closing closing)
    (found : Supervised.looks (own ++ closing) = List.replicate n false) : row.length = n := by
  have parted : Supervised.looks (own ++ closing) =
      Supervised.looks own ++ Supervised.looks closing := List.filterMap_append ..
  rw [parted, looks_of_runs runs] at found
  rcases looks_of_closing closed with none | cancelled
  · rw [none, List.append_nil] at found
    simpa using congrArg List.length found
  · rw [cancelled] at found
    have last : true ∈ List.replicate n false := by
      rw [← found]
      exact List.mem_append_right _ (List.mem_singleton_self _)
    cases (List.mem_replicate.1 last).2

def releasing (name : String) : Step Bell Unit Unit :=
  { ringing name .proceed with releasesFinalizer := true }

/-- Steps make a pipeline exactly if there are some and none stands behind a release, it is the
pipeline of just these steps, and no run of it gets behind a release, however it is answered. -/
theorem built_releases_last (name : String) (steps : List (Step S R X)) :
    ((∃ p, build name steps = .ok p) ↔ steps ≠ [] ∧ ReleasesLast steps) ∧
    (∀ e, build name steps = .error e → Refused name steps e) ∧
    ∀ p, build name steps = .ok p → p.name = name ∧ p.steps = steps ∧ ∀ c,
      (∀ run rest, (p.run c).Reaches run rest →
        ∃ more value, (p.run c).Reaches (run ++ more) (.done value)) ∧
      ∀ run outcome c', (p.run c).Reaches run (.done (outcome, c')) →
        ∃ row own closing, run = own ++ closing ∧ row.Runs c own c' ∧ Closing closing ∧
          Account steps row run outcome ∧ ReleasesLast (row.map Prod.fst) := by
  refine ⟨exists_build_iff, fun e => refused_of_build, ?_⟩
  intro p built
  obtain ⟨named, same⟩ := of_build built
  refine ⟨named, same, fun c => ?_⟩
  have last : ReleasesLast steps := (exists_build_iff.1 ⟨p, built⟩).2
  obtain ⟨ends, accounts⟩ := runSteps_account p.name p.steps c
  refine ⟨ends, ?_⟩
  intro run outcome c' reached
  obtain ⟨row, own, closing, parts, runs, closed, account⟩ := accounts run outcome c' reached
  rw [same] at account
  exact ⟨row, own, closing, parts, runs, closed, account, last.of_prefix account.inOrder⟩

example : build "bells" [releasing "b", ringing "a" .proceed] = .error (.internal "pipeline"
    "pipeline bells: step b releases the finalizer and must be last") := rfl

/-- Both steps are run, the second of which releases the finalizer and is the last. -/
theorem built_releases_last_bells :
    let steps := [ringing "a" (.requeue .zero), releasing "b"]
    ∃ p, build "bells" steps = .ok p ∧
      ∃ row : Row Bell Unit Unit, row.length = 2 ∧
        Account steps row ((p.run ⟨(), (), [], [], false⟩).trace ring []) (.ok .done) ∧
        ReleasesLast (row.map Prod.fst) := by
  intro steps
  obtain ⟨buildable, -, built⟩ := built_releases_last "bells" steps
  obtain ⟨p, made⟩ := buildable.2 ⟨nofun, releasesLast_iff.2 (by decide +kernel)⟩
  obtain ⟨named, same, accounts⟩ := built p made
  refine ⟨p, made, ?_⟩
  let c : Cycle Unit Unit := ⟨(), (), [], [], false⟩
  have program : p.run c = runSteps "bells" steps c := by
    rw [run, named, same]
  have ended : ((p.run c).run ring []).1.1 = .ok .done := by
    rw [program]
    decide +kernel
  have found : Supervised.looks ((p.run c).trace ring []) = [false, false] := by
    rw [program]
    decide +kernel
  obtain ⟨row, own, closing, parts, runs, closed, account, last⟩ :=
    (accounts c).2 _ _ _ (Program.reaches_trace ring (p.run c) [])
  rw [ended] at account
  refine ⟨row, ?_, account, last⟩
  rw [parts] at found
  exact length_of_looks runs closed found

end Pipeline

end InfraOperator
