import InfraOperator.Proofs.Execution
import InfraOperator.Proofs.Provisioning.Journal

/-!
# Steps that handle their cycle

The steps of a configuration change their cycle by marks, by what they find out and by the number of
resources, so both pipelines are executed as all pipelines are whose steps do no more.
-/

set_option autoImplicit false

namespace InfraOperator.Provisioning

variable {settings : Settings} {c c' : ConfigurationCycle} {own : Calls}

theorem handled_markAt {type message : String} {mark : Mark} {now : Instant} :
    ∃ es, c.Handled es (c.markAt type mark message now).2 :=
  ⟨_, Cycle.Handled.untouched.marked type mark message now⟩

theorem handled_counted (count : Nat) : ∃ es, c.Handled es (counted c count) := by
  unfold counted
  split
  · exact ⟨[], Cycle.Handled.untouched.edited _⟩
  · exact ⟨[], (Cycle.Handled.untouched.edited _).dirtied⟩

theorem Change.handled (h : Change settings c own c') : ∃ es, c.Handled es c' := by
  cases h with
  | kept => exact ⟨[], .untouched⟩
  | unmet => exact handled_markAt
  | provided =>
    obtain ⟨es, marked⟩ := handled_markAt (c := c)
    exact ⟨es, marked.noted _⟩
  | selected => exact ⟨[], Cycle.Handled.untouched.noted _⟩
  | listed => exact ⟨[], Cycle.Handled.untouched.noted _⟩
  | succeeded => exact handled_markAt
  | counted => exact handled_counted _
  | cleaned => exact ⟨[], Cycle.Handled.untouched.noted _⟩

theorem Leaves.handled (h : Leaves settings c own c') : ∃ es, c.Handled es c' := by
  cases h with
  | changed h => exact h.handled
  | ready h =>
    rw [h]
    exact handled_markAt

theorem handles_stepsFor {deleting : Bool} {step : ConfigurationStep}
    (h : step ∈ stepsFor settings deleting) : step.Handles := by
  intro c
  refine (does_stepsFor h).mono ?_ fun own verdict t left => left.handled
  rintro own t r ⟨rfl, -⟩
  exact ⟨[], .untouched⟩

theorem handled_openCycle (r : Configuration) (now : Instant) :
    (Cycle.start r {}).Handled [] (openCycle r now) :=
  Cycle.Handled.untouched.edited _

/-- A cycle of the sample configuration whose provider is missing. -/
theorem execute_account_sample :
    ∃ p, pipelineFor {} false = .ok p ∧
      let cycle := p.execute ConfigurationStore.statuses (openCycle (sample []) default)
      let s : Steady := {}
      Pipeline.outcomeLabel (cycle.finish s.answer).1 = "requeue" ∧
      Pipeline.Executed p ConfigurationStore.statuses (Cycle.start (sample []) {})
        (openCycle (sample []) default) (cycle.follow s.answer) (cycle.finish s.answer).1 := by
  have handle : ∀ step ∈ stepsFor {} false, step.Handles := fun _ h => handles_stepsFor h
  refine ⟨_, rfl, ?_, ?_⟩
  · decide +kernel
  · refine (Pipeline.execute_account _ _ (sample []) _ _ [] (handled_openCycle _ _) ?_).2 _ _ _
      (Program.reaches_follow _ _)
    exact handle

end InfraOperator.Provisioning
