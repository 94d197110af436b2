import InfraOperator.Proofs.Provisioning.Plays

/-!
# Quiescence

In a world that stands still, a cycle of a configuration that creates nothing leaves nothing to do:
a further cycle over the status that it has left writes no status, tells of nothing, creates
nothing, and ends with the same action (`quiescent`).
-/

set_option autoImplicit false

namespace InfraOperator.Provisioning

open Conditions (Lists)
open Supervised (Within Plain)

section

variable {settings : Settings} {w : World} {uid : String} {c left : Configuration}
  {failures : Failures} {p : ConfigurationPipeline} {outcome : Outcome Directive}
  {cycle : ConfigurationCycle} {value : Outcome Action × Failures}
  {run : List (Answered (Supervised ConfigurationStore))}

/-! ## The status that is left -/

def statusLeft (c : Configuration) (run : List (Answered (Supervised ConfigurationStore))) :
    Option ConfigurationStatus :=
  match ((run.flatMap Supervised.calls).filterMap written?).getLast? with
  | some written => written.status
  | none => c.status

theorem request_of_written {call : StoreCall ConfigurationStore} {written : Configuration}
    (h : written? call = some written) : call.request = ConfigurationCall.patchStatus written := by
  obtain ⟨request, answer⟩ := call
  cases request with
  | patchStatus c => exact congrArg _ (Option.some.inj h)
  | _ => cases h

theorem unwritten_steps {name : String} {deleting : Bool} {cycle' : ConfigurationCycle}
    {call : StoreCall ConfigurationStore} {written : Configuration}
    (ran : (Pipeline.runSteps name (stepsFor settings deleting) cycle).Reaches run
      (.done (outcome, cycle'))) (called : call ∈ run.flatMap Supervised.calls) :
    written? call ≠ some written := by
  intro writes
  have only : (Pipeline.runSteps name (stepsFor settings deleting) cycle).Only
      (Within (S := ConfigurationStore) (· ≠ .store (.patchStatus written))) fun _ => True := by
    refine Pipeline.only_runSteps (fun _ => True) ?_ (fun step hs c _ => ?_) trivial
    · rintro r quick rfl
      cases quick
    · exact (does_stepsFor hs).mono (fun _ _ _ asks => ⟨asks.1, asks.2.ne_patchStatus written⟩)
        fun _ _ _ _ => trivial
  exact absurd (congrArg _ (request_of_written writes))
    (Supervised.called_of_only only (fun _ h => h) ran called)

/-- A cycle writes no status but that in which its steps have left it. -/
theorem Course.written_status {call : StoreCall ConfigurationStore} {written : Configuration}
    (course : Course settings c failures run outcome cycle value)
    (called : call ∈ run.flatMap Supervised.calls) (writes : written? call = some written) :
    written.status = cycle.resource.status := by
  obtain @⟨now, pipeline, opening, steps, settled, rfl, uncalled, built, ran, ended⟩ := course
  have request := request_of_written writes
  rw [List.flatMap_append, uncalled, List.nil_append, List.flatMap_append] at called
  rcases List.mem_append.1 called with called | called
  · rw [Pipeline.run, steps_pipelineFor built] at ran
    exact absurd writes (unwritten_steps ran called)
  obtain ⟨settles, concludes, ⟨result, cycle'⟩, rfl, settled, concluded⟩ :=
    Program.reaches_bind ended
  rw [List.flatMap_append] at called
  rcases List.mem_append.1 called with called | called
  · have asks := Supervised.called_of_only only_settle (fun _ => Plain.within) settled called
    rw [request] at asks
    cases asks with
    | write => rfl
    | prompt quick => cases quick
  · have asks := Supervised.called_of_only only_conclude (fun _ => Plain.within) concluded called
    rw [request] at asks
    cases asks with
    | prompt quick => cases quick

/-- A status that changed is written first of all. -/
theorem exists_settle (settings : Settings) (c : Configuration) (failures : Failures)
    (p : ConfigurationPipeline) (outcome : Outcome Directive)
    (changed : cycle.statusChanged = true) :
    ∃ next, settleAndConclude settings c failures p outcome cycle =
      Program.ask (I := Supervised ConfigurationStore)
        (.plain (.store (.patchStatus
          (Resource.withResourceVersion cycle.resource cycle.resource.metadata.resourceVersion))))
        next := by
  unfold settleAndConclude Pipeline.settle Pipeline.writeStatus
  rw [if_pos changed]
  exact ⟨_, rfl⟩

theorem Course.exists_written (course : Course settings c failures run outcome cycle value)
    (changed : cycle.statusChanged = true) :
    (run.flatMap Supervised.calls).filterMap written? ≠ [] := by
  obtain @⟨now, pipeline, opening, steps, settled, rfl, -, -, -, ended⟩ := course
  obtain ⟨next, settles⟩ := exists_settle settings c failures pipeline outcome changed
  rw [settles] at ended
  cases ended with
  | told =>
    simp [Supervised.calls, written?]

theorem Course.statusLeft_eq (course : Course settings c failures run outcome cycle value)
    (unchanged : cycle.statusChanged = false → cycle.resource.status = c.status) :
    statusLeft c run = cycle.resource.status := by
  unfold statusLeft
  cases last : ((run.flatMap Supervised.calls).filterMap written?).getLast? with
  | none =>
    refine (unchanged (Bool.eq_false_iff.2 fun changed => ?_)).symm
    exact course.exists_written changed (List.getLast?_eq_none_iff.1 last)
  | some written =>
    obtain ⟨call, called, writes⟩ := List.mem_filterMap.1 (List.mem_of_getLast? last)
    exact course.written_status called writes

/-! ## The first cycle -/

theorem under_settle : (p.settle ConfigurationStore.statuses outcome cycle).Under
    (w.Allows settings uid) (fun _ => True) fun v => v.1 = outcome := by
  have persisted : (Pipeline.writeStatus ConfigurationStore.statuses cycle).Under
      (w.Allows settings uid) (fun _ => True) fun result => result = .ok () := by
    unfold Pipeline.writeStatus
    split
    · refine ⟨trivial, fun answer given => ?_⟩
      obtain ⟨⟨⟩, written⟩ := given.2 _ (List.mem_singleton_self _)
      obtain rfl := Option.some.inj written
      exact rfl
    · exact rfl
  refine persisted.bind ?_
  rintro _ rfl
  have published : (Pipeline.publishEvents (S := ConfigurationStore) (R := Configuration)
      (Resource.reference cycle.resource) cycle.events).Only (fun _ => True) fun _ => True :=
    (Pipeline.only_publishEvents (P := fun _ => True) cycle.events (fun _ => trivial)
      fun _ _ => trivial).mono (fun _ _ => trivial) fun _ h => h
  unfold Pipeline.report
  rcases outcome with e | directive
  · exact published.under.bind fun _ _ => ⟨trivial, fun _ _ => rfl⟩
  · exact published.under.bind fun _ _ => ⟨trivial, fun _ _ => rfl⟩

theorem ne_nil_of_lists {conditions : List Condition}
    (h : Lists Configuration.conditionTypes conditions) : conditions ≠ [] := by
  obtain ⟨x, found⟩ := h readyCondition (by decide)
  rintro rfl
  cases found

theorem isSome_of_lists {r : Configuration}
    (h : Lists Configuration.conditionTypes (Resource.conditions r)) : r.status.isSome = true := by
  obtain ⟨m, s, status⟩ := r
  cases status with
  | none => exact absurd rfl (ne_nil_of_lists h)
  | some status => rfl

theorem status_eq_of_parts {r r' : Configuration}
    (conditions : Resource.conditions r = Resource.conditions r')
    (resources : (r.status.getD {}).resources = (r'.status.getD {}).resources)
    (listed : Resource.conditions r ≠ []) : r.status = r'.status := by
  obtain ⟨m, s, status⟩ := r
  obtain ⟨m', s', status'⟩ := r'
  cases status with
  | none => exact absurd rfl listed
  | some status =>
    cases status' with
    | none => exact absurd conditions listed
    | some status' =>
      obtain ⟨x, n⟩ := status
      obtain ⟨x', n'⟩ := status'
      obtain rfl : x = x' := conditions
      obtain rfl : n = n' := resources
      rfl

theorem Plays.status_eq {as : List (Account settings w uid c)} {now : Instant}
    (plays : Plays as (openCycle c now) outcome cycle) (listed : cycle.conditions ≠ [])
    (unchanged : cycle.statusChanged = false) : cycle.resource.status = c.status := by
  obtain ⟨clean, same⟩ := Bool.or_eq_false_iff.1 unchanged
  have conditions : cycle.conditions = Resource.conditions c :=
    (Decidable.of_not_not (of_decide_eq_false same)).trans plays.initialConditions
  exact status_eq_of_parts conditions (plays.clean clean).2 listed

/-- In the world, a cycle that creates nothing is a play, and it leaves the status of the play. -/
theorem exists_play (owner : c.metadata.uid = some uid)
    (held : c.metadata.hasFinalizer cleanupFinalizer = true)
    (live : c.metadata.isDeleting = false)
    (reached : (reconcile settings c failures).Reaches run (.done value))
    (world : ∀ e ∈ run, w.Allows settings uid e)
    (idle : ∀ call ∈ run.flatMap Supervised.calls, created? call = none) :
    ∃ now outcome cycle, Plays (accounts settings w owner held) (openCycle c now) outcome cycle ∧
      Lists Configuration.conditionTypes cycle.conditions ∧
      statusLeft c run = cycle.resource.status ∧
      value.1 = outcome.map (·.toAction (resyncOf settings c)) := by
  obtain ⟨outcome, cycle, course⟩ :=
    exists_course (fun deleting => absurd (live.symm.trans deleting) Bool.false_ne_true) reached
  have statusLeft_eq := course.statusLeft_eq
  obtain @⟨now, pipeline, opening, steps, settled, rfl, -, built, ran, ended⟩ := course
  have opened : Lists Configuration.conditionTypes (openCycle c now).conditions := by
    unfold openCycle
    rw [live]
    exact Conditions.lists_registerTypes
  rw [Pipeline.run, steps_pipelineFor built, live] at ran
  change (Pipeline.runSteps _ ((accounts settings w owner held).map (·.step)) _).Reaches _ _ at ran
  have plays : Plays (accounts settings w owner held) (openCycle c now) outcome cycle := by
    have alike : Alike c (openCycle c now).resource := alike_of_eq rfl rfl
    refine ((plays_runSteps _ alike).reaches ran fun e he => ?_).2
    have here : e ∈ opening ++ (steps ++ settled) :=
      List.mem_append_right _ (List.mem_append_left _ he)
    exact ⟨world e here, fun call hc => idle call (List.mem_flatMap.2 ⟨e, here, hc⟩)⟩
  have listed := plays.lists opened
  refine ⟨now, outcome, cycle, plays, listed, statusLeft_eq fun unchanged => ?_, ?_⟩
  · exact plays.status_eq (ne_nil_of_lists listed) unchanged
  · obtain ⟨settles, concludes, ⟨result, cycle'⟩, rfl, settled, concluded⟩ :=
      Program.reaches_bind ended
    have same : result = outcome := (under_settle.reaches settled fun e he =>
      world e (by simp [he])).2
    rw [only_conclude.ended concluded, same]

/-! ## The next cycle -/

theorem openCycle_of_lists {now : Instant} (live : left.metadata.isDeleting = false)
    (stored : left.status.isSome = true)
    (listed : Lists Configuration.conditionTypes (Resource.conditions left)) :
    openCycle left now = Cycle.start left {} := by
  have same : Resource.registerConditions left Configuration.conditionTypes now = left := by
    rw [Resource.registerConditions, listed.register]
    obtain ⟨m, s, status⟩ := left
    cases status with
    | none => cases stored
    | some status => rfl
  unfold openCycle Cycle.register
  rw [live]
  exact congrArg (fun r => { Cycle.start left ({} : Scratch) with resource := r }) same

theorem settle_start {x : Scratch} :
    p.settle ConfigurationStore.statuses outcome (Cycle.start left x) =
      Program.ask (I := Supervised ConfigurationStore)
        (.plain (.measure (.reconcileFinished (Resource.kind Configuration)
          (Pipeline.outcomeLabel outcome)))) fun _ => .done (outcome, Cycle.start left x) := by
  have same : (Cycle.start left x).statusChanged = false := by
    simp [Cycle.statusChanged, Cycle.start, Cycle.conditions]
  rw [Pipeline.settle, Pipeline.writeStatus, same]
  cases outcome <;> rfl

theorem under_settle_start {x : Scratch} :
    (p.settle ConfigurationStore.statuses outcome (Cycle.start left x)).Under
      (w.Allows settings uid) (Within Ordinary) fun v => v.1 = outcome := by
  rw [settle_start]
  exact ⟨trivial, fun _ _ => rfl⟩

theorem under_conclude (live : left.metadata.isDeleting = false) :
    (conclude settings left failures outcome cycle).Under (w.Allows settings uid)
      (Within Ordinary) fun v => v.1 = outcome.map (·.toAction (resyncOf settings left)) := by
  refine (only_conclude.mono (fun r asks => ?_) fun _ h => h).under
  cases r with
  | cancelled => trivial
  | watched r => exact asks.elim
  | plain r =>
    cases asks with
    | announce deleting => exact absurd (live.symm.trans deleting) Bool.false_ne_true
    | prompt quick => exact ordinary_of_prompt quick

/-- Where the steps are quiet, so is the cycle. -/
theorem under_reconcile {object : Configuration}
    {as : List (Account settings w uid object)}
    (steps : as.map (·.step) = provisioningSteps settings)
    (quiet : ∀ name, Quiet name as left outcome {}) (live : left.metadata.isDeleting = false)
    (stored : left.status.isSome = true)
    (listed : Lists Configuration.conditionTypes (Resource.conditions left)) :
    (reconcile settings left failures).Under (w.Allows settings uid) (Within Ordinary)
      fun v => v.1 = outcome.map (·.toAction (resyncOf settings left)) := by
  obtain ⟨pipeline, built⟩ := exists_pipeline settings left.metadata.isDeleting
  rw [reconcile, if_neg fun h => absurd (live.symm.trans h.1) Bool.false_ne_true, built]
  refine ⟨trivial, fun now _ => ⟨trivial, fun _ _ => ?_⟩⟩
  refine Program.Under.bind
    (R := fun v : Outcome Directive × ConfigurationCycle => v.1 = outcome) ?_ ?_
  · have opened : openCycle left now = Cycle.start left {} := openCycle_of_lists live stored listed
    rw [opened, Pipeline.execute, Pipeline.run, steps_pipelineFor built, live]
    have ran := quiet pipeline.name
    unfold Quiet at ran
    rw [steps] at ran
    refine ran.bind ?_
    rintro ⟨_, _⟩ ⟨rfl, x, rfl⟩
    exact under_settle_start
  · rintro ⟨_, cycle⟩ rfl
    exact under_conclude live

/-! ## Answers of a world -/

def World.reply (w : World) : (call : ConfigurationCall) → Outcome call.Answer
  | .getSecret _ _ => (.ok w.outputs : Outcome (Option Secret))
  | call => ({ provider := w.provider, policies := w.policies, units := w.units } : Steady).reply call

def World.answer (w : World) : (q : Supervised.Request ConfigurationStore) → Supervised.Answer q
  | .plain (.store call) => w.reply call
  | .watched (.store call) => some (w.reply call)
  | q => ({} : Steady).answer q

theorem World.answers_reply (w : World) (call : ConfigurationCall) :
    w.Answers settings uid (told call (w.reply call)) := by
  cases call with
  | getSecret => exact ⟨_, rfl, fun _ _ => rfl⟩
  | getProvider | listPolicies | listUnits => exact rfl
  | _ => exact ⟨_, rfl⟩

theorem World.allows_answer (w : World) (q : (Supervised ConfigurationStore).Request) :
    w.Allows settings uid ⟨q, w.answer q⟩ := by
  cases q with
  | cancelled => exact ⟨rfl, fun _ called => by cases called⟩
  | plain r =>
    refine ⟨trivial, fun call called => ?_⟩
    cases r with
    | store request =>
      obtain rfl := List.mem_singleton.1 called
      exact w.answers_reply request
    | _ => cases called
  | watched r =>
    cases r with
    | store request =>
      refine ⟨rfl, fun call called => ?_⟩
      obtain rfl := List.mem_singleton.1 called
      exact w.answers_reply request
    | _ => exact ⟨rfl, fun _ called => by cases called⟩

theorem World.allows_follow {α : Type} (w : World) (p : Program (Supervised ConfigurationStore) α) :
    ∀ e ∈ p.follow w.answer, w.Allows settings uid e := by
  induction p with
  | done value => exact fun _ h => absurd h List.not_mem_nil
  | ask q next ih =>
    intro e he
    rcases List.mem_cons.1 he with rfl | he
    · exact w.allows_answer q
    · exact ih _ e he

/-- In a world in which all calls succeed and none is given up, a cycle that creates nothing leaves
nothing to do. Over the status that it has left a further cycle writes no status, tells of nothing
and creates nothing, however far it gets, and it goes on to end with the same action. -/
theorem quiescent {failures' : Failures} {later : List (Answered (Supervised ConfigurationStore))}
    {rest : Supervision (Outcome Action × Failures)} (owner : c.metadata.uid = some uid)
    (held : c.metadata.hasFinalizer cleanupFinalizer = true)
    (live : c.metadata.isDeleting = false)
    (first : (reconcile settings c failures).Reaches run (.done value))
    (world : ∀ e ∈ run, w.Allows settings uid e)
    (idle : ∀ call ∈ run.flatMap Supervised.calls, created? call = none) (stamp : Stamp)
    (second : (reconcile settings (again c stamp (statusLeft c run)) failures').Reaches later rest)
    (same : ∀ e ∈ later, w.Allows settings uid e) :
    (∀ e ∈ later, Within Ordinary e.request) ∧
      ∃ more left, rest.Reaches more (.done (value.1, left)) ∧
        ∀ e ∈ more, w.Allows settings uid e := by
  obtain ⟨now, outcome, cycle, plays, listed, status_eq, value_eq⟩ :=
    exists_play owner held live first world idle
  have stored : (again c stamp (statusLeft c run)).status.isSome = true := by
    rw [← isSome_of_lists listed, ← status_eq]
    rfl
  have standing : Standing c cycle (again c stamp (statusLeft c run)) :=
    ⟨⟨stamp, _, rfl⟩, status_eq, stored⟩
  have quiet : ∀ name, Quiet name (accounts settings w owner held)
      (again c stamp (statusLeft c run)) outcome {} :=
    fun name => plays.quiet name (apart_accounts owner held) (alike_of_eq rfl rfl) standing
  have under : (reconcile settings (again c stamp (statusLeft c run)) failures').Under
      (w.Allows settings uid) (Within Ordinary)
      fun v => v.1 = outcome.map (·.toAction (resyncOf settings c)) :=
    under_reconcile (step_accounts owner held) quiet live stored (standing.lists listed)
  obtain ⟨asked, left⟩ := under.reaches second same
  refine ⟨asked, ?_⟩
  obtain ⟨more, ⟨_, left⟩, ends, allowed, rfl⟩ := left.exists_end fun q => ⟨_, w.allows_answer q⟩
  refine ⟨more, left, ?_, allowed⟩
  rw [value_eq]
  exact ends

end

def settledWorld : World :=
  { provider := some readyProvider
    units := [succeeded .plan 3, succeeded .apply 3]
    outputs := some { data := some (Dict.insert ∅ SecretName.resourceCountKey [49, 50]) } }

def firstRun : List (Answered (Supervised ConfigurationStore)) :=
  (reconcile {} (sample []) .none).follow settledWorld.answer

def settledSample : Configuration :=
  again (sample []) ⟨some "8", none⟩ (statusLeft (sample []) firstRun)

theorem quiescent_counted :
    (statusLeft (sample []) firstRun).bind (·.resources) = some 12 ∧
    (∀ e ∈ (reconcile {} settledSample .none).follow settledWorld.answer,
      Within Ordinary e.request) ∧
    ∃ more left, (Program.done ((reconcile {} settledSample .none).finish
        settledWorld.answer) : Supervision _).Reaches more
        (.done (((reconcile {} (sample []) .none).finish settledWorld.answer).1, left)) ∧
      ∀ e ∈ more, settledWorld.Allows {} "u-1" e := by
  refine ⟨by decide +kernel, ?_⟩
  exact quiescent (w := settledWorld) rfl (by decide +kernel) rfl (Program.reaches_follow _ _)
    (settledWorld.allows_follow _) (by decide +kernel) ⟨some "8", none⟩ (Program.reaches_follow _ _)
    (settledWorld.allows_follow _)

end InfraOperator.Provisioning
