import InfraOperator.Proofs.Provisioning.Journal
import InfraOperator.Proofs.Provisioning.Units

/-!
# No work twice

A store that deletes no job and creates none under a name that is taken is visited by any number of
cycles of one uid. Whatever they read of the configuration and of the store, what brings executors
into existence at most once per stage, generation and wish for a retry is their name.
-/

set_option autoImplicit false

namespace InfraOperator

def Job.key (job : Job) : Option String × Option String :=
  (job.metadata.name, job.metadata.namespaceName)

namespace Provisioning

open Pipeline (keeps_of_forall)

/-- The keys that are taken in a store, and the jobs that the visits brought into existence. -/
structure Jobs where
  taken : List (Option String × Option String)
  made : List Job

namespace Jobs

/-- Creating a job under a key that is taken changes nothing. -/
def create (s : Jobs) (job : Job) : Jobs :=
  if job.key ∈ s.taken then s else ⟨job.key :: s.taken, job :: s.made⟩

/-- How calls may change the jobs of a store, whatever was answered to them: a call gets lost or
takes effect, and others may create jobs in between. -/
inductive Through : Jobs → Calls → Jobs → Prop
  | done (s : Jobs) : Through s [] s
  | unchanged {s s' : Jobs} {call : StoreCall ConfigurationStore} {calls : Calls}
      (h : Through s calls s') : Through s (call :: calls) s'
  | created {s s' : Jobs} {job : Job} {answer : Option (Outcome Unit)} {calls : Calls}
      (h : Through (s.create job) calls s') : Through s (⟨.createJob job, answer⟩ :: calls) s'
  | foreign {s s' : Jobs} {key : Option String × Option String} {calls : Calls}
      (h : Through ⟨key :: s.taken, s.made⟩ calls s') : Through s calls s'

def after (s : Jobs) (calls : Calls) : Jobs :=
  calls.foldl (fun s call => match created? call with
    | some job => s.create job
    | none => s) s

theorem through_after (s : Jobs) (calls : Calls) : Through s calls (s.after calls) := by
  induction calls generalizing s with
  | nil => exact .done s
  | cons call calls ih =>
    obtain ⟨request, answer⟩ := call
    cases request with
    | createJob job => exact .created (ih (s.create job))
    | _ => exact .unchanged (ih s)

structure Distinct (kind : Job → Prop) (s : Jobs) : Prop where
  taken : ∀ job ∈ s.made, job.key ∈ s.taken
  apart : s.made.Pairwise fun a b => a.key ≠ b.key
  kind : ∀ job ∈ s.made, kind job

theorem Distinct.create {kind : Job → Prop} {s : Jobs} {job : Job} (h : s.Distinct kind)
    (hj : kind job) : (s.create job).Distinct kind := by
  unfold Jobs.create
  by_cases known : job.key ∈ s.taken
  · rw [if_pos known]
    exact h
  rw [if_neg known]
  constructor
  · intro other hother
    rcases List.mem_cons.1 hother with rfl | hother
    · exact List.mem_cons_self ..
    · exact List.mem_cons_of_mem _ (h.taken other hother)
  · refine List.pairwise_cons.2 ⟨fun other hother same => known ?_, h.apart⟩
    rw [same]
    exact h.taken other hother
  · intro other hother
    rcases List.mem_cons.1 hother with rfl | hother
    · exact hj
    · exact h.kind other hother

theorem Distinct.through {kind : Job → Prop} {s s' : Jobs} {calls : Calls}
    (through : Through s calls s') (h : s.Distinct kind)
    (asked : ∀ call ∈ calls, ∀ job, created? call = some job → kind job) :
    s'.Distinct kind := by
  induction through with
  | done s => exact h
  | unchanged _ ih => exact ih h fun call hc => asked call (List.mem_cons_of_mem _ hc)
  | @created _ _ job _ _ _ ih =>
    have hj : kind job := asked _ (List.mem_cons_self ..) job rfl
    exact ih (h.create hj) fun call hc => asked call (List.mem_cons_of_mem _ hc)
  | foreign _ ih =>
    refine ih ⟨fun job hj => ?_, h.apart, h.kind⟩ asked
    exact List.mem_cons_of_mem _ (h.taken job hj)

theorem Distinct.length_filter_le {kind : Job → Prop} {s : Jobs} (h : s.Distinct kind)
    (p : Job → Bool) {key : Option String × Option String}
    (same : ∀ job, kind job → p job = true → job.key = key) : (s.made.filter p).length ≤ 1 := by
  have picked : ∀ job ∈ s.made.filter p, job.key = key := by
    intro job hj
    obtain ⟨made, hp⟩ := List.mem_filter.1 hj
    exact same job (h.kind job made) hp
  have apart : (s.made.filter p).Pairwise fun a b => a.key ≠ b.key := h.apart.filter p
  generalize s.made.filter p = jobs at picked apart
  match jobs with
  | [] => exact Nat.zero_le _
  | [_] => exact Nat.le_refl _
  | a :: b :: _ =>
    have hne : a.key ≠ b.key := (List.pairwise_cons.1 apart).1 b (List.mem_cons_self ..)
    have ha : a.key = key := picked a (List.mem_cons_self ..)
    have hb : b.key = key := picked b (List.mem_cons_of_mem _ (List.mem_cons_self ..))
    exact absurd (ha.trans hb.symm) hne

end Jobs

/-! ## What cycles ask to create -/

/-- An executor for the uid as these settings render it, or no executor at all. -/
def Rendered (settings : Settings) (uid : String) (job : Job) : Prop :=
  (∃ (r : UnitRequest) (account : String), r.settings = settings ∧ job = r.unitFor uid account) ∨
    job.isExecutor = false

def OnlyRendered (settings : Settings) (uid : String)
    (r : Surroundings.Request ConfigurationStore) : Prop :=
  ∀ job, r = .store (.createJob job) → Rendered settings uid job

variable {settings : Settings} {uid : String} {c : ConfigurationCycle}

theorem onlyRendered_of_ne {r : Surroundings.Request ConfigurationStore}
    (idle : ∀ job, r ≠ .store (.createJob job)) : OnlyRendered settings uid r :=
  fun job made => absurd made (idle job)

theorem StageRun.Asks.onlyRendered {s : StageRun} {own : Calls}
    {r : Surroundings.Request ConfigurationStore} (owner : c.resource.metadata.uid = some uid)
    (asks : s.Asks settings c own r) : OnlyRendered settings uid r := by
  intro job made
  cases asks with
  | provider => cases made
  | tell => cases made
  | watcher opens found on rendered watched =>
    cases made
    exact .inr (UnitRequest.isExecutor_of_renderWatcher watched)
  | unit opens found rendered watchers =>
    cases made
    obtain ⟨uid', account, owner', rfl⟩ := UnitRequest.exists_of_renderUnit rendered
    obtain rfl : uid = uid' := Option.some.inj (owner.symm.trans owner')
    exact .inl ⟨_, account, rfl, rfl⟩

theorem StepAsks.onlyRendered {r : Surroundings.Request ConfigurationStore}
    (owner : c.resource.metadata.uid = some uid) (asks : StepAsks settings c r) :
    OnlyRendered settings uid r := by
  cases asks with
  | ordinary h => exact onlyRendered_of_ne h.ne_createJob
  | stage asks => exact asks.onlyRendered owner
  | release => exact onlyRendered_of_ne fun job made => by cases made

/-- A step asks for no job but rendered ones and leaves the uid alone. -/
theorem does_rendered {deleting : Bool} (step : ConfigurationStep)
    (h : step ∈ stepsFor settings deleting) (c : ConfigurationCycle)
    (owner : c.resource.metadata.uid = some uid) :
    step.run.Does c (Staged.From c fun _ r => OnlyRendered settings uid r)
      (fun _ _ c' => c'.resource.metadata.uid = some uid) [] := by
  refine (does_stepsFor h).mono ?_ ?_
  · rintro own t r ⟨rfl, asks⟩
    exact ⟨rfl, asks.onlyRendered owner⟩
  · intro own verdict c' left
    rw [left.metadata_eq]
    exact owner

theorem safe_onlyRendered {object : Configuration} {failures : Failures}
    (owner : object.metadata.uid = some uid) :
    (observe settings object failures).Safe Supervised.notedCalls
      (Supervised.Allowed fun _ _ r => r.suspends → OnlyRendered settings uid r) (fun _ _ => True)
      [] := by
  have steps : ∀ name now, Pipeline.Keeps (fun _ _ r => OnlyRendered settings uid r)
      (fun _ _ c => c.resource.metadata.uid = some uid) (Pipeline.observeSteps name
        (stepsFor settings object.metadata.isDeleting) (openCycle object now)) [] :=
    fun name now => keeps_of_forall does_rendered [] owner
  refine safe_observe steps (fun _ _ _ _ _ _ asks => ?_) fun _ _ _ _ _ _ => ?_
  · exact onlyRendered_of_ne asks.ne_createJob
  · exact onlyRendered_of_ne fun job made => by cases made

/-- Whatever a cycle is answered, all jobs that it asks for are rendered ones. -/
theorem rendered_of_visit {v : Visit} (possible : v.Possible settings)
    (owner : v.configuration.metadata.uid = some uid) :
    ∀ call ∈ v.calls, ∀ job, created? call = some job → Rendered settings uid job := by
  intro call called job made
  obtain ⟨pre, e, post, ⟨rest, observed⟩, -, asks⟩ := possible.exists_entry called
  have safe : (observe settings v.configuration v.failures).Safe _ _ _ [] :=
    safe_onlyRendered owner
  have allowed := (safe.asked observed rfl).of_asksFor asks rfl
  obtain ⟨request, answer⟩ := call
  cases request with
  | createJob unit =>
    obtain rfl : unit = job := Option.some.inj made
    exact allowed unit rfl
  | _ => cases made

theorem key_of_rendered {stage : Stage} {generation : Int} {retry : Option Int} {job : Job}
    (h : Rendered settings uid job) (runs : job.runsFor uid stage generation retry = true) :
    job.key = (some (nameFor uid stage generation retry), some settings.namespaceName) := by
  rcases h with ⟨r, account, rfl, rfl⟩ | idle
  · exact Prod.ext (UnitRequest.name_of_runsFor runs) rfl
  · simp only [Job.runsFor, idle, Bool.false_and] at runs
    cases runs

/-- Any number of cycles of one uid, with anything read of the configuration and of the store and
any calls lost, bring into existence at most one executor for each stage, generation and wish for a
retry. -/
theorem executors_unique {visits : List Visit}
    (visited : ∀ v ∈ visits, v.Possible settings ∧ v.configuration.metadata.uid = some uid)
    {taken : List (Option String × Option String)} {jobs : Jobs}
    (through : Jobs.Through ⟨taken, []⟩ (visits.flatMap Visit.calls) jobs)
    (stage : Stage) (generation : Int) (retry : Option Int) :
    (jobs.made.filter (·.runsFor uid stage generation retry)).length ≤ 1 := by
  have start : Jobs.Distinct (Rendered settings uid) ⟨taken, []⟩ :=
    ⟨fun job h => absurd h List.not_mem_nil, .nil, fun job h => absurd h List.not_mem_nil⟩
  have finish : jobs.Distinct (Rendered settings uid) := by
    refine start.through through fun call asked job made => ?_
    obtain ⟨v, hv, asked⟩ := List.mem_flatMap.1 asked
    obtain ⟨possible, owner⟩ := visited v hv
    exact rendered_of_visit possible owner call asked job made
  exact finish.length_filter_le _ fun job rendered runs => key_of_rendered rendered runs

/-- Two cycles that are told of no units: both ask for the unit of the plan and for its watcher, and
the second finds the names taken. -/
def unseen : List Visit :=
  let s : Steady := { provider := some readyProvider }
  [s.visit (sample []), s.visit (sample [])]

theorem executors_unique_unseen :
    ((unseen.flatMap Visit.calls).filterMap created?).length = 4 ∧
    (Jobs.after ⟨[], []⟩ (unseen.flatMap Visit.calls)).made.length = 2 ∧
    ((Jobs.after ⟨[], []⟩ (unseen.flatMap Visit.calls)).made.any
      (·.runsFor "u-1" .plan 3 none)) = true ∧
    ((Jobs.after ⟨[], []⟩ (unseen.flatMap Visit.calls)).made.filter
      (·.runsFor "u-1" .plan 3 none)).length ≤ 1 := by
  refine ⟨by decide +kernel, by decide +kernel, by decide +kernel, ?_⟩
  have visited : ∀ v ∈ unseen, v.Possible {} ∧ v.configuration.metadata.uid = some "u-1" := by
    intro v hv
    obtain rfl : v = Steady.visit { provider := some readyProvider } (sample []) := by
      simpa [unseen] using hv
    exact ⟨Steady.possible_visit _ _, rfl⟩
  exact executors_unique visited (Jobs.through_after _ _) .plan 3 none

end Provisioning

end InfraOperator
