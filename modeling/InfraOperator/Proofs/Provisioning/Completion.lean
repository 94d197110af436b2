import InfraOperator.Proofs.Filters
import InfraOperator.Proofs.Provisioning.Journal

/-!
# Completion is backed

A condition of a stage is completed only by a unit that was listed with a success, and the
configuration is called ready only with its plan and its apply complete. What one cycle reads in the
status was written by cycles before it, so this holds along every history of cycles, whatever is
edited between them and whichever writes are lost.
-/

set_option autoImplicit false

namespace InfraOperator.Provisioning

open Conditions (complete Distinct)
open Pipeline (Keeps observeSteps keeps_cons)

/-! ## Conditions -/

/-- The conditions of a status for a generation: what stages claim there is evidence for, nothing is
known of later generations, and ready is only what is planned and applied. -/
structure Backed (evidence : Stage → Int → Prop) (generation : Int)
    (conditions : List Condition) : Prop where
  distinct : Distinct conditions
  evident : ∀ s ∈ StageRun.all, ∀ x ∈ conditions, x.type = s.condition → x.status = .true →
    evidence s.stage x.observedGeneration
  current : ∀ x ∈ conditions, x.status = .true → x.observedGeneration ≤ generation
  ready : complete conditions readyCondition generation = true →
    complete conditions Configuration.planned generation = true ∧
      complete conditions Configuration.applied generation = true

section Backed

variable {evidence evidence' : Stage → Int → Prop} {generation generation' : Int}
  {conditions : List Condition}

theorem backed_nil : Backed evidence generation [] where
  distinct := List.nodup_nil
  evident _ _ _ hx := absurd hx List.not_mem_nil
  current _ hx := absurd hx List.not_mem_nil
  ready h := absurd h Bool.false_ne_true

theorem Backed.mono (h : Backed evidence generation conditions)
    (more : ∀ stage g, evidence stage g → evidence' stage g) :
    Backed evidence' generation conditions where
  distinct := h.distinct
  evident s hs x hx typed met := more _ _ (h.evident s hs x hx typed met)
  current := h.current
  ready := h.ready

theorem Backed.le_of_complete (h : Backed evidence generation conditions) {type : String}
    {g : Int} (completed : complete conditions type g = true) : g ≤ generation := by
  obtain ⟨x, hx, met, observed⟩ := Conditions.complete_iff.1 completed
  rw [← observed]
  exact h.current x (List.mem_of_find?_eq_some hx) met

/-- A status stays backed when the generation moves on. -/
theorem Backed.advance (h : Backed evidence generation conditions)
    (later : generation ≤ generation') : Backed evidence generation' conditions where
  distinct := h.distinct
  evident := h.evident
  current x hx met := Int.le_trans (h.current x hx met) later
  ready completed := by
    have earlier : generation' ≤ generation := h.le_of_complete completed
    obtain rfl : generation = generation' := Int.le_antisymm later earlier
    exact h.ready completed

theorem Backed.register (h : Backed evidence generation conditions) (types : List String)
    (now : Instant) : Backed evidence generation (registerTypes types now conditions) where
  distinct := h.distinct.register
  evident s hs x hx typed met := by
    rcases Conditions.mem_registerTypes hx with hx | unknown
    · exact h.evident s hs x hx typed met
    · rw [unknown] at met
      cases met
  current x hx met := by
    rcases Conditions.mem_registerTypes hx with hx | unknown
    · exact h.current x hx met
    · rw [unknown] at met
      cases met
  ready := by
    simp only [Conditions.complete_registerTypes]
    exact h.ready

variable {c : ConfigurationCycle} {type message : String} {mark : Mark} {now : Instant}

theorem Backed.markAt (h : Backed evidence c.generation c.conditions)
    (evident : ∀ s ∈ StageRun.all, s.condition = type → mark = .success →
      evidence s.stage c.generation)
    (ready : (c.markAt type mark message now).2.isComplete readyCondition = true →
      (c.markAt type mark message now).2.isComplete Configuration.planned = true ∧
        (c.markAt type mark message now).2.isComplete Configuration.applied = true) :
    Backed evidence c.generation (c.markAt type mark message now).2.conditions where
  distinct := Cycle.distinct_markAt h.distinct
  evident s hs x hx typed met := by
    rcases Cycle.mem_conditions_markAt hx with hx | said
    · exact h.evident s hs x hx typed met
    · rw [said.generation_eq]
      refine evident s hs (typed.symm.trans said.type_eq) ?_
      exact Mark.eq_success_of_status (said.status_eq.symm.trans met)
  current x hx met := by
    rcases Cycle.mem_conditions_markAt hx with hx | said
    · exact h.current x hx met
    · exact Int.le_of_eq said.generation_eq
  ready := by
    simp only [Cycle.isComplete_eq, Cycle.generation_markAt] at ready
    exact ready

/-- A configuration that is ready stays planned and applied, unless a stage is marked otherwise. -/
theorem Backed.ready_markAt (h : Backed evidence c.generation c.conditions)
    (ready : c.isComplete readyCondition = true)
    (stays : type ∈ stageConditions → c.isComplete type = true → mark = .success) :
    (c.markAt type mark message now).2.isComplete Configuration.planned = true ∧
      (c.markAt type mark message now).2.isComplete Configuration.applied = true := by
  rw [Cycle.isComplete_eq] at ready
  obtain ⟨planned, applied⟩ := h.ready ready
  rw [← Cycle.isComplete_eq] at planned applied
  have stage : ∀ stage ∈ stageConditions, c.isComplete stage = true →
      (c.markAt type mark message now).2.isComplete stage = true := by
    intro stage hs completed
    refine Cycle.isComplete_markAt_of_isComplete completed fun same => ?_
    subst same
    exact stays hs completed
  exact ⟨stage _ (by decide) planned, stage _ (by decide) applied⟩

theorem Backed.unmet (h : Backed evidence c.generation c.conditions) (failed : mark ≠ .success)
    (incomplete : type ∈ stageConditions → c.isComplete type = false) :
    Backed evidence c.generation (c.markAt type mark message now).2.conditions := by
  refine h.markAt (fun _ _ _ succeeded => absurd succeeded failed) fun ready => ?_
  by_cases self : readyCondition = type
  · subst self
    rw [Cycle.isComplete_markAt] at ready
    exact absurd (of_decide_eq_true ready) failed
  · rw [Cycle.isComplete_markAt_of_ne self] at ready
    refine h.ready_markAt ready fun stage completed => ?_
    exact absurd ((incomplete stage).symm.trans completed) Bool.false_ne_true

theorem Backed.met (h : Backed evidence c.generation c.conditions)
    (evident : ∀ s ∈ StageRun.all, s.condition = type → evidence s.stage c.generation)
    (other : readyCondition ≠ type) :
    Backed evidence c.generation (c.markAt type .success message now).2.conditions := by
  refine h.markAt (fun s hs typed _ => evident s hs typed) fun ready => ?_
  rw [Cycle.isComplete_markAt_of_ne other] at ready
  exact h.ready_markAt ready fun _ _ => rfl

theorem Backed.crowned (h : Backed evidence c.generation c.conditions)
    (planned : c.isComplete Configuration.planned = true)
    (applied : c.isComplete Configuration.applied = true) :
    Backed evidence c.generation (c.markAt readyCondition .success message now).2.conditions := by
  refine h.markAt (fun s hs typed _ => ?_) fun _ => ?_
  · have other : ∀ s ∈ StageRun.all, s.condition ≠ readyCondition := by decide
    exact absurd typed (other s hs)
  · rw [Cycle.isComplete_markAt_of_ne (by decide), Cycle.isComplete_markAt_of_ne (by decide)]
    exact ⟨planned, applied⟩

end Backed

/-! ## Within a cycle -/

def Witnessed (settings : Settings) (uid : String) (calls : Calls) (stage : Stage)
    (generation : Int) : Prop :=
  ∃ units : List Job, told (.listUnits settings.namespaceName uid) (.ok units) ∈ calls ∧
    ∃ unit ∈ units, unit.ServesIn settings.namespaceName uid stage generation ∧
      0 < unit.succeededCount

def Known (settings : Settings) (uid : String) (earlier : Stage → Int → Prop)
    (c : Configuration) (past : Calls) (stage : Stage) (generation : Int) : Prop :=
  earlier stage generation ∨
    generation = Resource.generation c ∧ Witnessed settings uid past stage generation

structure Sound (settings : Settings) (uid : String) (earlier : Stage → Int → Prop)
    (c : Configuration) (past : Calls) (cycle : ConfigurationCycle) : Prop where
  metadata_eq : cycle.resource.metadata = c.metadata
  listed : ∀ unit ∈ cycle.scratch.units, ∃ units : List Job,
    told (.listUnits settings.namespaceName uid) (.ok units) ∈ past ∧ unit ∈ units
  backed : Backed (Known settings uid earlier c past) cycle.generation cycle.conditions

section Cycle

variable {settings : Settings} {uid : String} {earlier : Stage → Int → Prop} {c : Configuration}
  {past own : Calls} {cycle cycle' : ConfigurationCycle}

theorem Known.later {stage : Stage} {generation : Int}
    (h : Known settings uid earlier c past stage generation) (own : Calls) :
    Known settings uid earlier c (past ++ own) stage generation := by
  rcases h with h | ⟨same, units, listed, witness⟩
  · exact .inl h
  · exact .inr ⟨same, units, List.mem_append_left own listed, witness⟩

theorem Sound.later (h : Sound settings uid earlier c past cycle) (own : Calls) :
    Sound settings uid earlier c (past ++ own) cycle where
  metadata_eq := h.metadata_eq
  listed unit hu := by
    obtain ⟨units, listed, hu⟩ := h.listed unit hu
    exact ⟨units, List.mem_append_left own listed, hu⟩
  backed := h.backed.mono fun _ _ known => known.later own

theorem Sound.marked (h : Sound settings uid earlier c past cycle) {type message : String}
    {mark : Mark} {now : Instant}
    (backed : Backed (Known settings uid earlier c past) cycle.generation
      (cycle.markAt type mark message now).2.conditions) :
    Sound settings uid earlier c past (cycle.markAt type mark message now).2 where
  metadata_eq := metadata_markAt.trans h.metadata_eq
  listed := by
    rw [Cycle.scratch_markAt]
    exact h.listed
  backed := by
    rw [Cycle.generation_markAt]
    exact backed

/-- A unit that was found complete is the evidence for its stage. -/
theorem Sound.known (h : Sound settings uid earlier c past cycle) {stage : Stage} {unit : Job}
    (latest : (cycle.resource.unitFilter settings.namespaceName uid stage).latest?
      cycle.scratch.units = some unit) (state : unit.state = .complete) :
    Known settings uid earlier c past stage cycle.generation := by
  obtain ⟨hu, accepted⟩ := UnitFilter.mem_of_latest? latest
  obtain ⟨units, listed, hu⟩ := h.listed unit hu
  refine .inr ⟨congrArg ObjectMeta.generationOrZero h.metadata_eq, units, listed, unit, hu, ?_, ?_⟩
  · exact Configuration.servesIn_of_accepts accepted
  · exact Job.succeeded_of_complete state

theorem uid_of_sound (h : Sound settings uid earlier c past cycle)
    (owner : c.metadata.uid = some uid) {uid' : String}
    (owner' : cycle.resource.ownerUid = .ok uid') : uid' = uid := by
  unfold Configuration.ownerUid at owner'
  rw [h.metadata_eq, owner] at owner'
  exact (Except.ok.inj owner').symm

/-- What a step makes of a sound cycle is sound. -/
theorem Sound.change (h : Sound settings uid earlier c past cycle)
    (owner : c.metadata.uid = some uid) (change : Change settings cycle own cycle') :
    Sound settings uid earlier c (past ++ own) cycle' := by
  have h := h.later own
  cases change with
  | kept => exact h
  | unmet failed incomplete => exact h.marked (h.backed.unmet failed incomplete)
  | @provided p message now =>
    have stageless : ∀ s ∈ StageRun.all, s.condition ≠ Configuration.providerReady := by decide
    have marked : Sound settings uid earlier c (past ++ own)
        (cycle.markAt Configuration.providerReady .success message now).2 :=
      h.marked (h.backed.met (fun s hs same => absurd same (stageless s hs)) (by decide))
    exact ⟨marked.metadata_eq, h.listed, marked.backed⟩
  | selected => exact ⟨h.metadata_eq, h.listed, h.backed⟩
  | @listed uid' units owner' listed =>
    obtain rfl : uid' = uid := uid_of_sound h owner owner'
    refine ⟨h.metadata_eq, fun unit hu => ⟨units, ?_, hu⟩, h.backed⟩
    exact List.mem_append_right past listed
  | @succeeded s uid' message unit now hs owner' latest state =>
    obtain rfl : uid' = uid := uid_of_sound h owner owner'
    refine h.marked (h.backed.met (fun s' hs' same => ?_) ?_)
    · have injective : ∀ s ∈ StageRun.all, ∀ s' ∈ StageRun.all, s'.condition = s.condition →
          s' = s := by decide
      rw [injective s hs s' hs' same]
      exact h.known latest state
    · have other : ∀ s ∈ StageRun.all, readyCondition ≠ s.condition := by decide
      exact other s hs
  | @counted count =>
    have metadata_eq := metadata_counted (c := cycle) count
    refine ⟨metadata_eq.trans h.metadata_eq, ?_, ?_⟩
    · rw [scratch_counted]
      exact h.listed
    · rw [conditions_counted, generation_eq metadata_eq]
      exact h.backed
  | cleaned => exact ⟨h.metadata_eq, h.listed, h.backed⟩

/-! ## The steps -/

def WritesBacked (settings : Settings) (uid : String) (earlier : Stage → Int → Prop)
    (c : Configuration) (past : Calls) (r : Surroundings.Request ConfigurationStore) : Prop :=
  ∀ written, r = .store (.patchStatus written) →
    Backed (Known settings uid earlier c past) (Resource.generation c) written.conditions

/-- From here on only backed statuses are written, and the cycle stays sound. -/
abbrev Sounds (settings : Settings) (uid : String) (earlier : Stage → Int → Prop)
    (c : Configuration) (name : String) (steps : List ConfigurationStep)
    (cycle : ConfigurationCycle) (past : Calls) : Prop :=
  Keeps (fun past _ => WritesBacked settings uid earlier c past)
    (fun past _ => Sound settings uid earlier c past) (observeSteps name steps cycle) past

variable {name : String} {step : ConfigurationStep} {rest : List ConfigurationStep}

theorem sounds_cons {asks : Calls → Surroundings.Request ConfigurationStore → Prop}
    {ends : Calls → Verdict → ConfigurationCycle → Prop} (owner : c.metadata.uid = some uid)
    (sound : Sound settings uid earlier c past cycle)
    (does : step.run.Does cycle (Staged.From cycle asks) ends [])
    (silent : ∀ own r, asks own r → ∀ written, r ≠ .store (.patchStatus written))
    (change : ∀ own verdict c', ends own verdict c' → Change settings cycle own c')
    (next : ∀ own verdict c', ends own verdict c' → verdict.ending? = none →
      Sound settings uid earlier c (past ++ own) c' →
      Sounds settings uid earlier c name rest c' (past ++ own)) :
    Sounds settings uid earlier c name (step :: rest) cycle past := by
  refine keeps_cons does ?_ sound ?_ ?_ ?_
  · intro own r asked written wrote
    exact absurd wrote (silent own r asked written)
  · intro own r _ _
    rw [List.append_assoc]
    exact sound.later _
  · intro own verdict c' ending ended _
    exact sound.change owner (change own verdict c' ended)
  · intro own verdict c' ended go
    exact next own verdict c' ended go (sound.change owner (change own verdict c' ended))

theorem sounds_calm (owner : c.metadata.uid = some uid)
    (sound : Sound settings uid earlier c past cycle) (calm : Calm settings step)
    (next : ∀ own c', Change settings cycle own c' →
      Sound settings uid earlier c (past ++ own) c' →
      Sounds settings uid earlier c name rest c' (past ++ own)) :
    Sounds settings uid earlier c name (step :: rest) cycle past := by
  exact sounds_cons owner sound (calm cycle) (fun _ _ ordinary => ordinary.ne_patchStatus)
    (fun _ _ _ change => change) fun own _ c' change _ sound => next own c' change sound

/-- A stage that lets the others go on is complete, unless there was nothing to verify. -/
theorem sounds_stage {s : StageRun} (hs : s ∈ StageRun.all) (owner : c.metadata.uid = some uid)
    (sound : Sound settings uid earlier c past cycle)
    (next : ∀ own c', Change settings cycle own c' → s.Passes cycle c' →
      Sound settings uid earlier c (past ++ own) c' →
      Sounds settings uid earlier c name rest c' (past ++ own)) :
    Sounds settings uid earlier c name (s.toStep settings :: rest) cycle past :=
  sounds_cons owner sound StageRun.does_run (fun _ _ asks => asks.ne_patchStatus)
    (fun _ _ _ ends => ends.change hs)
    fun own _ c' ends go sound => next own c' (ends.change hs) (ends.passes go).2 sound

theorem sounds_ensureReady (sound : Sound settings uid earlier c past cycle)
    (planned : cycle.isComplete Configuration.planned = true)
    (applied : cycle.isComplete Configuration.applied = true) :
    Sounds settings uid earlier c name [ensureReady] cycle past := by
  refine keeps_cons does_ensureReady (fun _ _ => False.elim) sound (fun _ _ => False.elim) ?_ ?_
  · rintro own verdict c' ending ⟨rfl, rfl, -⟩ ended
    cases ended
  · rintro own verdict c' ⟨rfl, rfl, now, rfl⟩ -
    rw [List.append_nil]
    exact sound.marked (sound.backed.crowned planned applied)

theorem sounds_provisioning (owner : c.metadata.uid = some uid)
    (sound : Sound settings uid earlier c past cycle) :
    Sounds settings uid earlier c name (provisioningSteps settings) cycle past := by
  refine sounds_calm owner sound calm_ensureFinalizer fun _ _ _ sound => ?_
  refine sounds_calm owner sound calm_ensureNoPreviousGeneration fun _ _ _ sound => ?_
  refine sounds_calm owner sound calm_ensureProviderReady fun _ _ _ sound => ?_
  refine sounds_calm owner sound calm_ensurePolicies fun _ _ _ sound => ?_
  refine sounds_calm owner sound calm_ensureUnitListing fun _ _ _ sound => ?_
  refine sounds_calm owner sound calm_ensureJobConfiguration fun _ _ _ sound => ?_
  refine sounds_stage (by decide) owner sound fun _ _ _ passed sound => ?_
  have planned := passed.done.resolve_right fun h => by cases h.1
  refine sounds_stage (by decide) owner sound fun _ _ verified _ sound => ?_
  have planned := verified.isComplete (by decide) planned
  refine sounds_stage (by decide) owner sound fun _ _ change passed sound => ?_
  have planned := change.isComplete (by decide) planned
  have applied := passed.done.resolve_right fun h => by cases h.1
  refine sounds_calm owner sound calm_ensureResourceCount fun _ _ counted sound => ?_
  have planned := counted.isComplete (by decide) planned
  have applied := counted.isComplete (by decide) applied
  refine sounds_calm owner sound calm_ensureConnectionSecret fun _ _ copied sound => ?_
  have planned := copied.isComplete (by decide) planned
  have applied := copied.isComplete (by decide) applied
  exact sounds_ensureReady sound planned applied

theorem sounds_deletion (owner : c.metadata.uid = some uid)
    (sound : Sound settings uid earlier c past cycle) :
    Sounds settings uid earlier c name (deletionSteps settings) cycle past := by
  refine sounds_calm owner sound calm_ensureUnitListing fun _ _ _ sound => ?_
  refine sounds_cons owner sound does_ensureDestroy ?_ (fun _ _ _ ends => ends.change)
    fun _ _ _ _ _ sound => ?_
  · intro own r asks written
    cases asks with
    | state => exact nofun
    | stage _ asks => exact asks.ne_patchStatus written
  refine sounds_calm owner sound calm_ensureConfigurationRemoved fun _ _ _ sound => ?_
  refine sounds_cons owner sound does_ensureFinalizerRemoved ?_ (fun _ _ _ ends => ends.change)
    fun _ _ _ _ _ sound => sound
  rintro own r ⟨-, name, ns, rfl⟩ written wrote
  cases wrote

theorem sound_openCycle (start : Backed earlier (Resource.generation c) c.conditions)
    (now : Instant) : Sound settings uid earlier c [] (openCycle c now) where
  metadata_eq := rfl
  listed _ hu := absurd hu List.not_mem_nil
  backed := (start.register _ now).mono fun _ _ => .inl

theorem safe_writesBacked {failures : Failures} (owner : c.metadata.uid = some uid)
    (start : Backed earlier (Resource.generation c) c.conditions) :
    (observe settings c failures).Safe Supervised.notedCalls
      (Supervised.Allowed fun past _ r => r.suspends → WritesBacked settings uid earlier c past r)
      (fun _ _ => True) [] := by
  have steps : ∀ name now, Sounds settings uid earlier c name
      (stepsFor settings c.metadata.isDeleting) (openCycle c now) [] := by
    intro name now
    unfold stepsFor
    split
    · exact sounds_deletion owner (sound_openCycle start now)
    · exact sounds_provisioning owner (sound_openCycle start now)
  refine safe_observe steps (fun past own _ cycle r sound asks => ?_) fun _ _ _ _ _ _ => ?_
  · rintro written rfl
    cases asks with
    | prompt quick => cases quick
    | write =>
      have same : cycle.generation = Resource.generation c :=
        congrArg ObjectMeta.generationOrZero sound.metadata_eq
      have later := (sound.later own).backed
      rw [same] at later
      exact later
  · intro written wrote
    cases wrote

end Cycle

/-! ## Along a history -/

/-- What a visit writes is backed by what it was started with and what it lists. -/
theorem backed_of_visit {settings : Settings} {uid : String} {earlier : Stage → Int → Prop}
    {v : Visit} (possible : v.Possible settings)
    (owner : v.configuration.metadata.uid = some uid)
    (start : Backed earlier (Resource.generation v.configuration) v.configuration.conditions)
    {written : Configuration} (wrote : written ∈ v.written) :
    Backed (Known settings uid earlier v.configuration v.calls)
      (Resource.generation v.configuration) written.conditions := by
  obtain ⟨⟨request, answer⟩, called, wrote⟩ := List.mem_filterMap.1 wrote
  obtain ⟨pre, e, post, ⟨rest, observed⟩, calls_eq, asks⟩ := possible.exists_entry called
  have allowed := (safe_writesBacked owner start).asked observed rfl
  cases request with
  | patchStatus c =>
    obtain rfl : c = written := Option.some.inj wrote
    have backed := allowed.of_asksFor asks rfl c rfl
    rw [List.nil_append] at backed
    refine backed.mono fun stage generation known => ?_
    rw [calls_eq, List.flatMap_append]
    exact known.later _
  | _ => cases wrote

/-- Cycles of one uid, one after the other, at generations that never fall. No one else writes the
status: each cycle reads none, or one that an earlier cycle may have stored. -/
inductive History (settings : Settings) (uid : String) : List Visit → Prop
  | nil : History settings uid []
  | snoc {past : List Visit} {v : Visit} (earlier : History settings uid past)
      (possible : v.Possible settings) (owner : v.configuration.metadata.uid = some uid)
      (rising : ∀ w ∈ past,
        Resource.generation w.configuration ≤ Resource.generation v.configuration)
      (read : v.configuration.conditions = [] ∨ ∃ w ∈ past, ∃ stored ∈ w.written,
        v.configuration.conditions = stored.conditions) :
      History settings uid (past ++ [v])

/-- Some visit read the configuration at the generation and listed a unit with a success. -/
def Evidence (settings : Settings) (uid : String) (visits : List Visit) (stage : Stage)
    (generation : Int) : Prop :=
  ∃ w ∈ visits, Resource.generation w.configuration = generation ∧
    Witnessed settings uid w.calls stage generation

theorem Evidence.mono {settings : Settings} {uid : String} {visits later : List Visit}
    {stage : Stage} {generation : Int} (h : Evidence settings uid visits stage generation)
    (sub : visits ⊆ later) : Evidence settings uid later stage generation := by
  obtain ⟨w, hw, evident⟩ := h
  exact ⟨w, sub hw, evident⟩

theorem History.backed {settings : Settings} {uid : String} {visits : List Visit}
    (history : History settings uid visits) :
    ∀ v ∈ visits, ∀ written ∈ v.written,
      Backed (Evidence settings uid visits) (Resource.generation v.configuration)
        written.conditions := by
  induction history with
  | nil => exact fun v hv => absurd hv List.not_mem_nil
  | @snoc past v earlier possible owner rising read ih =>
    intro w hw written wrote
    rcases List.mem_append.1 hw with hw | hw
    · exact (ih w hw written wrote).mono fun _ _ evident =>
        evident.mono (List.subset_append_left past [v])
    obtain rfl : w = v := List.mem_singleton.1 hw
    have start : Backed (Evidence settings uid past) (Resource.generation w.configuration)
        w.configuration.conditions := by
      rcases read with none | ⟨u, hu, stored, wrote, same⟩
      · rw [none]
        exact backed_nil
      · rw [same]
        exact (ih u hu stored wrote).advance (rising u hu)
    refine (backed_of_visit possible owner start wrote).mono ?_
    rintro stage generation (evident | ⟨same, witnessed⟩)
    · exact evident.mono (List.subset_append_left past [w])
    · exact ⟨w, by simp, same.symm, witnessed⟩

theorem History.upTo {settings : Settings} {uid : String} {visits : List Visit}
    (history : History settings uid visits) :
    ∀ pre post, visits = pre ++ post → History settings uid pre := by
  induction history with
  | nil =>
    intro pre post parts
    obtain ⟨rfl, -⟩ := List.append_eq_nil_iff.1 parts.symm
    exact .nil
  | @snoc past v earlier possible owner rising read ih =>
    intro pre post parts
    rcases List.eq_nil_or_concat post with rfl | ⟨init, last, rfl⟩
    · rw [List.append_nil] at parts
      rw [← parts]
      exact .snoc earlier possible owner rising read
    · rw [List.concat_eq_append, ← List.append_assoc] at parts
      exact ih pre init (List.append_inj_left' parts rfl)

/-- In every status that a history may have stored, a stage that is complete for a generation is
backed by a unit that was listed with a success by then, and a configuration that is ready for its
generation, or for any later one, is planned and applied for it. -/
theorem completion_backed {settings : Settings} {uid : String} {visits : List Visit}
    (history : History settings uid visits) {pre post : List Visit} {v : Visit}
    (parts : visits = pre ++ v :: post) {written : Configuration} (wrote : written ∈ v.written) :
    (∀ s ∈ StageRun.all, ∀ x ∈ written.conditions, ∀ generation, x.type = s.condition →
      x.isComplete generation = true →
      Evidence settings uid (pre ++ [v]) s.stage generation) ∧
    ∀ x ∈ written.conditions, ∀ generation, x.type = readyCondition →
      x.isComplete generation = true →
      Resource.generation v.configuration ≤ generation →
      complete written.conditions Configuration.planned generation = true ∧
        complete written.conditions Configuration.applied generation = true := by
  have known : History settings uid (pre ++ [v]) :=
    history.upTo (pre ++ [v]) post (by rw [parts, List.append_assoc]; rfl)
  have backed := known.backed v (by simp) written wrote
  constructor
  · intro s hs x hx generation typed completed
    obtain ⟨met, observed⟩ := Bool.and_eq_true_iff.1 completed
    have evident := backed.evident s hs x hx typed (of_decide_eq_true met)
    rwa [of_decide_eq_true observed] at evident
  · intro x hx generation typed completed later
    obtain ⟨met, observed⟩ := Bool.and_eq_true_iff.1 completed
    have current := backed.current x hx (of_decide_eq_true met)
    rw [of_decide_eq_true observed] at current
    obtain rfl := Int.le_antisymm later current
    have found : findCondition written.conditions readyCondition = some x := by
      rw [← typed]
      exact backed.distinct.find hx
    exact backed.ready (Conditions.complete_iff.2
      ⟨x, found, of_decide_eq_true met, of_decide_eq_true observed⟩)

def readyVisit : Visit :=
  Steady.visit { provider := some readyProvider, units := [succeeded .plan 3, succeeded .apply 3] }
    (sample [])

def readyStored : Configuration := readyVisit.written.headD (sample [])

def editedVisit : Visit :=
  Steady.visit { provider := some readyProvider, units := [succeeded .plan 4] }
    { sample readyStored.conditions with
      metadata := { (sample []).metadata with generation := some 4 } }

def editedStored : Configuration := editedVisit.written.headD (sample [])

theorem history_edited : History {} "u-1" [readyVisit, editedVisit] := by
  have first : History {} "u-1" [readyVisit] :=
    .snoc .nil (Steady.possible_visit _ _) rfl (fun w hw => absurd hw List.not_mem_nil) (.inl rfl)
  refine .snoc first (Steady.possible_visit _ _) rfl (fun w hw => ?_) (.inr ?_)
  · obtain rfl : w = readyVisit := List.mem_singleton.1 hw
    decide +kernel
  · exact ⟨readyVisit, List.mem_singleton_self _, readyStored, by decide +kernel, rfl⟩

theorem completion_backed_edited :
    (complete editedStored.conditions Configuration.planned 4 = true ∧
      complete editedStored.conditions readyCondition 3 = true) ∧
    (∀ s ∈ StageRun.all, ∀ x ∈ editedStored.conditions, ∀ generation, x.type = s.condition →
      x.isComplete generation = true →
      Evidence {} "u-1" [readyVisit, editedVisit] s.stage generation) ∧
    ∀ x ∈ editedStored.conditions, ∀ generation, x.type = readyCondition →
      x.isComplete generation = true →
      Resource.generation editedVisit.configuration ≤ generation →
      complete editedStored.conditions Configuration.planned generation = true ∧
        complete editedStored.conditions Configuration.applied generation = true := by
  have parts : [readyVisit, editedVisit] = [readyVisit] ++ editedVisit :: [] := rfl
  exact ⟨by decide +kernel, completion_backed history_edited parts (by decide +kernel)⟩

end InfraOperator.Provisioning
