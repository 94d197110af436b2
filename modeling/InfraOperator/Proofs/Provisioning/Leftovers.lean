import InfraOperator.Cluster.Answer
import InfraOperator.Proofs.Provisioning.Correlation
import InfraOperator.Proofs.Provisioning.Release

/-!
# What a clean-up leaves behind

Whatever the cycles of a configuration create is named or labelled so that its clean-up deletes it,
or it refers to the configuration and goes with it. The exception is the copy of the outputs: in a
namespace of its own choice it can refer to no owner, and the clean-up does not look for it
(`connection_left_behind`). Nothing else is left behind (`swept_or_owned`).
-/

set_option autoImplicit false

namespace InfraOperator.Provisioning

open Pipeline (Keeps observeSteps keeps_cons_of_any_end keeps_of_forall)

inductive Artifact where
  | job (unit : Job)
  | secret (made : Secret)

namespace Artifact

def metadata : Artifact → ObjectMeta
  | .job unit => unit.metadata
  | .secret made => made.metadata

def creation : Artifact → ConfigurationCall
  | .job unit => .createJob unit
  | .secret made => .createSecret made

theorem creation_inj {a b : Artifact} (h : a.creation = b.creation) : a = b := by
  cases a with
  | job =>
    cases b with
    | job =>
      cases h
      rfl
    | secret => cases h
  | secret =>
    cases b with
    | job => cases h
    | secret =>
      cases h
      rfl

inductive DeletedBy : Artifact → StoreCall ConfigurationStore → Prop
  | unit {unit : Job} {ns uid : String} (covered : Cluster.isUnitOf ns uid unit = true) :
      DeletedBy (job unit) (told (.deleteUnits ns uid) (.ok ()))
  | named {made : Secret} {name ns : String} {existed : Bool}
      (placed : Cluster.isSecret name ns made = true) :
      DeletedBy (secret made) (told (.deleteSecret name ns) (.ok existed))

def StandsIn (cluster : Cluster) : Artifact → Prop
  | .job unit => unit ∈ cluster.jobs
  | .secret made => made ∈ cluster.secrets

/-- In a cluster in memory it is gone by then. -/
theorem DeletedBy.gone {a : Artifact} {call : StoreCall ConfigurationStore} (h : a.DeletedBy call)
    (habits : Cluster.Habits) (cluster : Cluster) :
    ¬ a.StandsIn (Cluster.configurationCall habits call.request cluster).2 := by
  intro stands
  cases h with
  | unit covered =>
    have kept := (List.mem_filter.1 stands).2
    rw [covered] at kept
    cases kept
  | named placed =>
    have kept := (List.mem_filter.1 stands).2
    rw [placed] at kept
    cases kept

def RefersTo (c : Configuration) (a : Artifact) : Prop :=
  ∃ owner ∈ a.metadata.ownerReferences.getD [], owner.apiVersion = Group.apiVersion ∧
    owner.kind = Configuration.kindName ∧ c.metadata.uid = some owner.uid

structure OwnedBy (c : Configuration) (a : Artifact) : Prop where
  home : a.metadata.namespaceName = c.metadata.namespaceName
  refers : a.RefersTo c

/-- The copy of the outputs under the name that the configuration wants for it, but elsewhere, or
for a configuration without a name to refer to. -/
inductive Stray (c : Configuration) : Artifact → Prop
  | copy {copy : Secret} {target : SecretRef} (wanted : c.spec.connectionSecret = some target)
      (named : copy.metadata.name = some target.name)
      (elsewhere : copy.metadata.namespaceName ≠ c.metadata.namespaceName ∨
        c.metadata.name = none) : Stray c (secret copy)

inductive Accounted (settings : Settings) (c : Configuration) (uid : String) : Artifact → Prop
  | unit {unit : Job} (covered : Cluster.isUnitOf settings.namespaceName uid unit = true) :
      Accounted settings c uid (job unit)
  | generated {made : Secret} {name : String} (listed : name ∈ generatedSecrets uid)
      (placed : Cluster.isSecret name settings.namespaceName made = true) :
      Accounted settings c uid (secret made)
  | owned {a : Artifact} (h : a.OwnedBy c) : Accounted settings c uid a
  | stray {a : Artifact} (live : c.metadata.isDeleting = false) (h : a.Stray c) :
      Accounted settings c uid a

theorem OwnedBy.congr {c c' : Configuration} {a : Artifact} (h : a.OwnedBy c)
    (home_eq : c.metadata.namespaceName = c'.metadata.namespaceName)
    (uid_eq : c.metadata.uid = c'.metadata.uid) : a.OwnedBy c' := by
  obtain ⟨home, owner, listed, version, kind, uid⟩ := h
  exact ⟨home.trans home_eq, owner, listed, version, kind, uid_eq.symm.trans uid⟩

end Artifact

def Barren : ConfigurationCall → Prop
  | .createJob _ | .createSecret _ => False
  | _ => True

theorem Barren.ne_creation {call : ConfigurationCall} (h : Barren call) (a : Artifact) :
    call ≠ a.creation := by
  rintro rfl
  cases a with
  | job => exact h
  | secret => exact h

theorem SettleAsks.ne_creation {cycle : ConfigurationCycle}
    {r : Surroundings.Request ConfigurationStore} (h : SettleAsks cycle r) (a : Artifact) :
    r ≠ .store a.creation := by
  rintro rfl
  cases a with
  | job =>
    cases h with
    | prompt quick => cases quick
  | secret =>
    cases h with
    | prompt quick => cases quick

def Sweeps : ConfigurationCall → Prop
  | .deleteUnits _ _ | .deleteSecret _ _ => True
  | _ => False

theorem Sweeps.barren {call : ConfigurationCall} (h : Sweeps call) : Barren call := by
  cases call with
  | createJob => exact h
  | createSecret => exact h
  | _ => trivial

theorem Artifact.DeletedBy.sweeps {a : Artifact} {call : StoreCall ConfigurationStore}
    (h : a.DeletedBy call) : Sweeps call.request := by
  cases h <;> trivial

/-! ## What is created -/

def Credited (settings : Settings) (c : Configuration) (uid : String)
    (r : Surroundings.Request ConfigurationStore) : Prop :=
  ∀ a : Artifact, r = .store a.creation → a.Accounted settings c uid

/-- The cycle has the configuration as it was read, but for its status. -/
structure Reflects (c : Configuration) (cycle : ConfigurationCycle) : Prop where
  metadata_eq : cycle.resource.metadata = c.metadata
  spec_eq : cycle.resource.spec = c.spec

section Created

variable {settings : Settings} {c : Configuration} {uid : String}
  {cycle cycle' : ConfigurationCycle} {own : Calls} {r : Surroundings.Request ConfigurationStore}

theorem credited_of_ne (idle : ∀ a : Artifact, r ≠ .store a.creation) :
    Credited settings c uid r :=
  fun a made => absurd made (idle a)

theorem credited_of_barren {call : ConfigurationCall} (h : Barren call) :
    Credited settings c uid (.store call) :=
  credited_of_ne fun a made => h.ne_creation a (Surroundings.Request.store.inj made)

theorem credited_of_accounted {b : Artifact} (accounted : b.Accounted settings c uid) :
    Credited settings c uid (.store b.creation) := by
  intro a made
  have same := Artifact.creation_inj (Surroundings.Request.store.inj made)
  rw [← same]
  exact accounted

theorem credited_of_publish {notice : Notice} : Credited settings c uid (.publish notice) :=
  credited_of_ne fun _ made => by cases made

theorem Reflects.leaves (h : Reflects c cycle) (leaves : Leaves settings cycle own cycle') :
    Reflects c cycle' := by
  refine ⟨leaves.metadata_eq.trans h.metadata_eq, ?_⟩
  cases leaves with
  | changed change => exact change.spec_eq.trans h.spec_eq
  | ready made =>
    rw [made, spec_markAt]
    exact h.spec_eq

/-- A unit has the labels by which units are swept. -/
theorem isUnitOf_unitFor {q : UnitRequest} {account : String}
    (owner : q.configuration.metadata.uid = some uid) :
    Cluster.isUnitOf q.settings.namespaceName uid (q.unitFor uid account) = true := by
  have home : (q.unitFor uid account).metadata.namespaceName = some q.settings.namespaceName := rfl
  rw [Cluster.isUnitOf, home, UnitRequest.ownerUid?_unitFor owner, UnitRequest.component_unitFor]
  simp

theorem ownedBy_watcherFor {q : UnitRequest} {ns name : String}
    (owner : q.configuration.metadata.uid = some uid)
    (home : q.configuration.metadata.namespaceName = some ns) :
    (Artifact.job (q.watcherFor uid ns name)).OwnedBy q.configuration where
  home := home.symm
  refers := ⟨_, List.mem_singleton_self _, rfl, rfl, owner⟩

theorem StageRun.Asks.credited {s : StageRun} (asks : s.Asks settings cycle own r)
    (reflects : Reflects c cycle) (owner : c.metadata.uid = some uid) :
    Credited settings c uid r := by
  have owner' : cycle.resource.metadata.uid = some uid := reflects.metadata_eq ▸ owner
  cases asks with
  | provider => exact credited_of_barren trivial
  | tell => exact credited_of_publish
  | watcher opens found on rendered watched =>
    obtain ⟨uid', ns, name, owned, home, rfl⟩ := UnitRequest.exists_of_renderWatcher watched
    have home_eq := congrArg ObjectMeta.namespaceName reflects.metadata_eq
    have uid_eq := congrArg ObjectMeta.uid reflects.metadata_eq
    exact credited_of_accounted (.owned ((ownedBy_watcherFor owned home).congr home_eq uid_eq))
  | unit opens found rendered watchers =>
    obtain ⟨uid', account, owned, rfl⟩ := UnitRequest.exists_of_renderUnit rendered
    obtain rfl : uid = uid' := Option.some.inj (owner'.symm.trans owned)
    exact credited_of_accounted (.unit (isUnitOf_unitFor owned))

theorem SecretAsks.credited {desired : Secret} (asks : SecretAsks desired r)
    (accounted : (Artifact.secret desired).Accounted settings c uid) :
    Credited settings c uid r := by
  cases asks with
  | read => exact credited_of_barren trivial
  | patch => exact credited_of_barren trivial
  | create => exact credited_of_accounted accounted

theorem IsConfigSecret.accounted {secret : Secret} (h : IsConfigSecret settings cycle secret)
    (reflects : Reflects c cycle) (owner : c.metadata.uid = some uid) :
    (Artifact.secret secret).Accounted settings c uid := by
  obtain ⟨p, -, rendered⟩ := h
  have owned : cycle.resource.ownerUid = .ok uid := by
    rw [Configuration.ownerUid, reflects.metadata_eq, owner]
  rw [Rendering.configSecret, owned] at rendered
  cases rendered
  refine .generated (List.mem_cons_self ..) ?_
  simp [Cluster.isSecret, ObjectMeta.isAt, Rendering.configSecretFor]

theorem IsConnectionSecret.accounted {outputs secret : Secret}
    (h : IsConnectionSecret cycle outputs secret) (reflects : Reflects c cycle)
    (owner : c.metadata.uid = some uid) (live : c.metadata.isDeleting = false) :
    (Artifact.secret secret).Accounted settings c uid := by
  obtain ⟨target, wanted, rfl⟩ := h
  rw [reflects.spec_eq] at wanted
  generalize (target.namespaceName.or cycle.resource.metadata.namespaceName).getD "" = ns
  by_cases home : c.metadata.namespaceName = some ns
  · cases name : c.metadata.name with
    | none => exact .stray live (.copy wanted rfl (.inr name))
    | some name' =>
      refine .owned ⟨home.symm, ?_⟩
      simp [Artifact.RefersTo, Artifact.metadata, Rendering.connectionSecret, reflects.metadata_eq,
        home, name, owner]
  · exact .stray live (.copy wanted rfl (.inl fun same => home same.symm))

/-- A step whose requests are accounted for, from a cycle that reflects the configuration. -/
theorem does_credited {step : ConfigurationStep}
    {asks : Calls → Surroundings.Request ConfigurationStore → Prop}
    {ends : Calls → Verdict → ConfigurationCycle → Prop} (reflects : Reflects c cycle)
    (does : step.run.Does cycle (Staged.From cycle asks) ends [])
    (credited : ∀ own r, asks own r → Credited settings c uid r)
    (leaves : ∀ own verdict cycle', ends own verdict cycle' → Leaves settings cycle own cycle') :
    step.run.Does cycle (Staged.From cycle fun _ r => Credited settings c uid r)
      (fun _ _ cycle' => Reflects c cycle') [] := by
  refine does.mono ?_ fun own verdict cycle' ends => ?_
  · rintro own t r ⟨rfl, asked⟩
    exact ⟨rfl, credited own r asked⟩
  · exact reflects.leaves (leaves own verdict cycle' ends)

theorem does_credited_provisioning {step : ConfigurationStep}
    (h : step ∈ provisioningSteps settings) (reflects : Reflects c cycle)
    (owner : c.metadata.uid = some uid) (live : c.metadata.isDeleting = false) :
    step.run.Does cycle (Staged.From cycle fun _ r => Credited settings c uid r)
      (fun _ _ cycle' => Reflects c cycle') [] := by
  simp only [provisioningSteps, List.mem_cons, List.not_mem_nil, or_false] at h
  have stage : ∀ s ∈ StageRun.all, (s.toStep settings).run.Does cycle
      (Staged.From cycle fun _ r => Credited settings c uid r)
      (fun _ _ cycle' => Reflects c cycle') [] := by
    intro s hs
    apply does_credited reflects StageRun.does_run
    · exact fun own r asks => asks.credited reflects owner
    · exact fun own verdict cycle' ends => .changed (ends.change hs)
  rcases h with rfl | rfl | rfl | rfl | rfl | rfl | rfl | rfl | rfl | rfl | rfl | rfl
  · apply does_credited reflects does_ensureFinalizer
    · intro own r asked
      obtain ⟨name, ns, rfl⟩ := asked
      exact credited_of_barren trivial
    · exact fun own verdict cycle' ends => .changed ends.change
  · apply does_credited reflects does_ensureNoPreviousGeneration
    · exact fun own r asked => asked.elim
    · intro own verdict cycle' ends
      obtain ⟨-, -, rfl⟩ := ends
      exact .changed .kept
  · apply does_credited reflects does_ensureProviderReady
    · intro own r asked
      subst asked
      exact credited_of_barren trivial
    · exact fun own verdict cycle' ends => .changed ends.change
  · apply does_credited reflects does_ensurePolicies
    · intro own r asked
      subst asked
      exact credited_of_barren trivial
    · exact fun own verdict cycle' ends => .changed ends.change
  · apply does_credited reflects does_ensureUnitListing
    · intro own r asked
      obtain ⟨uid, rfl⟩ := asked
      exact credited_of_barren trivial
    · exact fun own verdict cycle' ends => .changed ends.change
  · apply does_credited reflects does_ensureJobConfiguration
    · intro own r asked
      obtain ⟨secret, made, asks⟩ := asked
      exact asks.credited (made.accounted reflects owner)
    · exact fun own verdict cycle' ends => .changed ends.change
  · exact stage .plan (by decide)
  · exact stage .verify (by decide)
  · exact stage .apply (by decide)
  · apply does_credited reflects does_ensureResourceCount
    · intro own r asked
      obtain ⟨uid, -, rfl⟩ := asked
      exact credited_of_barren trivial
    · exact fun own verdict cycle' ends => .changed ends.change
  · apply does_credited reflects does_ensureConnectionSecret
    · intro own r asks
      cases asks with
      | outputs => exact credited_of_barren trivial
      | copy made asks => exact asks.credited (made.accounted reflects owner live)
    · exact fun own verdict cycle' ends => .changed ends.change
  · apply does_credited reflects does_ensureReady
    · exact fun own r asked => asked.elim
    · intro own verdict cycle' ends
      obtain ⟨-, -, now, left⟩ := ends
      exact .ready left

theorem does_credited_deletion {step : ConfigurationStep} (h : step ∈ deletionSteps settings)
    (reflects : Reflects c cycle) (owner : c.metadata.uid = some uid) :
    step.run.Does cycle (Staged.From cycle fun _ r => Credited settings c uid r)
      (fun _ _ cycle' => Reflects c cycle') [] := by
  simp only [deletionSteps, List.mem_cons, List.not_mem_nil, or_false] at h
  rcases h with rfl | rfl | rfl | rfl
  · apply does_credited reflects does_ensureUnitListing
    · intro own r asked
      obtain ⟨uid, rfl⟩ := asked
      exact credited_of_barren trivial
    · exact fun own verdict cycle' ends => .changed ends.change
  · apply does_credited reflects does_ensureDestroy
    · intro own r asks
      cases asks with
      | state => exact credited_of_barren trivial
      | stage _ asks => exact asks.credited reflects owner
    · exact fun own verdict cycle' ends => .changed ends.change
  · apply does_credited reflects does_ensureConfigurationRemoved
    · intro own r asks
      cases asks with
      | secret => exact credited_of_barren trivial
      | units => exact credited_of_barren trivial
    · exact fun own verdict cycle' ends => .changed ends.change
  · apply does_credited reflects does_ensureFinalizerRemoved
    · intro own r asked
      obtain ⟨-, name, ns, rfl⟩ := asked
      exact credited_of_barren trivial
    · exact fun own verdict cycle' ends => .changed ends.change

theorem safe_credited {failures : Failures} (owner : c.metadata.uid = some uid) :
    (observe settings c failures).Safe Supervised.notedCalls
      (Supervised.Allowed fun _ _ r => r.suspends → Credited settings c uid r) (fun _ _ => True)
      [] := by
  have each : ∀ step ∈ stepsFor settings c.metadata.isDeleting, ∀ cycle, Reflects c cycle →
      step.run.Does cycle (Staged.From cycle fun _ r => Credited settings c uid r)
        (fun _ _ cycle' => Reflects c cycle') [] := by
    intro step h cycle reflects
    cases deleting : c.metadata.isDeleting with
    | true =>
      rw [deleting] at h
      exact does_credited_deletion h reflects owner
    | false =>
      rw [deleting] at h
      exact does_credited_provisioning h reflects owner deleting
  have steps : ∀ name now, Keeps (fun _ _ r => Credited settings c uid r)
      (fun _ _ cycle => Reflects c cycle) (observeSteps name
        (stepsFor settings c.metadata.isDeleting) (openCycle c now)) [] :=
    fun name now => keeps_of_forall each [] ⟨rfl, rfl⟩
  apply safe_observe steps
  · exact fun past own outcome cycle r reflects asks => credited_of_ne asks.ne_creation
  · exact fun past own cycle reflects deleting cleaned => credited_of_publish

/-- Whatever a cycle is answered, all that it creates is accounted for. -/
theorem accounted_of_visit {v : Visit} (possible : v.Possible settings)
    (owner : v.configuration.metadata.uid = some uid) {call : StoreCall ConfigurationStore}
    (called : call ∈ v.calls) {a : Artifact} (creates : call.request = a.creation) :
    a.Accounted settings v.configuration uid := by
  obtain ⟨pre, e, post, ⟨rest, observed⟩, -, asks⟩ := possible.exists_entry called
  have safe : (observe settings v.configuration v.failures).Safe _ _ _ [] := safe_credited owner
  rw [creates] at asks
  exact (safe.asked observed rfl).of_asksFor asks (by cases a <;> rfl) a rfl

end Created

/-! ## Nothing is created once the clean-up has begun -/

def Timely (past : Calls) (r : Surroundings.Request ConfigurationStore) : Prop :=
  ∀ a : Artifact, r = .store a.creation → ∀ call ∈ past, ¬ Sweeps call.request

section Timely

variable {settings : Settings} {c : Configuration} {cycle : ConfigurationCycle} {past own : Calls}
  {r : Surroundings.Request ConfigurationStore}

theorem timely_of_ne (idle : ∀ a : Artifact, r ≠ .store a.creation) : Timely past r :=
  fun a made => absurd made (idle a)

theorem timely_of_barren {call : ConfigurationCall} (h : Barren call) :
    Timely past (.store call) :=
  timely_of_ne fun a made => h.ne_creation a (Surroundings.Request.store.inj made)

theorem DestroyAsks.not_sweeps {call : ConfigurationCall}
    (asks : DestroyAsks settings cycle own (.store call)) : ¬ Sweeps call := by
  cases asks with
  | state => exact id
  | stage owner asks =>
    cases asks with
    | provider => exact id
    | watcher => exact id
    | unit => exact id

/-- Of the steps of a deletion only the destroy creates, and it comes before the clean-up. -/
theorem keeps_timely {name : String} :
    Keeps (fun past _ r => Timely past r) (fun _ _ _ => True)
      (observeSteps name (deletionSteps settings) cycle) [] := by
  refine keeps_cons_of_any_end (does_ensureUnitListing.calling_from (¬ Sweeps ·) ?_) ?_
    fun own _ listed ends _ => ?_
  · rintro own call ⟨uid, asked⟩
    cases asked
    exact id
  · rintro own r ⟨⟨uid, rfl⟩, -⟩
    exact timely_of_barren trivial
  refine keeps_cons_of_any_end
    (does_ensureDestroy.calling_from (¬ Sweeps ·) fun _ _ asks => asks.not_sweeps) ?_
    fun _ _ _ _ _ => ?_
  · rintro own' r ⟨-, called⟩ a - call earlier
    rcases List.mem_append.1 earlier with first | second
    · exact ends.2 call first
    · exact called call second
  refine keeps_cons_of_any_end does_ensureConfigurationRemoved ?_ fun _ _ _ _ _ => ?_
  · intro own r asks
    cases asks <;> exact timely_of_barren trivial
  refine keeps_cons_of_any_end does_ensureFinalizerRemoved ?_ fun _ _ _ _ _ => trivial
  rintro own r ⟨-, object, ns, rfl⟩
  exact timely_of_barren trivial

theorem safe_timely {failures : Failures} (deleting : c.metadata.isDeleting = true) :
    (observe settings c failures).Safe Supervised.notedCalls
      (Supervised.Allowed fun past _ r => r.suspends → Timely past r) (fun _ _ => True) [] := by
  have steps : ∀ name now, Keeps (fun past _ r => Timely past r) (fun _ _ _ => True)
      (observeSteps name (stepsFor settings c.metadata.isDeleting) (openCycle c now)) [] := by
    intro name now
    rw [deleting]
    exact keeps_timely
  apply safe_observe steps
  · exact fun past own outcome cycle r _ asks => timely_of_ne asks.ne_creation
  · exact fun past own cycle _ deleting cleaned => timely_of_ne fun _ made => by cases made

theorem not_sweeps_of_earlier {v : Visit} (possible : v.Possible settings)
    (deleting : v.configuration.metadata.isDeleting = true) {call : StoreCall ConfigurationStore}
    {earlier later : Calls} (parts : v.calls = earlier ++ call :: later) {a : Artifact}
    (creates : call.request = a.creation) : ∀ other ∈ earlier, ¬ Sweeps other.request := by
  obtain ⟨pre, e, post, ⟨rest, observed⟩, -, rfl, asks⟩ := possible.exists_split parts
  have safe : (observe settings v.configuration v.failures).Safe _ _ _ [] := safe_timely deleting
  rw [creates] at asks
  exact (safe.asked observed rfl).of_asksFor asks (by cases a <;> rfl) a rfl

end Timely

/-! ## The clean-up -/

section Cleanup

variable {settings : Settings} {v : Visit}

theorem isDeletionCandidate_of_announces (possible : v.Possible settings)
    (deleting : v.configuration.metadata.isDeleting = true)
    {e : Answered (Supervised ConfigurationStore)} (he : e ∈ v.run)
    (announced : announces e = true) :
    v.configuration.metadata.isDeletionCandidate cleanupFinalizer = true := by
  cases held : v.configuration.metadata.isDeletionCandidate cleanupFinalizer with
  | true => rfl
  | false =>
    obtain ⟨rest, reached⟩ := possible
    rw [reconcile, if_pos ⟨deleting, held⟩] at reached
    generalize v.run = run at he reached
    cases reached with
    | here => cases he
    | told later =>
      cases later with
      | here =>
        obtain rfl := List.mem_singleton.1 he
        cases announced

/-- A cycle that tells that the clean-up is complete has cleared all. -/
theorem cleared_of_announces (possible : v.Possible settings)
    (deleting : v.configuration.metadata.isDeleting = true)
    {e : Answered (Supervised ConfigurationStore)} (he : e ∈ v.run)
    (announced : announces e = true) :
    ∃ uid conditions, Cleared settings v.configuration uid v.calls conditions := by
  have candidate := isDeletionCandidate_of_announces possible deleting he announced
  obtain ⟨rest, reached⟩ := possible
  obtain ⟨journal, ⟨rest, observed⟩, bare⟩ := exists_journal reached
  rw [← bare] at he
  obtain ⟨entry, listed, rfl⟩ := List.mem_map.1 he
  obtain ⟨pre, post, rfl⟩ := List.append_of_mem listed
  have calls_eq : v.calls = pre.flatMap Supervised.notedCalls ++
      (entry :: post).flatMap Supervised.notedCalls := by
    rw [← List.flatMap_append, Visit.calls, ← bare, Program.flatMap_bare]
    rfl
  have told : ∃ notice, entry.AsksFor (.publish notice) ∧ notice.reason = cleanupReason := by
    obtain ⟨⟨cycle, request⟩, answer⟩ := entry
    cases request with
    | plain r =>
      cases r with
      | publish notice => exact ⟨notice, .inl rfl, of_decide_eq_true announced⟩
      | _ => cases announced
    | _ => cases announced
  obtain ⟨notice, asks, reason⟩ := told
  have allowed := (safe_of_candidate candidate).asked observed rfl
  rw [List.nil_append] at allowed
  obtain ⟨⟨uid, cleared⟩, -⟩ := (allowed.of_asksFor asks rfl).2 notice rfl reason
  refine ⟨uid, entry.note.conditions, ?_⟩
  rw [calls_eq]
  exact cleared.later _

/-- What is accounted for is deleted where all is cleared, or goes with its owner, or is stray. -/
theorem Cleared.deletes {c c' : Configuration} {uid : String} {calls : Calls}
    {conditions : List Condition} (cleared : Cleared settings c uid calls conditions)
    {a : Artifact} (accounted : a.Accounted settings c' uid) :
    (∃ call ∈ calls, a.DeletedBy call) ∨ a.OwnedBy c' ∨
      c'.metadata.isDeleting = false ∧ a.Stray c' := by
  cases accounted with
  | unit covered => exact .inl ⟨_, cleared.units, .unit covered⟩
  | generated listed placed =>
    obtain ⟨existed, asked⟩ := cleared.secrets _ listed
    exact .inl ⟨_, asked, .named placed⟩
  | owned h => exact .inr (.inl h)
  | stray live h => exact .inr (.inr ⟨live, h⟩)

end Cleanup

/-! ## Teardowns -/

structure Visit.Of (settings : Settings) (c : Configuration) (v : Visit) : Prop where
  possible : v.Possible settings
  uid_eq : v.configuration.metadata.uid = c.metadata.uid
  home_eq : v.configuration.metadata.namespaceName = c.metadata.namespaceName

/-- Cycles that provision a configuration and then cycles that delete it, the last of which tells
that the clean-up is complete. -/
structure Teardown (settings : Settings) (c : Configuration) (provisioning deletion : List Visit)
    (last : Visit) : Prop where
  visited : ∀ v ∈ provisioning ++ deletion ++ [last], v.Of settings c
  live : ∀ v ∈ provisioning, v.configuration.metadata.isDeleting = false
  deleting : ∀ v ∈ deletion ++ [last], v.configuration.metadata.isDeleting = true
  announced : ∃ e ∈ last.run, announces e = true

section Teardown

variable {settings : Settings} {c : Configuration} {provisioning deletion : List Visit}
  {last : Visit} {call : StoreCall ConfigurationStore} {pre post : Calls} {a : Artifact}

theorem Teardown.mem_post (h : Teardown settings c provisioning deletion last)
    (parts : (provisioning ++ deletion ++ [last]).flatMap Visit.calls = pre ++ call :: post)
    (creates : call.request = a.creation) {other : StoreCall ConfigurationStore}
    (listed : other ∈ last.calls) (sweeps : Sweeps other.request) : other ∈ post := by
  have last_mem : last ∈ deletion ++ [last] := List.mem_append_right _ (List.mem_singleton_self _)
  have possible : last.Possible settings :=
    (h.visited last (List.mem_append_right _ (List.mem_singleton_self _))).possible
  rw [List.flatMap_append, List.flatMap_singleton] at parts
  have within : ∀ earlier, last.calls = earlier ++ call :: post → other ∈ post := by
    intro earlier parts
    have unswept := not_sweeps_of_earlier possible (h.deleting last last_mem) parts creates
    rw [parts] at listed
    rcases List.mem_append.1 listed with before | listed
    · exact absurd sweeps (unswept other before)
    rcases List.mem_cons.1 listed with rfl | after
    · exact absurd creates (sweeps.barren.ne_creation a)
    · exact after
  rcases List.append_eq_append_iff.1 parts with ⟨earlier, -, parts⟩ | ⟨rest, -, parts⟩
  · exact within earlier parts
  · cases rest with
    | nil => exact within [] parts.symm
    | cons first rest =>
      obtain ⟨-, rfl⟩ := List.cons.inj parts
      exact List.mem_append_right _ listed

/-- Once a clean-up is told to be complete, every job and every secret that the cycles have created
was deleted after that, or refers to the configuration as its owner, or it is a copy of the outputs
that was wanted in another namespace. -/
theorem swept_or_owned (h : Teardown settings c provisioning deletion last)
    (parts : (provisioning ++ deletion ++ [last]).flatMap Visit.calls = pre ++ call :: post)
    (creates : call.request = a.creation) :
    (∃ later ∈ post, a.DeletedBy later) ∨ a.OwnedBy c ∨
      ∃ v ∈ provisioning, a.Stray v.configuration := by
  obtain ⟨e, he, announced⟩ := h.announced
  have last_of := h.visited last (List.mem_append_right _ (List.mem_singleton_self _))
  have last_deleting := h.deleting last (List.mem_append_right _ (List.mem_singleton_self _))
  obtain ⟨uid, conditions, cleared⟩ :=
    cleared_of_announces last_of.possible last_deleting he announced
  have called : call ∈ (provisioning ++ deletion ++ [last]).flatMap Visit.calls := by
    rw [parts]
    exact List.mem_append_right _ (List.mem_cons_self ..)
  obtain ⟨v, hv, called⟩ := List.mem_flatMap.1 called
  have visit := h.visited v hv
  have owner : v.configuration.metadata.uid = some uid :=
    visit.uid_eq.trans (last_of.uid_eq.symm.trans cleared.owner)
  have accounted := accounted_of_visit visit.possible owner called creates
  rcases cleared.deletes accounted with ⟨later, listed, deleted⟩ | owned | ⟨live, stray⟩
  · exact .inl ⟨later, h.mem_post parts creates listed deleted.sweeps, deleted⟩
  · exact .inr (.inl (owned.congr visit.home_eq visit.uid_eq))
  · rw [List.append_assoc] at hv
    rcases List.mem_append.1 hv with provisioned | deleted
    · exact .inr (.inr ⟨v, provisioned, stray⟩)
    · exact absurd (live.symm.trans (h.deleting v deleted)) Bool.false_ne_true

end Teardown

/-! ## A copy of the outputs elsewhere -/

def connected (ns : String) : Configuration :=
  { sample [holding Configuration.planned 3, holding Configuration.applied 3] with
    spec := { module := "m", providerName := "aws", connectionSecret := some ⟨"conn", some ns⟩ } }

def connecting (ns : String) : Visit :=
  Steady.visit { provider := some readyProvider, secrets := [SecretName.outputs "u-1"] }
    (connected ns)

def disconnecting (ns : String) : Visit :=
  Steady.visit {} { connected ns with
    metadata := { (connected ns).metadata with deletionTimestamp := some default } }

theorem teardown_connected {ns : String}
    (announced : (disconnecting ns).run.any announces = true) :
    Teardown {} (connected ns) [connecting ns] [] (disconnecting ns) where
  visited v hv := by
    rcases List.mem_cons.1 hv with rfl | hv
    · exact ⟨Steady.possible_visit _ _, rfl, rfl⟩
    · obtain rfl := List.mem_singleton.1 hv
      exact ⟨Steady.possible_visit _ _, rfl, rfl⟩
  live v hv := by
    obtain rfl := List.mem_singleton.1 hv
    rfl
  deleting v hv := by
    obtain rfl := List.mem_singleton.1 hv
    rfl
  announced := List.any_eq_true.1 announced

def createdAt? (name ns : String) : StoreCall ConfigurationStore → Option Secret
  | ⟨.createSecret made, _⟩ => if Cluster.isSecret name ns made then some made else none
  | _ => none

theorem exists_created {name ns : String} {calls : Calls} {made : Secret}
    (h : made ∈ calls.filterMap (createdAt? name ns)) :
    ∃ answer, ⟨.createSecret made, answer⟩ ∈ calls ∧ Cluster.isSecret name ns made = true := by
  obtain ⟨⟨request, answer⟩, listed, created⟩ := List.mem_filterMap.1 h
  cases request with
  | createSecret secret =>
    simp only [createdAt?] at created
    split at created
    · obtain rfl := Option.some.inj created
      exact ⟨answer, listed, by assumption⟩
    · cases created
  | _ => cases created

def deletesAt (name ns : String) : StoreCall ConfigurationStore → Bool
  | ⟨.deleteSecret deleted home, _⟩ => deleted = name && home = ns
  | _ => false

theorem deletesAt_of_deletedBy {name ns : String} {made : Secret}
    {call : StoreCall ConfigurationStore} (placed : Cluster.isSecret name ns made = true)
    (h : (Artifact.secret made).DeletedBy call) : deletesAt name ns call = true := by
  cases h with
  | named placed' =>
    simp only [Cluster.isSecret, ObjectMeta.isAt, Bool.and_eq_true, decide_eq_true_eq]
      at placed placed'
    simp only [deletesAt, told, Bool.and_eq_true, decide_eq_true_eq]
    constructor
    · exact Option.some.inj (placed'.1.symm.trans placed.1)
    · exact Option.some.inj (placed'.2.symm.trans placed.2)

/-- A copy of the outputs in another namespace is neither deleted nor does it refer to an owner. -/
theorem connection_left_behind : ¬ ∀ (settings : Settings) (c : Configuration)
    (provisioning deletion : List Visit) (last : Visit) (call : StoreCall ConfigurationStore)
    (a : Artifact), Teardown settings c provisioning deletion last →
    call ∈ (provisioning ++ deletion ++ [last]).flatMap Visit.calls →
    call.request = a.creation →
    (∃ other ∈ (provisioning ++ deletion ++ [last]).flatMap Visit.calls, a.DeletedBy other) ∨
      a.RefersTo c := by
  intro clean
  have teardown : Teardown {} (connected "other") [connecting "other"] [] (disconnecting "other") :=
    teardown_connected (by decide +kernel)
  have created : ∃ made ∈ (([connecting "other"] ++ [] ++ [disconnecting "other"]).flatMap
      Visit.calls).filterMap (createdAt? "conn" "other"), made.metadata.ownerReferences = none := by
    decide +kernel
  have kept : ∀ call ∈ ([connecting "other"] ++ [] ++ [disconnecting "other"]).flatMap Visit.calls,
      deletesAt "conn" "other" call = false := by decide +kernel
  obtain ⟨made, listed, ownerless⟩ := created
  obtain ⟨answer, called, placed⟩ := exists_created listed
  rcases clean {} (connected "other") _ _ _ _ (.secret made) teardown called rfl with
    ⟨other, listed, deleted⟩ | ⟨owner, listed, -⟩
  · have undeleted := kept other listed
    rw [deletesAt_of_deletedBy placed deleted] at undeleted
    cases undeleted
  · rw [Artifact.metadata, ownerless] at listed
    cases listed

theorem swept_or_owned_connected :
    Teardown {} (connected "infra") [connecting "infra"] [] (disconnecting "infra") ∧
    ∃ made answer pre post,
      ([connecting "infra"] ++ [] ++ [disconnecting "infra"]).flatMap Visit.calls =
        pre ++ ⟨.createSecret made, answer⟩ :: post ∧
      Cluster.isSecret "conn" "infra" made = true ∧
      ((∃ later ∈ post, (Artifact.secret made).DeletedBy later) ∨
        (Artifact.secret made).OwnedBy (connected "infra") ∨
        ∃ v ∈ [connecting "infra"], (Artifact.secret made).Stray v.configuration) := by
  have teardown : Teardown {} (connected "infra") [connecting "infra"] [] (disconnecting "infra") :=
    teardown_connected (by decide +kernel)
  have created : (([connecting "infra"] ++ [] ++ [disconnecting "infra"]).flatMap
      Visit.calls).filterMap (createdAt? "conn" "infra") ≠ [] := by decide +kernel
  obtain ⟨made, listed⟩ := List.exists_mem_of_ne_nil _ created
  obtain ⟨answer, called, placed⟩ := exists_created listed
  obtain ⟨pre, post, parts⟩ := List.append_of_mem called
  exact ⟨teardown, made, answer, pre, post, parts, placed, swept_or_owned teardown parts rfl⟩

end InfraOperator.Provisioning
