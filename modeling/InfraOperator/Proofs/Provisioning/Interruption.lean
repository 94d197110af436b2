import InfraOperator.Proofs.Provisioning.Release

/-!
# Clean-ups that are interrupted

The secret that destroy units mount is deleted once nothing stands any more, but that this is so is
written down only by the status at the end of the cycle. If that write is lost the next cycle starts
over, without the secret (`destroy_restarted`). If it is not lost no later cycle creates a unit, as
long as a state that was not there does not appear (`destroy_not_restarted`).
-/

set_option autoImplicit false

namespace InfraOperator.Provisioning

open Conditions (complete)
open Pipeline (Keeps observeSteps keeps_cons)

/-- The deletion of the secret that units mount was asked for, whatever came of it. -/
def InputsDeleted (settings : Settings) (uid : String) (past : Calls) : Prop :=
  ∃ answer : Option (Outcome Bool),
    ⟨.deleteSecret (SecretName.config uid) settings.namespaceName, answer⟩ ∈ past

def Gone (settings : Settings) (c : Configuration) (uid : String) (past : Calls)
    (conditions : List Condition) : Prop :=
  c.isOrphaned = true ∨
    told (.getSecret (SecretName.state uid) settings.namespaceName) (.ok none) ∈ past ∨
    complete conditions Configuration.destroyed (Resource.generation c) = true

def Unwriting : ConfigurationCall → Prop
  | .patchStatus _ => False
  | _ => True

def Harmless : ConfigurationCall → Prop
  | .patchStatus _ | .deleteSecret _ _ => False
  | _ => True

section Calls

variable {settings : Settings} {c : Configuration} {uid : String} {past own : Calls}
  {conditions : List Condition}

theorem Gone.later (h : Gone settings c uid past conditions) (own : Calls) :
    Gone settings c uid (past ++ own) conditions :=
  h.imp_right (Or.imp_left (List.mem_append_left own))

theorem Harmless.unwriting {call : ConfigurationCall} (h : Harmless call) : Unwriting call := by
  cases call <;> first | exact h | trivial

theorem not_inputsDeleted (harmless : ∀ call ∈ own, Harmless call.request) :
    ¬ InputsDeleted settings uid own := by
  rintro ⟨answer, asked⟩
  exact harmless _ asked

theorem inputsDeleted_append (h : InputsDeleted settings uid (past ++ own)) :
    InputsDeleted settings uid past ∨ InputsDeleted settings uid own := by
  obtain ⟨answer, asked⟩ := h
  rcases List.mem_append.1 asked with asked | asked
  · exact .inl ⟨answer, asked⟩
  · exact .inr ⟨answer, asked⟩

end Calls

/-- A cycle of the configuration, after its calls so far: no status is written yet, the inputs are
deleted only where nothing stands, and a destroy that was complete still is. -/
structure Resumable (settings : Settings) (c : Configuration) (uid : String) (past : Calls)
    (cycle : ConfigurationCycle) : Prop where
  metadata_eq : cycle.resource.metadata = c.metadata
  unwritten : ∀ call ∈ past, Unwriting call.request
  cleared : InputsDeleted settings uid past → Gone settings c uid past cycle.conditions
  kept : complete c.conditions Configuration.destroyed (Resource.generation c) = true →
    complete cycle.conditions Configuration.destroyed (Resource.generation c) = true

/-- What a cycle of a deletion may ask: a job where there is something to destroy that is not known
to be destroyed, the deletion of a secret before a status is written, and the status of a cycle that
can be resumed. -/
structure Orderly (settings : Settings) (c : Configuration) (uid : String) (past : Calls)
    (r : Surroundings.Request ConfigurationStore) : Prop where
  created : ∀ job, r = .store (.createJob job) → c.isOrphaned = false ∧
    (∃ state, told (.getSecret (SecretName.state uid) settings.namespaceName)
      (.ok (some state)) ∈ past) ∧
    complete c.conditions Configuration.destroyed (Resource.generation c) = false
  deleted : ∀ name ns, r = .store (.deleteSecret name ns) →
    ∀ call ∈ past, Unwriting call.request
  written : ∀ w, r = .store (.patchStatus w) →
    (InputsDeleted settings uid past → Gone settings c uid past w.conditions) ∧
    (complete c.conditions Configuration.destroyed (Resource.generation c) = true →
      complete w.conditions Configuration.destroyed (Resource.generation c) = true)

section Cycle

variable {settings : Settings} {c : Configuration} {uid : String} {past own : Calls}
  {cycle cycle' : ConfigurationCycle}

def Unrelated : Surroundings.Request ConfigurationStore → Prop
  | .store (.createJob _) | .store (.deleteSecret _ _) | .store (.patchStatus _) => False
  | _ => True

theorem Unrelated.orderly {r : Surroundings.Request ConfigurationStore} (h : Unrelated r) :
    Orderly settings c uid past r where
  created _ made := by
    subst made
    exact h.elim
  deleted _ _ made := by
    subst made
    exact h.elim
  written _ made := by
    subst made
    exact h.elim

theorem Resumable.isComplete_eq (h : Resumable settings c uid past cycle) (type : String) :
    cycle.isComplete type = complete cycle.conditions type (Resource.generation c) := by
  rw [Cycle.isComplete_eq, Cycle.generation]
  exact congrArg (complete _ type ·.generationOrZero) h.metadata_eq

theorem Resumable.later (h : Resumable settings c uid past cycle)
    (unwriting : ∀ call ∈ own, Unwriting call.request)
    (clears : InputsDeleted settings uid own → Gone settings c uid past cycle.conditions) :
    Resumable settings c uid (past ++ own) cycle where
  metadata_eq := h.metadata_eq
  unwritten call hc := (List.mem_append.1 hc).elim (h.unwritten call) (unwriting call)
  cleared deleted := by
    rcases inputsDeleted_append deleted with earlier | now
    · exact (h.cleared earlier).later own
    · exact (clears now).later own
  kept := h.kept

theorem Resumable.change (h : Resumable settings c uid past cycle)
    (change : Change settings cycle own cycle') : Resumable settings c uid past cycle' := by
  have metadata_eq := change.metadata_eq.trans h.metadata_eq
  have stays : complete cycle.conditions Configuration.destroyed (Resource.generation c) = true →
      complete cycle'.conditions Configuration.destroyed (Resource.generation c) = true := by
    intro completed
    rw [← h.isComplete_eq] at completed
    have completed := change.isComplete (by decide) completed
    have same : cycle'.generation = Resource.generation c :=
      congrArg ObjectMeta.generationOrZero metadata_eq
    rw [Cycle.isComplete_eq, same] at completed
    exact completed
  exact ⟨metadata_eq, h.unwritten,
    fun deleted => (h.cleared deleted).imp_right (Or.imp_right stays),
    fun completed => stays (h.kept completed)⟩

abbrev Resumes (settings : Settings) (c : Configuration) (uid name : String)
    (steps : List ConfigurationStep) (cycle : ConfigurationCycle) (past : Calls) : Prop :=
  Keeps (fun past _ => Orderly settings c uid past)
    (fun past _ => Resumable settings c uid past) (observeSteps name steps cycle) past

variable {name : String}

theorem resumes_cons {step : ConfigurationStep} {rest : List ConfigurationStep}
    {asks : Calls → Surroundings.Request ConfigurationStore → Prop}
    {ends : Calls → Verdict → ConfigurationCycle → Prop} (C : ConfigurationCall → Prop)
    (resumable : Resumable settings c uid past cycle)
    (does : step.run.Does cycle (Staged.From cycle asks) ends [])
    (only : ∀ own call, asks own (.store call) → C call)
    (unwriting : ∀ call, C call → Unwriting call)
    (clears : (∀ call, C call → Harmless call) ∨ Gone settings c uid past cycle.conditions)
    (allowed : ∀ own r, asks own r → (∀ call ∈ own, C call.request) →
      Orderly settings c uid (past ++ own) r)
    (change : ∀ own verdict c', ends own verdict c' → Change settings cycle own c')
    (next : ∀ own verdict c', ends own verdict c' → verdict.ending? = none →
      Resumable settings c uid (past ++ own) c' →
      Resumes settings c uid name rest c' (past ++ own)) :
    Resumes settings c uid name (step :: rest) cycle past := by
  have later : ∀ own : Calls, (∀ call ∈ own, C call.request) →
      Resumable settings c uid (past ++ own) cycle := by
    intro own called
    refine resumable.later (fun call hc => unwriting _ (called call hc)) fun deleted => ?_
    refine clears.resolve_left fun harmless => ?_
    exact not_inputsDeleted (fun call hc => harmless _ (called call hc)) deleted
  have does : step.run.Does cycle (Staged.From cycle fun own r => asks own r ∧
      ∀ call ∈ own, C call.request)
      (fun own verdict c' => ends own verdict c' ∧ ∀ call ∈ own, C call.request) [] :=
    does.calling_from C only
  refine keeps_cons does (fun own r asked => allowed own r asked.1 asked.2) resumable ?_ ?_ ?_
  · rintro own r ⟨asked, called⟩ -
    rw [List.append_assoc]
    refine later _ fun call hc => (List.mem_append.1 hc).elim (called call) fun hc => ?_
    cases r with
    | store request =>
      obtain rfl := List.mem_singleton.1 hc
      exact only own request asked
    | _ => cases hc
  · rintro own verdict c' ending ⟨ended, called⟩ -
    exact (later own called).change (change own verdict c' ended)
  · rintro own verdict c' ⟨ended, called⟩ go
    exact next own verdict c' ended go ((later own called).change (change own verdict c' ended))

theorem StageRun.Asks.harmless {s : StageRun} {call : ConfigurationCall}
    (h : s.Asks settings cycle own (.store call)) : Harmless call := by
  cases h <;> trivial

theorem DestroyAsks.orderly {r : Surroundings.Request ConfigurationStore}
    (h : DestroyAsks settings cycle own r) (owned : c.metadata.uid = some uid)
    (resumable : Resumable settings c uid past cycle) :
    Orderly settings c uid (past ++ own) r := by
  cases h with
  | state => exact Unrelated.orderly trivial
  | @stage uid' state own r owner asks kept =>
    refine ⟨fun job made => ?_, fun name ns made => ?_, fun w made => ?_⟩
    · subst made
      have owned' := resumable.metadata_eq ▸ uid_of_ownerUid owner
      obtain rfl : uid = uid' := Option.some.inj (owned.symm.trans owned')
      have opens : StageRun.destroy.Opens settings cycle := by
        cases asks with
        | watcher opens => exact opens
        | unit opens => exact opens
      have orphan : cycle.resource.isOrphaned = c.isOrphaned :=
        congrArg (fun m : ObjectMeta => annotationIsTrue m.annotations Annotation.orphan)
          resumable.metadata_eq
      refine ⟨orphan ▸ kept, ⟨state, List.mem_append_right _ (List.mem_cons_self ..)⟩, ?_⟩
      have incomplete := opens.incomplete
      rw [resumable.isComplete_eq] at incomplete
      exact Bool.eq_false_iff.2 fun completed =>
        absurd (incomplete.symm.trans (resumable.kept completed)) Bool.false_ne_true
    · subst made
      cases asks
    · subst made
      cases asks

/-- The steps of a deletion. -/
theorem resumes_deletion (owned : c.metadata.uid = some uid)
    (resumable : Resumable settings c uid past cycle) :
    Resumes settings c uid name (deletionSteps settings) cycle past := by
  refine resumes_cons Harmless resumable does_ensureUnitListing ?_ (fun _ => Harmless.unwriting)
    (.inl fun _ h => h) ?_ (fun _ _ _ ends => ends.change) fun own _ listed ends _ resumable => ?_
  · rintro own call ⟨uid, asked⟩
    cases asked
    trivial
  · rintro own r ⟨uid, rfl⟩ -
    exact Unrelated.orderly trivial
  refine resumes_cons Harmless resumable does_ensureDestroy ?_ (fun _ => Harmless.unwriting)
    (.inl fun _ h => h) (fun _ _ asks _ => asks.orderly owned resumable)
    (fun _ _ _ ends => ends.change) fun own' _ destroyed ends go resumable' => ?_
  · intro own call asks
    cases asks with
    | state => trivial
    | stage owner asks => exact asks.harmless
  have gone : Gone settings c uid (past ++ own ++ own') destroyed.conditions :=
    (ends.destroyed go resumable.metadata_eq owned).imp_right
      (Or.imp_left (List.mem_append_right _))
  refine resumes_cons Unwriting resumable' does_ensureConfigurationRemoved ?_ (fun _ h => h)
    (.inr gone) ?_ (fun _ _ _ ends => ends.change) fun _ _ removed ends _ resumable => ?_
  · intro own call asks
    cases asks <;> trivial
  · intro own r asks called
    cases asks with
    | units => exact Unrelated.orderly trivial
    | secret =>
      refine ⟨fun _ made => (by cases made), fun _ _ _ call hc => ?_, fun _ made => (by cases made)⟩
      exact (List.mem_append.1 hc).elim (resumable'.unwritten call) (called call)
  refine resumes_cons Harmless resumable does_ensureFinalizerRemoved ?_
    (fun _ => Harmless.unwriting) (.inl fun _ h => h) ?_ (fun _ _ _ ends => ends.change)
    fun _ _ _ _ _ resumable => resumable
  · rintro own call ⟨-, name, ns, asked⟩
    cases asked
    trivial
  · rintro own r ⟨-, name, ns, rfl⟩ -
    exact Unrelated.orderly trivial

theorem resumable_openCycle (now : Instant) : Resumable settings c uid [] (openCycle c now) where
  metadata_eq := rfl
  unwritten _ hc := absurd hc List.not_mem_nil
  cleared := fun ⟨_, asked⟩ => absurd asked List.not_mem_nil
  kept completed := by
    have registered : complete (registerTypes (registeredTypes c.metadata.isDeleting) now
        c.conditions) Configuration.destroyed (Resource.generation c) =
      complete c.conditions Configuration.destroyed (Resource.generation c) :=
      Conditions.complete_registerTypes _
    exact registered.trans completed

theorem safe_orderly {failures : Failures} (deleting : c.metadata.isDeleting = true)
    (owned : c.metadata.uid = some uid) :
    (observe settings c failures).Safe Supervised.notedCalls
      (Supervised.Allowed fun past _ r => r.suspends → Orderly settings c uid past r)
      (fun _ _ => True) [] := by
  have steps : ∀ name now, Resumes settings c uid name
      (stepsFor settings c.metadata.isDeleting) (openCycle c now) [] := by
    intro name now
    rw [deleting]
    exact resumes_deletion owned (resumable_openCycle now)
  refine safe_observe_settling steps (fun past own _ cycle r resumable called asks => ?_)
    fun _ _ _ _ _ _ => Unrelated.orderly trivial
  cases asks with
  | write =>
    refine ⟨fun _ made => (by cases made), fun _ _ made => (by cases made), fun w made => ?_⟩
    cases made
    refine ⟨fun deleted => ?_, resumable.kept⟩
    rcases inputsDeleted_append deleted with earlier | ⟨answer, asked⟩
    · exact (resumable.cleared earlier).later own
    · cases called _ asked with
      | prompt quick => cases quick
  | reload => exact Unrelated.orderly trivial
  | wait => exact Unrelated.orderly trivial
  | tell => exact Unrelated.orderly trivial
  | prompt quick => cases r <;> first | exact Unrelated.orderly trivial | cases quick

end Cycle

/-! ## Visits -/

section Visit

variable {settings : Settings} {uid : String} {v : Visit}

/-- A visit asks for a job only where there is something to destroy that it does not know to be
destroyed. -/
theorem created_of_visit (possible : v.Possible settings)
    (deleting : v.configuration.metadata.isDeleting = true)
    (owned : v.configuration.metadata.uid = some uid) {call : StoreCall ConfigurationStore}
    (called : call ∈ v.calls) {job : Job} (made : created? call = some job) :
    v.configuration.isOrphaned = false ∧
      (∃ state, told (.getSecret (SecretName.state uid) settings.namespaceName)
        (.ok (some state)) ∈ v.calls) ∧
      complete v.configuration.conditions Configuration.destroyed
        (Resource.generation v.configuration) = false := by
  obtain ⟨pre, e, post, ⟨rest, observed⟩, calls_eq, asks⟩ := possible.exists_entry called
  have safe : (observe settings v.configuration v.failures).Safe _ _ _ [] :=
    safe_orderly deleting owned
  have allowed := (safe.asked observed rfl).of_asksFor asks rfl
  obtain ⟨request, answer⟩ := call
  cases request with
  | createJob unit =>
    obtain ⟨kept, ⟨state, found⟩, incomplete⟩ := allowed.created unit rfl
    refine ⟨kept, ⟨state, ?_⟩, incomplete⟩
    rw [calls_eq, List.flatMap_append]
    exact List.mem_append_left _ found
  | _ => cases made

/-- No secret is deleted once a status has been written. -/
theorem deleted_before_written {c : Configuration} {failures : Failures} {pre post : List Entry}
    {e : Entry} {w : Configuration} (deleting : c.metadata.isDeleting = true)
    (owned : c.metadata.uid = some uid)
    (observed : IsJournal settings c failures (pre ++ e :: post))
    (asks : e.AsksFor (.store (.patchStatus w)))
    (deleted : InputsDeleted settings uid ((pre ++ e :: post).flatMap Supervised.notedCalls)) :
    InputsDeleted settings uid (pre.flatMap Supervised.notedCalls) := by
  obtain ⟨answer, asked⟩ := deleted
  obtain ⟨written, shown⟩ := Supervised.notedCalls_of_asksFor asks
  rw [List.flatMap_append, List.flatMap_cons, shown] at asked
  rcases List.mem_append.1 asked with before | asked
  · exact ⟨answer, before⟩
  rcases List.mem_append.1 asked with now | after
  · cases List.mem_singleton.1 now
  obtain ⟨mid, e', last, rfl, asks'⟩ := Supervised.exists_asker after
  obtain ⟨rest, observed⟩ := observed
  have safe : (observe settings c failures).Safe _ _ _ [] := safe_orderly deleting owned
  have parts : pre ++ e :: (mid ++ e' :: last) = (pre ++ e :: mid) ++ e' :: last := by simp
  have unwritten := ((safe.asked observed parts).of_asksFor asks' rfl).deleted _ _ rfl
    ⟨.patchStatus w, written⟩
  refine (unwritten ?_).elim
  rw [List.nil_append, List.flatMap_append, List.flatMap_cons, shown]
  exact List.mem_append_right _ (List.mem_cons_self ..)

/-- The status that a visit writes tells of a destroy that was complete, and of one that let it
delete the inputs. -/
theorem written_of_visit (possible : v.Possible settings)
    (deleting : v.configuration.metadata.isDeleting = true)
    (owned : v.configuration.metadata.uid = some uid) {w : Configuration} (wrote : w ∈ v.written) :
    (InputsDeleted settings uid v.calls →
      Gone settings v.configuration uid v.calls w.conditions) ∧
    (complete v.configuration.conditions Configuration.destroyed
        (Resource.generation v.configuration) = true →
      complete w.conditions Configuration.destroyed
        (Resource.generation v.configuration) = true) := by
  obtain ⟨⟨request, answer⟩, called, wrote⟩ := List.mem_filterMap.1 wrote
  obtain ⟨pre, e, post, observed, calls_eq, asks⟩ := possible.exists_entry called
  have safe : (observe settings v.configuration v.failures).Safe _ _ _ [] :=
    safe_orderly deleting owned
  cases request with
  | patchStatus c =>
    obtain rfl : c = w := Option.some.inj wrote
    have written := ((safe.asked observed.choose_spec rfl).of_asksFor asks rfl).written c rfl
    rw [List.nil_append] at written
    refine ⟨fun deleted => ?_, written.2⟩
    rw [calls_eq] at deleted ⊢
    have gone := written.1 (deleted_before_written deleting owned observed asks deleted)
    rw [List.flatMap_append]
    exact gone.later _
  | _ => cases wrote

end Visit

/-! ## Histories -/

def acknowledged? : StoreCall ConfigurationStore → Option Configuration
  | ⟨.patchStatus w, some (.ok _)⟩ => some w
  | _ => none

theorem eq_of_acknowledged {call : StoreCall ConfigurationStore} {w : Configuration}
    (h : acknowledged? call = some w) : call = told (.patchStatus w) (.ok ()) := by
  obtain ⟨request, answer⟩ := call
  cases request with
  | patchStatus c =>
    rcases answer with _ | e | _
    · cases h
    · cases h
    · obtain rfl : c = w := Option.some.inj h
      rfl
  | _ => cases h

/-- What calls may leave of a stored status: a write that was acknowledged takes effect, and one
that was not may. -/
inductive Stores : Option ConfigurationStatus → Calls → Option ConfigurationStatus → Prop
  | done (s : Option ConfigurationStatus) : Stores s [] s
  | kept {s s' : Option ConfigurationStatus} {call : StoreCall ConfigurationStore} {calls : Calls}
      (unacknowledged : acknowledged? call = none) (h : Stores s calls s') :
      Stores s (call :: calls) s'
  | written {s s' : Option ConfigurationStatus} {w : Configuration}
      {answer : Option (Outcome Unit)} {calls : Calls} (h : Stores w.status calls s') :
      Stores s (⟨.patchStatus w, answer⟩ :: calls) s'

structure SameWish (c c' : Configuration) : Prop where
  uid : c'.metadata.uid = c.metadata.uid
  generation : Resource.generation c' = Resource.generation c
  annotations : c'.metadata.annotations = c.metadata.annotations
  spec : c'.spec = c.spec

/-- Cycles of a configuration that is being deleted, one after the other, and the stored status
before and after them. Its spec and annotations stay, and each cycle reads the status as stored. -/
inductive Deletions (settings : Settings) (c : Configuration) :
    Option ConfigurationStatus → List Visit → Option ConfigurationStatus → Prop
  | nil (s : Option ConfigurationStatus) : Deletions settings c s [] s
  | cons {s s' s'' : Option ConfigurationStatus} {v : Visit} {visits : List Visit}
      (possible : v.Possible settings) (deleting : v.configuration.metadata.isDeleting = true)
      (same : SameWish c v.configuration) (read : v.configuration.status = s)
      (stores : Stores s v.calls s') (later : Deletions settings c s' visits s'') :
      Deletions settings c s (v :: visits) s''

/-- The destroy is complete for the generation, as a stored status tells. -/
def Recorded (generation : Int) (stored : Option ConfigurationStatus) : Prop :=
  complete (stored.getD {}).conditions Configuration.destroyed generation = true

theorem Stores.recorded {generation : Int} {s s' : Option ConfigurationStatus} {calls : Calls}
    (h : Stores s calls s')
    (writes : ∀ w ∈ calls.filterMap written?,
      complete w.conditions Configuration.destroyed generation = true)
    (start : Recorded generation s ∨ ∃ w, told (.patchStatus w) (.ok ()) ∈ calls) :
    Recorded generation s' := by
  induction h with
  | done s =>
    exact start.resolve_right fun ⟨w, acknowledged⟩ => absurd acknowledged List.not_mem_nil
  | @kept s s' call calls unacknowledged h ih =>
    refine ih (fun w hw => writes w ?_) (start.imp_right fun ⟨w, acknowledged⟩ => ⟨w, ?_⟩)
    · rw [List.filterMap_cons]
      split
      · exact hw
      · exact List.mem_cons_of_mem _ hw
    · refine (List.mem_cons.1 acknowledged).resolve_left fun same => ?_
      rw [← same] at unacknowledged
      cases unacknowledged
  | @written s s' w answer calls h ih =>
    have listed : (⟨.patchStatus w, answer⟩ :: calls : Calls).filterMap written? =
      w :: calls.filterMap written? := rfl
    rw [listed] at writes
    refine ih (fun w hw => writes w (List.mem_cons_of_mem _ hw)) (.inl ?_)
    exact writes w (List.mem_cons_self ..)

section History

variable {settings : Settings} {c : Configuration} {uid : String}
  {s s' : Option ConfigurationStatus} {visits pre post : List Visit} {v : Visit}

theorem Deletions.append (history : Deletions settings c s (pre ++ post) s') :
    ∃ mid, Deletions settings c mid post s' := by
  induction pre generalizing s with
  | nil => exact ⟨s, history⟩
  | cons v pre ih =>
    cases history with
    | cons _ _ _ _ _ later => exact ih later

theorem Deletions.all (history : Deletions settings c s visits s') :
    ∀ u ∈ visits, u.Possible settings ∧ u.configuration.metadata.isDeleting = true ∧
      SameWish c u.configuration := by
  induction history with
  | nil => exact fun u hu => absurd hu List.not_mem_nil
  | cons possible deleting same _ _ _ ih =>
    intro u hu
    rcases List.mem_cons.1 hu with rfl | hu
    · exact ⟨possible, deleting, same⟩
    · exact ih u hu

theorem complete_of_recorded (same : SameWish c v.configuration)
    (read : v.configuration.status = s) (recorded : Recorded (Resource.generation c) s) :
    complete v.configuration.conditions Configuration.destroyed
      (Resource.generation v.configuration) = true := by
  rw [same.generation, Configuration.conditions, read]
  exact recorded

/-- Once it is recorded that the destroy is complete, it stays so, and no job is asked for. -/
theorem Deletions.idle (history : Deletions settings c s visits s')
    (owned : c.metadata.uid = some uid) (recorded : Recorded (Resource.generation c) s) :
    ∀ u ∈ visits, u.calls.filterMap created? = [] := by
  induction history with
  | nil => exact fun u hu => absurd hu List.not_mem_nil
  | @cons s s' s'' v visits possible deleting same read stores later ih =>
    have completed := complete_of_recorded same read recorded
    have owned' := same.uid.trans owned
    have recorded' : Recorded (Resource.generation c) s' := by
      refine stores.recorded (fun w wrote => ?_) (.inl recorded)
      rw [← same.generation]
      exact (written_of_visit possible deleting owned' wrote).2 completed
    intro u hu
    rcases List.mem_cons.1 hu with rfl | hu
    · refine List.filterMap_eq_nil_iff.2 fun call called => ?_
      refine Option.eq_none_iff_forall_ne_some.2 fun job made => ?_
      have incomplete := (created_of_visit possible deleting owned' called made).2.2
      exact absurd (incomplete.symm.trans completed) Bool.false_ne_true
    · exact ih recorded' u hu

/-- After a cycle that deleted the inputs of the units, no later one creates a unit, if the status
that it wrote was acknowledged or told of the destroy before, and a state that it did not find does
not appear later. -/
theorem destroy_not_restarted (history : Deletions settings c s (pre ++ v :: post) s')
    (owned : c.metadata.uid = some uid) (deleted : InputsDeleted settings uid v.calls)
    (acknowledged : Recorded (Resource.generation c) v.configuration.status ∨
      ∃ w, told (.patchStatus w) (.ok ()) ∈ v.calls)
    (stateless : told (.getSecret (SecretName.state uid) settings.namespaceName) (.ok none) ∈
        v.calls →
      ∀ u ∈ post, ∀ state, told (.getSecret (SecretName.state uid) settings.namespaceName)
        (.ok (some state)) ∉ u.calls) :
    ∀ u ∈ post, u.calls.filterMap created? = [] := by
  obtain ⟨before, history⟩ := history.append
  cases history with
  | @cons _ after _ _ _ possible deleting same read stores later =>
  have owned' := same.uid.trans owned
  by_cases free : v.configuration.isOrphaned = true ∨
      told (.getSecret (SecretName.state uid) settings.namespaceName) (.ok none) ∈ v.calls
  · intro u hu
    obtain ⟨possible', deleting', same'⟩ := later.all u hu
    refine List.filterMap_eq_nil_iff.2 fun call called => ?_
    refine Option.eq_none_iff_forall_ne_some.2 fun job made => ?_
    obtain ⟨kept, ⟨state, found⟩, -⟩ :=
      created_of_visit possible' deleting' (same'.uid.trans owned) called made
    rcases free with orphaned | absent
    · have orphan : u.configuration.isOrphaned = v.configuration.isOrphaned := by
        rw [Configuration.isOrphaned, Configuration.isOrphaned, same'.annotations,
          same.annotations]
      exact absurd (kept.symm.trans (orphan.trans orphaned)) Bool.false_ne_true
    · exact stateless absent u hu state found
  · have writes : ∀ w ∈ v.written,
        complete w.conditions Configuration.destroyed (Resource.generation c) = true := by
      intro w wrote
      rw [← same.generation]
      rcases (written_of_visit possible deleting owned' wrote).1 deleted with kept | none | done
      · exact absurd (.inl kept) free
      · exact absurd (.inr none) free
      · exact done
    refine later.idle owned (stores.recorded writes ?_)
    rwa [read] at acknowledged

end History

/-! ## Two cycles -/

def storedAfter (s : Option ConfigurationStatus) (calls : Calls) : Option ConfigurationStatus :=
  calls.foldl (fun s call => match acknowledged? call with
    | some w => w.status
    | none => s) s

theorem stores_storedAfter (s : Option ConfigurationStatus) (calls : Calls) :
    Stores s calls (storedAfter s calls) := by
  induction calls generalizing s with
  | nil => exact .done s
  | cons call calls ih =>
    rw [storedAfter, List.foldl_cons]
    cases written : acknowledged? call with
    | none => exact .kept written (ih s)
    | some w =>
      rw [eq_of_acknowledged written]
      exact .written (ih w.status)

def refusing (s : Steady) (refused : ConfigurationCall → Bool) :
    (r : Supervised.Request ConfigurationStore) → Supervised.Answer r
  | .plain (.store call) =>
    (if refused call then .error (.ofCode 500) else s.reply call : Outcome call.Answer)
  | .watched (.store call) =>
    some (if refused call then .error (.ofCode 500) else s.reply call : Outcome call.Answer)
  | r => s.answer r

def refusingVisit (s : Steady) (refused : ConfigurationCall → Bool) (c : Configuration) : Visit :=
  ⟨c, .none, (reconcile {} c .none).follow (refusing s refused)⟩

theorem possible_refusingVisit (s : Steady) (refused : ConfigurationCall → Bool)
    (c : Configuration) : (refusingVisit s refused c).Possible {} := by
  have reached := Program.reaches_follow (refusing s refused) (reconcile {} c .none)
  exact ⟨_, reached⟩

def releasesFinalizer : ConfigurationCall → Bool
  | .removeFinalizer _ _ _ => true
  | _ => false

def writesStatus : ConfigurationCall → Bool
  | .patchStatus _ => true
  | _ => false

def deletesInputs (uid namespaceName : String) : StoreCall ConfigurationStore → Bool
  | ⟨.deleteSecret name ns, some (.ok existed)⟩ =>
    existed && name = SecretName.config uid && ns = namespaceName
  | _ => false

theorem exists_deleted {uid namespaceName : String} {calls : Calls}
    (h : calls.any (deletesInputs uid namespaceName) = true) :
    told (.deleteSecret (SecretName.config uid) namespaceName) (.ok true) ∈ calls := by
  obtain ⟨⟨request, answer⟩, listed, deletes⟩ := List.any_eq_true.1 h
  cases request with
  | deleteSecret name ns =>
    rcases answer with _ | e | _ | _
    · exact absurd deletes Bool.false_ne_true
    · exact absurd deletes Bool.false_ne_true
    · exact absurd deletes Bool.false_ne_true
    · obtain ⟨named, placed⟩ := Bool.and_eq_true_iff.1 deletes
      obtain rfl : name = SecretName.config uid := of_decide_eq_true named
      obtain rfl : ns = namespaceName := of_decide_eq_true placed
      exact listed
  | _ => cases deletes

def mountedSecrets (job : Job) : List String :=
  ((((job.spec.bind (·.template.spec)).bind (·.volumes)).getD []).filterMap (·.secret)).filterMap
    (·.secretName)

def leaving : Configuration := { destroyedSample with status := none }

def destroyDone : Steady :=
  { units := [succeeded .destroy 3], secrets := [SecretName.state "u-1"] }

def interrupted : Visit :=
  refusingVisit destroyDone (fun call => releasesFinalizer call || writesStatus call) leaving

def resumed : Visit :=
  Steady.visit { provider := some readyProvider, secrets := [SecretName.state "u-1"] } leaving

theorem deletions_resumed :
    Deletions {} leaving none [interrupted, resumed] (storedAfter none resumed.calls) := by
  have lost : storedAfter none interrupted.calls = none := by decide +kernel
  have stores := stores_storedAfter none interrupted.calls
  rw [lost] at stores
  exact .cons (possible_refusingVisit _ _ _) rfl ⟨rfl, rfl, rfl, rfl⟩ rfl stores
    (.cons (Steady.possible_visit _ _) rfl ⟨rfl, rfl, rfl, rfl⟩ rfl (stores_storedAfter _ _)
      (.nil _))

/-- Without the write of the status the next cycle creates a unit for a destroy that is complete, to
mount a secret that is deleted. -/
theorem destroy_restarted : ¬ ∀ (settings : Settings) (c : Configuration) (uid : String)
    (s s' : Option ConfigurationStatus) (pre post : List Visit) (v : Visit),
    c.metadata.uid = some uid → Deletions settings c s (pre ++ v :: post) s' →
    told (.deleteSecret (SecretName.config uid) settings.namespaceName) (.ok true) ∈ v.calls →
    ∀ u ∈ post, ∀ job ∈ u.calls.filterMap created?,
      ¬ (job.stage? = some .destroy ∧ SecretName.config uid ∈ mountedSecrets job) := by
  intro claim
  have deleted : told (.deleteSecret (SecretName.config "u-1") "terrace-system") (.ok true) ∈
      interrupted.calls := exists_deleted (by decide +kernel)
  have restarted : ∃ job ∈ resumed.calls.filterMap created?,
      job.stage? = some .destroy ∧ SecretName.config "u-1" ∈ mountedSecrets job := by
    decide +kernel
  obtain ⟨job, made, destroys⟩ := restarted
  exact claim {} leaving "u-1" none _ [] [resumed] interrupted rfl deletions_resumed deleted
    resumed (List.mem_singleton_self _) job made destroys

def heldBack : Visit := refusingVisit destroyDone releasesFinalizer leaving

def released : Visit :=
  Steady.visit { provider := some readyProvider, secrets := [SecretName.state "u-1"] }
    { leaving with status := storedAfter none heldBack.calls }

theorem deletions_released : Deletions {} leaving none [heldBack, released]
    (storedAfter (storedAfter none heldBack.calls) released.calls) :=
  .cons (possible_refusingVisit _ _ _) rfl ⟨rfl, rfl, rfl, rfl⟩ rfl (stores_storedAfter _ _)
    (.cons (Steady.possible_visit _ _) rfl ⟨rfl, rfl, rfl, rfl⟩ rfl (stores_storedAfter _ _)
      (.nil _))

theorem exists_acknowledged {calls : Calls}
    (h : calls.any (fun call => (acknowledged? call).isSome) = true) :
    ∃ w, told (.patchStatus w) (.ok ()) ∈ calls := by
  obtain ⟨call, listed, written⟩ := List.any_eq_true.1 h
  obtain ⟨w, written⟩ := Option.isSome_iff_exists.1 written
  exact ⟨w, eq_of_acknowledged written ▸ listed⟩

def findsNothing : StoreCall ConfigurationStore → Bool
  | ⟨.getSecret _ _, some (.ok none)⟩ => true
  | _ => false

theorem destroy_not_restarted_heldBack :
    Deletions {} leaving none [heldBack, released]
      (storedAfter (storedAfter none heldBack.calls) released.calls) ∧
    InputsDeleted {} "u-1" heldBack.calls ∧
    released.calls.any (fun call => releasesFinalizer call.request) = true ∧
    ∀ u ∈ [released], u.calls.filterMap created? = [] := by
  have deleted : InputsDeleted {} "u-1" heldBack.calls :=
    ⟨some (.ok true), exists_deleted (by decide +kernel)⟩
  have stateful : heldBack.calls.all (fun call => !findsNothing call) = true := by decide +kernel
  refine ⟨deletions_released, deleted, by decide +kernel, ?_⟩
  have history : Deletions {} leaving none ([] ++ heldBack :: [released]) _ := deletions_released
  refine destroy_not_restarted history rfl deleted
    (.inr (exists_acknowledged (by decide +kernel))) fun absent => ?_
  have found := List.all_eq_true.1 stateful _ absent
  cases found

end InfraOperator.Provisioning
