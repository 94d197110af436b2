import InfraOperator.Proofs.Provisioning.Journal

/-!
# What goes before the release

The finalizer of a configuration is released only after its infrastructure is gone, or is to be left
standing, and after everything generated for it was deleted in the same cycle. Only a cycle whose
release did not fail tells that the clean-up is complete.
-/

set_option autoImplicit false

namespace InfraOperator.Provisioning

open Pipeline (Keeps observeSteps keeps_cons)

/-- Nothing is left of what stands for the uid or was generated for it, by the calls so far and the
conditions of the cycle. -/
structure Cleared (settings : Settings) (c : Configuration) (uid : String) (past : Calls)
    (conditions : List Condition) : Prop where
  owner : c.metadata.uid = some uid
  destroyed : c.isOrphaned = true ∨
    told (.getSecret (SecretName.state uid) settings.namespaceName) (.ok none) ∈ past ∨
    Conditions.complete conditions Configuration.destroyed (Resource.generation c) = true
  secrets : ∀ name ∈ generatedSecrets uid, ∃ existed,
    told (.deleteSecret name settings.namespaceName) (.ok existed) ∈ past
  units : told (.deleteUnits settings.namespaceName uid) (.ok ()) ∈ past

theorem Cleared.later {settings : Settings} {c : Configuration} {uid : String} {past : Calls}
    {conditions : List Condition} (h : Cleared settings c uid past conditions) (own : Calls) :
    Cleared settings c uid (past ++ own) conditions where
  owner := h.owner
  destroyed := h.destroyed.imp_right (Or.imp_left (List.mem_append_left own))
  secrets name hn := by
    obtain ⟨existed, asked⟩ := h.secrets name hn
    exact ⟨existed, List.mem_append_left own asked⟩
  units := List.mem_append_left own h.units

def Removed (past : Calls) : Prop :=
  ∃ name ns, ∃ answer : Outcome Unit,
    told (.removeFinalizer name ns cleanupFinalizer) answer ∈ past ∧
      (answer = .ok () ∨ ∃ e, answer = .error e ∧ e.isNotFound = true)

theorem Removed.later {past : Calls} (h : Removed past) (own : Calls) : Removed (past ++ own) := by
  obtain ⟨name, ns, answer, asked, gone⟩ := h
  exact ⟨name, ns, answer, List.mem_append_left own asked, gone⟩

def cleanupReason : String := "CleanupComplete"

def Guard (settings : Settings) (c : Configuration) (past : Calls) (cycle : ConfigurationCycle)
    (r : Surroundings.Request ConfigurationStore) : Prop :=
  (∀ name ns finalizer, r = .store (.removeFinalizer name ns finalizer) →
    ∃ uid, Cleared settings c uid past cycle.conditions) ∧
  ∀ notice, r = .publish notice → notice.reason = cleanupReason →
    (∃ uid, Cleared settings c uid past cycle.conditions) ∧ Removed past

/-- A cycle that is done with everything cleaned up has cleared all and released the finalizer. -/
def Finished (settings : Settings) (c : Configuration) (past : Calls)
    (outcome : Outcome Directive) (cycle : ConfigurationCycle) : Prop :=
  outcome = .ok .done → cycle.scratch.cleanedUp = true →
    (∃ uid, Cleared settings c uid past cycle.conditions) ∧ Removed past

variable {settings : Settings} {c : Configuration} {past : Calls} {cycle : ConfigurationCycle}

theorem finished_of_error {e : Failure} : Finished settings c past (.error e) cycle :=
  fun done => by cases done

theorem finished_of_unclean {outcome : Outcome Directive}
    (h : cycle.scratch.cleanedUp = false) : Finished settings c past outcome cycle :=
  fun _ cleaned => absurd (h.symm.trans cleaned) Bool.false_ne_true

theorem guard_of_ne {r : Surroundings.Request ConfigurationStore}
    (release : ∀ name ns finalizer, r ≠ .store (.removeFinalizer name ns finalizer))
    (tell : ∀ notice, r = .publish notice → notice.reason ≠ cleanupReason) :
    Guard settings c past cycle r :=
  ⟨fun name ns finalizer asked => absurd asked (release name ns finalizer),
    fun notice told reason => absurd reason (tell notice told)⟩

theorem guard_of_ordinary {r : Surroundings.Request ConfigurationStore} (h : Ordinary r) :
    Guard settings c past cycle r :=
  guard_of_ne h.ne_removeFinalizer fun notice told => absurd told (h.ne_publish notice)

/-! ## The steps -/

theorem StageRun.Asks.guard {s : StageRun} {own : Calls}
    {r : Surroundings.Request ConfigurationStore} (asks : s.Asks settings cycle own r) :
    Guard settings c past cycle r := by
  refine guard_of_ne (fun name ns finalizer made => ?_) fun notice told => ?_
  · subst made
    cases asks
  · subst told
    cases asks with
    | tell h =>
      rcases h with h | h
      all_goals
        rw [h]
        decide

theorem SecretsDeleted.all {ns : String} {names : List String} {own : Calls}
    (h : SecretsDeleted ns names own (.ok ())) :
    ∀ name ∈ names, ∃ existed, told (.deleteSecret name ns) (.ok existed) ∈ own := by
  generalize result : (Except.ok () : Outcome Unit) = outcome at h
  induction h with
  | nil => exact fun name hn => absurd hn List.not_mem_nil
  | failed => cases result
  | deleted later ih =>
    intro name hn
    rcases List.mem_cons.1 hn with rfl | hn
    · exact ⟨_, List.mem_cons_self ..⟩
    · obtain ⟨existed, asked⟩ := ih result name hn
      exact ⟨existed, List.mem_cons_of_mem _ asked⟩

/-- The release, from where all is cleared. -/
theorem keeps_release {name uid : String} (metadata_eq : cycle.resource.metadata = c.metadata)
    (held : c.metadata.hasFinalizer cleanupFinalizer = true)
    (cleared : Cleared settings c uid past cycle.conditions) :
    Keeps (Guard settings c) (Finished settings c) (observeSteps name
      [ensureFinalizerRemoved ConfigurationStore.finalizers cleanupFinalizer] cycle) past := by
  refine keeps_cons does_ensureFinalizerRemoved ?_ finished_of_error
    (fun _ _ _ _ => finished_of_error) ?_ ?_
  · rintro own r ⟨rfl, name, ns, rfl⟩
    rw [List.append_nil]
    exact ⟨fun _ _ _ _ => ⟨uid, cleared⟩, fun _ told => by cases told⟩
  · intro own verdict cycle' ending ends ended
    cases ends with
    | absent => cases ended
    | released => cases ended
    | gone => cases ended
    | homeless =>
      cases ended
      exact finished_of_error
    | refused =>
      cases ended
      exact finished_of_error
  · intro own verdict cycle' ends go
    refine Pipeline.keeps_nil name fun _ _ => ?_
    cases ends with
    | absent h =>
      rw [metadata_eq] at h
      exact absurd (h.symm.trans held) Bool.false_ne_true
    | homeless => cases go
    | refused => cases go
    | @released object ns =>
      exact ⟨⟨uid, cleared.later _⟩, object, ns, .ok (),
        List.mem_append_right past (List.mem_cons_self ..), .inl rfl⟩
    | @gone object ns e absent =>
      exact ⟨⟨uid, cleared.later _⟩, object, ns, .error e,
        List.mem_append_right past (List.mem_cons_self ..), .inr ⟨e, rfl, absent⟩⟩

theorem keeps_cleanup {name : String} (metadata_eq : cycle.resource.metadata = c.metadata)
    (held : c.metadata.hasFinalizer cleanupFinalizer = true)
    (destroyed : ∀ uid, c.metadata.uid = some uid → c.isOrphaned = true ∨
      told (.getSecret (SecretName.state uid) settings.namespaceName) (.ok none) ∈ past ∨
      Conditions.complete cycle.conditions Configuration.destroyed (Resource.generation c) =
        true) :
    Keeps (Guard settings c) (Finished settings c) (observeSteps name
      [ensureConfigurationRemoved settings,
        ensureFinalizerRemoved ConfigurationStore.finalizers cleanupFinalizer] cycle) past := by
  refine keeps_cons does_ensureConfigurationRemoved
    (fun _ _ asks => guard_of_ordinary asks.ordinary) finished_of_error
    (fun _ _ _ _ => finished_of_error) ?_ ?_
  · intro own verdict cycle' ending ends ended
    cases ends with
    | removed => cases ended
    | _ =>
      cases ended
      exact finished_of_error
  · intro own verdict cycle' ends go
    cases ends with
    | @removed uid own owner deleted =>
      have owned : c.metadata.uid = some uid := metadata_eq ▸ uid_of_ownerUid owner
      refine keeps_release metadata_eq held
        { owner := owned
          destroyed := (destroyed uid owned).imp_right (Or.imp_left (List.mem_append_left _))
          secrets := fun name hn => ?_
          units := by simp }
      obtain ⟨existed, asked⟩ := deleted.all name hn
      exact ⟨existed, by simp [asked]⟩
    | _ => cases go

theorem DestroyAsks.guard {own : Calls} {r : Surroundings.Request ConfigurationStore}
    (asks : DestroyAsks settings cycle own r) : Guard settings c past cycle r := by
  cases asks with
  | state => exact guard_of_ordinary trivial
  | stage owner asks => exact asks.guard

theorem DestroyEnds.unclean {own : Calls} {verdict : Verdict} {cycle' : ConfigurationCycle}
    (ends : DestroyEnds settings cycle own verdict cycle')
    (unclean : cycle.scratch.cleanedUp = false) : cycle'.scratch.cleanedUp = false := by
  cases ends with
  | stage owner ends => cases ends <;> simpa using unclean
  | _ => exact unclean

/-- A destroy stage that lets the others go on has found nothing standing, or was told to leave
it. -/
theorem DestroyEnds.destroyed {own : Calls} {verdict : Verdict} {cycle' : ConfigurationCycle}
    (ends : DestroyEnds settings cycle own verdict cycle') (go : verdict.ending? = none)
    (metadata_eq : cycle.resource.metadata = c.metadata) {uid : String}
    (owned : c.metadata.uid = some uid) :
    c.isOrphaned = true ∨
      told (.getSecret (SecretName.state uid) settings.namespaceName) (.ok none) ∈ own ∨
      Conditions.complete cycle'.conditions Configuration.destroyed (Resource.generation c) =
        true := by
  have metadata_eq' := ends.change.metadata_eq.trans metadata_eq
  cases ends with
  | orphaned orphaned =>
    have same : cycle.resource.isOrphaned = c.isOrphaned :=
      congrArg (fun m : ObjectMeta => annotationIsTrue m.annotations Annotation.orphan) metadata_eq
    exact .inl (same ▸ orphaned)
  | @stateless uid' owner =>
    have owned' := metadata_eq ▸ uid_of_ownerUid owner
    obtain rfl : uid = uid' := Option.some.inj (owned.symm.trans owned')
    exact .inr (.inl (List.mem_cons_self ..))
  | stage owner ends =>
    have done := (ends.passes go).2.done.resolve_right fun h => by cases h.1
    rw [Cycle.isComplete_eq] at done
    have same : cycle'.generation = Resource.generation c :=
      congrArg ObjectMeta.generationOrZero metadata_eq'
    rw [same] at done
    exact .inr (.inr done)
  | ownerless => cases go
  | unread => cases go

/-- The steps of a deletion. The destroy stage stands before them all: whatever holds it back ends
the cycle with nothing cleaned up. -/
theorem keeps_deletion {name : String} (metadata_eq : cycle.resource.metadata = c.metadata)
    (held : c.metadata.hasFinalizer cleanupFinalizer = true)
    (unclean : cycle.scratch.cleanedUp = false) :
    Keeps (Guard settings c) (Finished settings c) (observeSteps name (deletionSteps settings)
      cycle) [] := by
  refine keeps_cons does_ensureUnitListing ?_ finished_of_error
    (fun _ _ _ _ => finished_of_error) ?_ ?_
  · rintro own r ⟨uid, rfl⟩
    exact guard_of_ordinary trivial
  · intro own verdict listed ending ends ended
    cases ends with
    | listed => cases ended
    | _ =>
      cases ended
      exact finished_of_error
  intro own verdict listed ends go
  have metadata_eq := ends.change.metadata_eq.trans metadata_eq
  have unclean : listed.scratch.cleanedUp = false := by cases ends <;> exact unclean
  refine keeps_cons does_ensureDestroy (fun _ _ asks => asks.guard) finished_of_error
    (fun _ _ _ _ => finished_of_error)
    (fun _ _ _ _ ends _ => finished_of_unclean (ends.unclean unclean)) ?_
  intro own verdict destroyed ends go
  refine keeps_cleanup (ends.change.metadata_eq.trans metadata_eq) held fun uid owned => ?_
  exact (ends.destroyed go metadata_eq owned).imp_right
    (Or.imp_left (List.mem_append_right _))

variable {failures : Failures} {run : List (Answered (Supervised ConfigurationStore))}
  {rest : Supervision (Outcome Action × Failures)}

theorem safe_of_candidate
    (candidate : c.metadata.isDeletionCandidate cleanupFinalizer = true) :
    (observe settings c failures).Safe Supervised.notedCalls
      (Supervised.Allowed fun past cycle r => r.suspends → Guard settings c past cycle r)
      (fun _ _ => True) [] := by
  obtain ⟨deleting, held⟩ := Bool.and_eq_true_iff.1 candidate
  have steps : ∀ name now, Keeps (Guard settings c) (Finished settings c)
      (observeSteps name (stepsFor settings c.metadata.isDeleting) (openCycle c now)) [] := by
    intro name now
    rw [deleting]
    exact keeps_deletion rfl held rfl
  refine safe_observe steps (fun past own outcome cycle r _ asks => ?_)
    fun past own cycle finished _ cleaned => ?_
  · refine guard_of_ne (fun name ns finalizer made => ?_) fun notice told => ?_
    · subst made
      cases asks with
      | prompt quick => cases quick
    · subst told
      cases asks with
      | prompt quick => cases quick
      | @tell e h =>
        show e.reason.text ≠ cleanupReason
        cases e.reason <;> decide
  · obtain ⟨⟨uid, cleared⟩, removed⟩ := finished rfl cleaned
    refine ⟨fun _ _ _ made => ?_, fun notice told _ => ?_⟩
    · cases made
    · exact ⟨⟨uid, cleared.later own⟩, removed.later own⟩

/-- Whatever a cycle of a configuration that is to be deleted is answered, and wherever it is broken
off: the finalizer is released only once all is cleared, and the clean-up is told of only after a
release that did not fail. -/
theorem release_guarded (reached : (reconcile settings c failures).Reaches run rest)
    (candidate : c.metadata.isDeletionCandidate cleanupFinalizer = true) :
    ∃ journal, IsJournal settings c failures journal ∧ journal.map Answered.bare = run ∧
      ∀ pre e post, journal = pre ++ e :: post →
        (∀ name ns finalizer, e.AsksFor (.store (.removeFinalizer name ns finalizer)) →
          ∃ uid, Cleared settings c uid (pre.flatMap Supervised.notedCalls)
            e.note.conditions) ∧
        ∀ notice, e.AsksFor (.publish notice) → notice.reason = cleanupReason →
          (∃ uid, Cleared settings c uid (pre.flatMap Supervised.notedCalls)
            e.note.conditions) ∧ Removed (pre.flatMap Supervised.notedCalls) := by
  obtain ⟨journal, ⟨rest', observed⟩, bare⟩ := exists_journal reached
  refine ⟨journal, ⟨rest', observed⟩, bare, fun pre e post parts => ?_⟩
  have allowed := (safe_of_candidate candidate).asked observed parts
  rw [List.nil_append] at allowed
  exact ⟨fun name ns finalizer asks => (allowed.of_asksFor asks rfl).1 name ns finalizer rfl,
    fun notice asks => (allowed.of_asksFor asks rfl).2 notice rfl⟩

def destroyedSample : Configuration :=
  { sample [holding Configuration.destroyed 3] with
    metadata :=
      { (sample []).metadata with deletionTimestamp := some default } }

def withState : Steady := { secrets := [SecretName.state "u-1"] }

def releases : StoreCall ConfigurationStore → Bool
  | ⟨.removeFinalizer _ _ _, _⟩ => true
  | _ => false

def announces : Answered (Supervised ConfigurationStore) → Bool
  | ⟨.plain (.publish notice), _⟩ => notice.reason = cleanupReason
  | _ => false

theorem release_guarded_destroyed :
    (withState.visit destroyedSample).calls.countP releases = 1 ∧
    (withState.visit destroyedSample).run.countP announces = 1 ∧
    ∃ journal, IsJournal {} destroyedSample .none journal ∧
      journal.map Answered.bare = (withState.visit destroyedSample).run ∧
      ∀ pre e post, journal = pre ++ e :: post →
        (∀ name ns finalizer, e.AsksFor (.store (.removeFinalizer name ns finalizer)) →
          ∃ uid, Cleared {} destroyedSample uid (pre.flatMap Supervised.notedCalls)
            e.note.conditions) ∧
        ∀ notice, e.AsksFor (.publish notice) → notice.reason = cleanupReason →
          (∃ uid, Cleared {} destroyedSample uid (pre.flatMap Supervised.notedCalls)
            e.note.conditions) ∧ Removed (pre.flatMap Supervised.notedCalls) := by
  refine ⟨by decide +kernel, by decide +kernel, ?_⟩
  obtain ⟨rest, reached⟩ := withState.possible_visit destroyedSample
  exact release_guarded reached (by decide +kernel)

end InfraOperator.Provisioning
