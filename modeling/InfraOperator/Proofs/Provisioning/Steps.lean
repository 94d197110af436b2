import InfraOperator.Proofs.Provisioning.Stages

/-!
# What the other steps do

For each step but the stages, everything it can do: what it asks of its surroundings and how it
ends, after its own calls. The stage that destroys is part of the step that decides whether there is
anything to destroy.
-/

set_option autoImplicit false

namespace InfraOperator.Provisioning

section Calls

variable {c : ConfigurationCycle}
  {asks : Calls → ConfigurationCycle → Surroundings.Request ConfigurationStore → Prop}
  {own : Calls}

@[simp] theorem does_listPolicies
    {ends : Calls → Outcome (List Policy) → ConfigurationCycle → Prop} :
    listPolicies.Does c asks ends own ↔ asks own c (.store .listPolicies) ∧
      ∀ answer : Outcome (List Policy), ends (own ++ [told .listPolicies answer]) answer c :=
  Staged.does_call

@[simp] theorem does_listUnits {ns uid : String}
    {ends : Calls → Outcome (List Job) → ConfigurationCycle → Prop} :
    (listUnits ns uid).Does c asks ends own ↔ asks own c (.store (.listUnits ns uid)) ∧
      ∀ answer : Outcome (List Job), ends (own ++ [told (.listUnits ns uid) answer]) answer c :=
  Staged.does_call

@[simp] theorem does_deleteUnits {ns uid : String}
    {ends : Calls → Outcome Unit → ConfigurationCycle → Prop} :
    (deleteUnits ns uid).Does c asks ends own ↔ asks own c (.store (.deleteUnits ns uid)) ∧
      ∀ answer : Outcome Unit, ends (own ++ [told (.deleteUnits ns uid) answer]) answer c :=
  Staged.does_call

@[simp] theorem does_getSecret {name ns : String}
    {ends : Calls → Outcome (Option Secret) → ConfigurationCycle → Prop} :
    (getSecret name ns).Does c asks ends own ↔ asks own c (.store (.getSecret name ns)) ∧
      ∀ answer : Outcome (Option Secret),
        ends (own ++ [told (.getSecret name ns) answer]) answer c :=
  Staged.does_call

@[simp] theorem does_createSecret {secret : Secret}
    {ends : Calls → Outcome Unit → ConfigurationCycle → Prop} :
    (createSecret secret).Does c asks ends own ↔ asks own c (.store (.createSecret secret)) ∧
      ∀ answer : Outcome Unit, ends (own ++ [told (.createSecret secret) answer]) answer c :=
  Staged.does_call

@[simp] theorem does_patchSecretData {name ns : String} {data : Dict Bytes}
    {ends : Calls → Outcome Unit → ConfigurationCycle → Prop} :
    (patchSecretData name ns data).Does c asks ends own ↔
      asks own c (.store (.patchSecretData name ns data)) ∧
      ∀ answer : Outcome Unit,
        ends (own ++ [told (.patchSecretData name ns data) answer]) answer c :=
  Staged.does_call

@[simp] theorem does_deleteSecret {name ns : String}
    {ends : Calls → Outcome Bool → ConfigurationCycle → Prop} :
    (deleteSecret name ns).Does c asks ends own ↔ asks own c (.store (.deleteSecret name ns)) ∧
      ∀ answer : Outcome Bool, ends (own ++ [told (.deleteSecret name ns) answer]) answer c :=
  Staged.does_call

@[simp] theorem does_setScratch {f : Scratch → Scratch}
    {ends : Calls → Unit → ConfigurationCycle → Prop} :
    (setScratch f).Does c asks ends own ↔ ends own () { c with scratch := f c.scratch } :=
  Staged.does_modify

end Calls

variable {settings : Settings} {c : ConfigurationCycle}

/-! ## The finalizer -/

inductive FinalizerEnds (c : ConfigurationCycle) : Calls → Verdict → ConfigurationCycle → Prop
  | held (h : c.resource.metadata.hasFinalizer cleanupFinalizer = true) :
      FinalizerEnds c [] .proceed c
  | homeless {e : Failure} (unheld : c.resource.metadata.hasFinalizer cleanupFinalizer = false)
      (h : c.resource.identity = .error e) : FinalizerEnds c [] (.stop e) c
  | added {name ns : String}
      (unheld : c.resource.metadata.hasFinalizer cleanupFinalizer = false) :
      FinalizerEnds c [told (.addFinalizer name ns cleanupFinalizer) (.ok ())] .requeueNow c
  | refused {name ns : String} {e : Failure}
      (unheld : c.resource.metadata.hasFinalizer cleanupFinalizer = false) :
      FinalizerEnds c [told (.addFinalizer name ns cleanupFinalizer) (.error e)] (.stop e) c

theorem does_addFinalizer {r : Configuration} {finalizer : String}
    {asks : Calls → ConfigurationCycle → Surroundings.Request ConfigurationStore → Prop}
    {ends : Calls → Outcome Unit → ConfigurationCycle → Prop} {own : Calls}
    (homeless : ∀ e, r.identity = .error e → ends own (.error e) c)
    (asked : ∀ name ns, asks own c (.store (.addFinalizer name ns finalizer)) ∧
      ∀ answer : Outcome Unit,
        ends (own ++ [told (.addFinalizer name ns finalizer) answer]) answer c) :
    (ConfigurationStore.finalizers.add r finalizer : Run (Outcome Unit)).Does c asks ends own := by
  simp only [ConfigurationStore.finalizers]
  cases identity : r.identity with
  | error e => exact homeless e identity
  | ok identified => exact Staged.does_call.2 (asked identified.1 identified.2)

theorem does_removeFinalizer {r : Configuration} {finalizer : String}
    {asks : Calls → ConfigurationCycle → Surroundings.Request ConfigurationStore → Prop}
    {ends : Calls → Outcome Unit → ConfigurationCycle → Prop} {own : Calls}
    (homeless : ∀ e, r.identity = .error e → ends own (.error e) c)
    (asked : ∀ name ns, asks own c (.store (.removeFinalizer name ns finalizer)) ∧
      ∀ answer : Outcome Unit,
        ends (own ++ [told (.removeFinalizer name ns finalizer) answer]) answer c) :
    (ConfigurationStore.finalizers.remove r finalizer : Run (Outcome Unit)).Does c asks ends
      own := by
  simp only [ConfigurationStore.finalizers]
  cases identity : r.identity with
  | error e => exact homeless e identity
  | ok identified => exact Staged.does_call.2 (asked identified.1 identified.2)

theorem does_ensureFinalizer :
    (ensureFinalizer ConfigurationStore.finalizers cleanupFinalizer : ConfigurationStep).run.Does c
      (Staged.From c fun _ r => ∃ name ns, r = .store (.addFinalizer name ns cleanupFinalizer))
      (FinalizerEnds c) [] := by
  simp only [ensureFinalizer, Staged.does_bind, Staged.does_get]
  by_cases held : (Resource.metadata c.resource).hasFinalizer cleanupFinalizer = true
  · rw [if_pos held]
    exact .held held
  rw [if_neg held, Staged.does_bind]
  have unheld := Bool.eq_false_iff.2 held
  refine does_addFinalizer (fun e h => .homeless unheld h)
    fun name ns => ⟨⟨rfl, name, ns, rfl⟩, fun answer => ?_⟩
  cases answer with
  | error e => exact .refused unheld
  | ok value =>
    simp only [Staged.does_bind, Staged.does_log]
    exact .added unheld

inductive ReleaseEnds (c : ConfigurationCycle) : Calls → Verdict → ConfigurationCycle → Prop
  | absent (h : c.resource.metadata.hasFinalizer cleanupFinalizer = false) :
      ReleaseEnds c [] .proceed c
  | homeless {e : Failure} (h : c.resource.identity = .error e) : ReleaseEnds c [] (.stop e) c
  | released {name ns : String} :
      ReleaseEnds c [told (.removeFinalizer name ns cleanupFinalizer) (.ok ())] .proceed c
  | gone {name ns : String} {e : Failure} (h : e.isNotFound = true) :
      ReleaseEnds c [told (.removeFinalizer name ns cleanupFinalizer) (.error e)] .proceed c
  | refused {name ns : String} {e : Failure} :
      ReleaseEnds c [told (.removeFinalizer name ns cleanupFinalizer) (.error e)] (.stop e) c

theorem isNotFound_of_identity {r : Configuration} {e : Failure} (h : r.identity = .error e) :
    e.isNotFound = false := by
  unfold Configuration.identity at h
  split at h
  · cases h
  · cases h
    rfl

theorem does_ensureFinalizerRemoved :
    (ensureFinalizerRemoved ConfigurationStore.finalizers cleanupFinalizer :
        ConfigurationStep).run.Does c
      (Staged.From c fun own r => own = [] ∧
        ∃ name ns, r = .store (.removeFinalizer name ns cleanupFinalizer))
      (ReleaseEnds c) [] := by
  simp only [ensureFinalizerRemoved, Staged.does_bind, Staged.does_get]
  by_cases held : (Resource.metadata c.resource).hasFinalizer cleanupFinalizer = true
  · rw [if_pos held, Staged.does_bind]
    refine does_removeFinalizer (fun e h => ?_)
      fun name ns => ⟨⟨rfl, rfl, name, ns, rfl⟩, fun answer => ?_⟩
    · simp only [isNotFound_of_identity h]
      exact .homeless h
    cases answer with
    | error e =>
      simp only
      by_cases gone : e.isNotFound = true
      · rw [if_pos gone]
        exact .gone gone
      · rw [if_neg gone]
        exact .refused
    | ok value =>
      simp only [Staged.does_bind, Staged.does_log]
      exact .released
  · rw [if_neg held]
    exact .absent (Bool.eq_false_iff.2 held)

/-! ## What the units need -/

inductive ProviderEnds (c : ConfigurationCycle) : Calls → Verdict → ConfigurationCycle → Prop
  | failed {e : Failure} :
      ProviderEnds c [told (.getProvider c.resource.spec.providerName) (.error e)] (.stop e) c
  | missing {now : Instant} :
      ProviderEnds c [told (.getProvider c.resource.spec.providerName) (.ok none)]
        (.requeue dependencyDelay) (c.markAt Configuration.providerReady .actionRequired
          ("provider " ++ c.resource.spec.providerName ++ " not found") now).2
  | unready {p : Provider} {now : Instant} (h : p.isReady = false) :
      ProviderEnds c [told (.getProvider c.resource.spec.providerName) (.ok (some p))]
        (.requeue dependencyDelay) (c.markAt Configuration.providerReady .warning
          ("provider " ++ c.resource.spec.providerName ++ " is not ready") now).2
  | ready {p : Provider} {now : Instant} (h : p.isReady = true) :
      ProviderEnds c [told (.getProvider c.resource.spec.providerName) (.ok (some p))] .proceed
        { (c.markAt Configuration.providerReady .success
            ("provider " ++ c.resource.spec.providerName ++ " is ready") now).2 with
          scratch := { c.scratch with provider := some p } }

theorem does_ensureProviderReady : ensureProviderReady.run.Does c
    (Staged.From c fun _ r => r = .store (.getProvider c.resource.spec.providerName))
    (ProviderEnds c) [] := by
  simp only [ensureProviderReady, Staged.does_bind, Staged.does_get, does_getProvider]
  refine ⟨⟨rfl, rfl⟩, fun answer => ?_⟩
  rcases answer with e | _ | p
  · exact .failed
  · simp only [Staged.does_bind, Staged.does_mark]
    exact fun now => .missing
  · simp only
    by_cases ready : p.isReady = true
    · rw [if_pos ready]
      simp only [Staged.does_bind, Staged.does_mark, does_setScratch, Cycle.scratch_markAt]
      exact fun now => .ready ready
    · rw [if_neg ready]
      simp only [Staged.does_bind, Staged.does_mark]
      exact fun now => .unready (by simpa using ready)

inductive PoliciesEnds (c : ConfigurationCycle) : Calls → Verdict → ConfigurationCycle → Prop
  | failed {e : Failure} : PoliciesEnds c [told .listPolicies (.error e)] (.stop e) c
  | selected {policies : List Policy} :
      PoliciesEnds c [told .listPolicies (.ok policies)] .proceed
        { c with scratch :=
          { c.scratch with policy := policies.find? (·.applies c.resource.metadata.labels) } }

theorem does_ensurePolicies : ensurePolicies.run.Does c
    (Staged.From c fun _ r => r = .store .listPolicies) (PoliciesEnds c) [] := by
  simp only [ensurePolicies, Staged.does_bind, does_listPolicies]
  refine ⟨⟨rfl, rfl⟩, fun answer => ?_⟩
  cases answer with
  | error e => exact .failed
  | ok policies =>
    simp only [Staged.does_bind, Staged.does_get, does_setScratch]
    split
    · simp only [Staged.does_bind, Staged.does_log]
      exact .selected
    · exact .selected

inductive ListingEnds (settings : Settings) (c : ConfigurationCycle) :
    Calls → Verdict → ConfigurationCycle → Prop
  | ownerless {e : Failure} (h : c.resource.ownerUid = .error e) :
      ListingEnds settings c [] (.stop e) c
  | failed {uid : String} {e : Failure} :
      ListingEnds settings c [told (.listUnits settings.namespaceName uid) (.error e)]
        (.stop e) c
  | listed {uid : String} {units : List Job} (h : c.resource.ownerUid = .ok uid) :
      ListingEnds settings c [told (.listUnits settings.namespaceName uid) (.ok units)] .proceed
        { c with scratch := { c.scratch with units } }

theorem does_ensureUnitListing : (ensureUnitListing settings).run.Does c
    (Staged.From c fun _ r => ∃ uid, r = .store (.listUnits settings.namespaceName uid))
    (ListingEnds settings c) [] := by
  simp only [ensureUnitListing, Staged.does_bind, Staged.does_get]
  cases owner : c.resource.ownerUid with
  | error e => exact .ownerless owner
  | ok uid =>
    simp only [Staged.does_bind, does_listUnits]
    refine ⟨⟨rfl, uid, rfl⟩, fun answer => ?_⟩
    cases answer with
    | error e => exact .failed
    | ok units => exact .listed owner

/-! ## Secrets -/

inductive SecretAsks (desired : Secret) : Surroundings.Request ConfigurationStore → Prop
  | read {ns : String} (home : desired.metadata.namespaceName = some ns) :
      SecretAsks desired (.store (.getSecret desired.metadata.displayName ns))
  | create : SecretAsks desired (.store (.createSecret desired))
  | patch {ns : String} (home : desired.metadata.namespaceName = some ns) :
      SecretAsks desired
        (.store (.patchSecretData desired.metadata.displayName ns (desired.data.getD ∅)))

inductive SecretEnds (desired : Secret) : Calls → Outcome Unit → Prop
  | homeless (h : desired.metadata.namespaceName = none) :
      SecretEnds desired []
        (.error (.validation desired.metadata.displayName "secret has no namespace"))
  | unread {ns : String} {e : Failure} (home : desired.metadata.namespaceName = some ns) :
      SecretEnds desired [told (.getSecret desired.metadata.displayName ns) (.error e)] (.error e)
  | created {ns : String} {answer : Outcome Unit}
      (home : desired.metadata.namespaceName = some ns) :
      SecretEnds desired [told (.getSecret desired.metadata.displayName ns) (.ok none),
        told (.createSecret desired) answer] answer
  | kept {ns : String} {existing : Secret} (home : desired.metadata.namespaceName = some ns)
      (same : existing.data = some (desired.data.getD ∅)) :
      SecretEnds desired [told (.getSecret desired.metadata.displayName ns) (.ok (some existing))]
        (.ok ())
  | patched {ns : String} {existing : Secret} {answer : Outcome Unit}
      (home : desired.metadata.namespaceName = some ns)
      (differs : existing.data ≠ some (desired.data.getD ∅)) :
      SecretEnds desired [told (.getSecret desired.metadata.displayName ns) (.ok (some existing)),
        told (.patchSecretData desired.metadata.displayName ns (desired.data.getD ∅)) answer]
        answer

theorem does_ensureSecret {desired : Secret} : (ensureSecret desired).Does c
    (Staged.From c fun _ r => SecretAsks desired r)
    (fun own result c' => c' = c ∧ SecretEnds desired own result) [] := by
  simp only [ensureSecret]
  cases home : desired.metadata.namespaceName with
  | none => exact ⟨rfl, .homeless home⟩
  | some ns =>
    simp only [Staged.does_bind, does_getSecret]
    refine ⟨⟨rfl, .read home⟩, fun answer => ?_⟩
    rcases answer with e | _ | existing
    · exact ⟨rfl, .unread home⟩
    · simp only [Staged.does_bind, Staged.does_log, does_createSecret]
      exact ⟨⟨rfl, .create⟩, fun answer => ⟨trivial, .created home⟩⟩
    · simp only
      by_cases same : existing.data = some (desired.data.getD ∅)
      · rw [if_pos same]
        exact ⟨rfl, .kept home same⟩
      · rw [if_neg same]
        simp only [Staged.does_bind, Staged.does_log, does_patchSecretData]
        exact ⟨⟨rfl, .patch home⟩, fun answer => ⟨trivial, .patched home same⟩⟩

def IsConfigSecret (settings : Settings) (c : ConfigurationCycle) (secret : Secret) : Prop :=
  ∃ p, c.scratch.provider = some p ∧
    Rendering.configSecret c.resource p settings.namespaceName = .ok secret

inductive JobConfigurationEnds (settings : Settings) (c : ConfigurationCycle) :
    Calls → Verdict → ConfigurationCycle → Prop
  | unresolved (h : c.scratch.provider = none) :
      JobConfigurationEnds settings c []
        (.stop (.internal "EnsureJobConfiguration" "provider not resolved")) c
  | unrendered {p : Provider} {e : Failure} (h : c.scratch.provider = some p)
      (rendered : Rendering.configSecret c.resource p settings.namespaceName = .error e) :
      JobConfigurationEnds settings c [] (.stop e) c
  | brought {secret : Secret} {own : Calls} {result : Outcome Unit}
      (h : IsConfigSecret settings c secret) (ends : SecretEnds secret own result) :
      JobConfigurationEnds settings c own (verdictOf result) c

theorem does_ensureJobConfiguration : (ensureJobConfiguration settings).run.Does c
    (Staged.From c fun _ r => ∃ secret, IsConfigSecret settings c secret ∧ SecretAsks secret r)
    (JobConfigurationEnds settings c) [] := by
  simp only [ensureJobConfiguration, Staged.does_bind, Staged.does_get]
  cases provider : c.scratch.provider with
  | none => exact .unresolved provider
  | some p =>
    simp only
    cases rendered : Rendering.configSecret c.resource p settings.namespaceName with
    | error e => exact .unrendered provider rendered
    | ok secret =>
      have made : IsConfigSecret settings c secret := ⟨p, provider, rendered⟩
      simp only [Staged.does_bind]
      refine does_ensureSecret.mono ?_ ?_
      · rintro own t r ⟨rfl, asks⟩
        exact ⟨rfl, secret, made, asks⟩
      · rintro own result t ⟨rfl, ends⟩
        exact .brought made ends

def IsConnectionSecret (c : ConfigurationCycle) (outputs secret : Secret) : Prop :=
  ∃ target, c.resource.spec.connectionSecret = some target ∧
    secret = Rendering.connectionSecret c.resource target.name
      ((target.namespaceName.or c.resource.metadata.namespaceName).getD "")
      (connectionData outputs)

inductive ConnectionAsks (settings : Settings) (c : ConfigurationCycle) :
    Surroundings.Request ConfigurationStore → Prop
  | outputs {uid : String} (owner : c.resource.ownerUid = .ok uid) :
      ConnectionAsks settings c
        (.store (.getSecret (SecretName.outputs uid) settings.namespaceName))
  | copy {outputs secret : Secret} {r : Surroundings.Request ConfigurationStore}
      (h : IsConnectionSecret c outputs secret) (asks : SecretAsks secret r) :
      ConnectionAsks settings c r

inductive ConnectionEnds (settings : Settings) (c : ConfigurationCycle) :
    Calls → Verdict → ConfigurationCycle → Prop
  | unwanted (h : c.resource.spec.connectionSecret = none) :
      ConnectionEnds settings c [] .proceed c
  | ownerless {e : Failure} (h : c.resource.ownerUid = .error e) :
      ConnectionEnds settings c [] (.stop e) c
  | unread {name : String} {e : Failure} :
      ConnectionEnds settings c [told (.getSecret name settings.namespaceName) (.error e)]
        (.stop e) c
  | waiting {target : SecretRef} {uid : String} {now : Instant}
      (wanted : c.resource.spec.connectionSecret = some target)
      (owner : c.resource.ownerUid = .ok uid) :
      ConnectionEnds settings c
        [told (.getSecret (SecretName.outputs uid) settings.namespaceName) (.ok none)]
        (.requeue outputsDelay) (c.markAt readyCondition .warning
          ("waiting for outputs secret " ++ SecretName.outputs uid) now).2
  | copied {uid : String} {outputs secret : Secret} {own : Calls} {result : Outcome Unit}
      (owner : c.resource.ownerUid = .ok uid) (h : IsConnectionSecret c outputs secret)
      (ends : SecretEnds secret own result) :
      ConnectionEnds settings c
        (told (.getSecret (SecretName.outputs uid) settings.namespaceName) (.ok (some outputs)) ::
          own) (verdictOf result) c

theorem does_ensureConnectionSecret : (ensureConnectionSecret settings).run.Does c
    (Staged.From c fun _ r => ConnectionAsks settings c r) (ConnectionEnds settings c) [] := by
  simp only [ensureConnectionSecret, Staged.does_bind, Staged.does_get]
  cases wanted : c.resource.spec.connectionSecret with
  | none => exact .unwanted wanted
  | some target =>
    simp only
    cases owner : c.resource.ownerUid with
    | error e => exact .ownerless owner
    | ok uid =>
      simp only [Staged.does_bind, does_getSecret]
      refine ⟨⟨rfl, .outputs owner⟩, fun answer => ?_⟩
      rcases answer with e | _ | outputs
      · exact .unread
      · simp only [Staged.does_bind, Staged.does_mark]
        exact fun now => .waiting wanted owner
      · simp only [Staged.does_bind]
        refine (does_ensureSecret.after _).mono ?_ ?_
        · rintro _ t r ⟨own, rfl, rfl, asks⟩
          exact ⟨rfl, .copy ⟨target, wanted, rfl⟩ asks⟩
        · rintro _ result t ⟨own, rfl, rfl, ends⟩
          exact .copied owner ⟨target, wanted, rfl⟩ ends

/-! ## What the status tells -/

theorem does_ensureNoPreviousGeneration : ensureNoPreviousGeneration.run.Does c
    (Staged.From c fun _ _ => False)
    (fun own verdict c' => own = [] ∧ verdict = .proceed ∧ c' = c) [] :=
  ⟨rfl, rfl, rfl⟩

def counted (c : ConfigurationCycle) (count : Nat) : ConfigurationCycle :=
  if (c.resource.status.getD {}).resources = some count then
    { c with resource := { c.resource with status := some (c.resource.status.getD {}) } }
  else
    { c with
      resource := { c.resource with
        status := some { c.resource.status.getD {} with resources := some count } }
      dirty := true }

theorem conditions_counted (count : Nat) : (counted c count).conditions = c.conditions := by
  unfold counted
  split <;> rfl

theorem events_counted (count : Nat) : (counted c count).events = c.events := by
  unfold counted
  split <;> rfl

theorem metadata_counted (count : Nat) :
    (counted c count).resource.metadata = c.resource.metadata := by
  unfold counted
  split <;> rfl

theorem spec_counted (count : Nat) : (counted c count).resource.spec = c.resource.spec := by
  unfold counted
  split <;> rfl

theorem scratch_counted (count : Nat) : (counted c count).scratch = c.scratch := by
  unfold counted
  split <;> rfl

inductive CountEnds (settings : Settings) (c : ConfigurationCycle) :
    Calls → Verdict → ConfigurationCycle → Prop
  | ownerless {e : Failure} (h : c.resource.ownerUid = .error e) :
      CountEnds settings c [] (.stop e) c
  | unread {uid : String} {e : Failure} (owner : c.resource.ownerUid = .ok uid) :
      CountEnds settings c
        [told (.getSecret (SecretName.outputs uid) settings.namespaceName) (.error e)] (.stop e) c
  | uncounted {uid : String} {outputs : Option Secret} (owner : c.resource.ownerUid = .ok uid)
      (h : outputs.bind resourceCount = none) :
      CountEnds settings c
        [told (.getSecret (SecretName.outputs uid) settings.namespaceName) (.ok outputs)]
        .proceed c
  | counted {uid : String} {outputs : Option Secret} {count : Nat}
      (owner : c.resource.ownerUid = .ok uid) (h : outputs.bind resourceCount = some count) :
      CountEnds settings c
        [told (.getSecret (SecretName.outputs uid) settings.namespaceName) (.ok outputs)]
        .proceed (counted c count)

theorem does_ensureResourceCount : (ensureResourceCount settings).run.Does c
    (Staged.From c fun _ r => ∃ uid, c.resource.ownerUid = .ok uid ∧
      r = .store (.getSecret (SecretName.outputs uid) settings.namespaceName))
    (CountEnds settings c) [] := by
  simp only [ensureResourceCount, Staged.does_bind, Staged.does_get]
  cases owner : c.resource.ownerUid with
  | error e => exact .ownerless owner
  | ok uid =>
    simp only [Staged.does_bind, does_getSecret]
    refine ⟨⟨rfl, uid, rfl, rfl⟩, fun answer => ?_⟩
    cases answer with
    | error e => exact .unread owner
    | ok outputs =>
      simp only
      cases count : outputs.bind resourceCount with
      | none => exact .uncounted owner count
      | some count' =>
        have ends : CountEnds settings c
            [told (.getSecret (SecretName.outputs uid) settings.namespaceName) (.ok outputs)]
            .proceed (counted c count') := .counted owner count
        simp only [Staged.does_bind, recordCount, Staged.does_get]
        unfold counted at ends
        split
        · rename_i same
          rw [if_pos same] at ends
          exact ends
        · rename_i differs
          rw [if_neg differs] at ends
          simp only [Staged.does_bind, Staged.does_log, Staged.does_set]
          exact ends

theorem does_ensureReady : ensureReady.run.Does c (Staged.From c fun _ _ => False)
    (fun own verdict c' => own = [] ∧ verdict = .proceed ∧
      ∃ now, c' = (c.markAt readyCondition .success "configuration is up to date" now).2)
    [] := by
  simp only [ensureReady, Staged.does_bind, Staged.does_mark]
  exact fun now => ⟨rfl, rfl, now, rfl⟩

/-! ## Tearing down -/

inductive DestroyAsks (settings : Settings) (c : ConfigurationCycle) :
    Calls → Surroundings.Request ConfigurationStore → Prop
  | state {uid : String} : DestroyAsks settings c []
      (.store (.getSecret (SecretName.state uid) settings.namespaceName))
  | stage {uid : String} {state : Secret} {own : Calls}
      {r : Surroundings.Request ConfigurationStore} (owner : c.resource.ownerUid = .ok uid)
      (asks : StageRun.destroy.Asks settings c own r) (kept : c.resource.isOrphaned = false) :
      DestroyAsks settings c
        (told (.getSecret (SecretName.state uid) settings.namespaceName) (.ok (some state)) :: own)
        r

inductive DestroyEnds (settings : Settings) (c : ConfigurationCycle) :
    Calls → Verdict → ConfigurationCycle → Prop
  | orphaned (h : c.resource.isOrphaned = true) : DestroyEnds settings c [] .proceed c
  | ownerless {e : Failure} (h : c.resource.ownerUid = .error e) :
      DestroyEnds settings c [] (.stop e) c
  | unread {uid : String} {e : Failure} :
      DestroyEnds settings c
        [told (.getSecret (SecretName.state uid) settings.namespaceName) (.error e)] (.stop e) c
  | stateless {uid : String} (owner : c.resource.ownerUid = .ok uid) :
      DestroyEnds settings c
        [told (.getSecret (SecretName.state uid) settings.namespaceName) (.ok none)] .proceed c
  | stage {uid : String} {state : Secret} {own : Calls} {verdict : Verdict}
      {c' : ConfigurationCycle} (owner : c.resource.ownerUid = .ok uid)
      (ends : StageRun.destroy.Ends settings c own verdict c') :
      DestroyEnds settings c
        (told (.getSecret (SecretName.state uid) settings.namespaceName) (.ok (some state)) :: own)
        verdict c'

theorem does_ensureDestroy : (ensureDestroy settings).run.Does c
    (Staged.From c (DestroyAsks settings c)) (DestroyEnds settings c) [] := by
  simp only [ensureDestroy, Staged.does_bind, Staged.does_get]
  by_cases orphaned : c.resource.isOrphaned = true
  · rw [if_pos orphaned]
    simp only [Staged.does_bind, Staged.does_log]
    exact .orphaned orphaned
  rw [if_neg orphaned]
  cases owner : c.resource.ownerUid with
  | error e => exact .ownerless owner
  | ok uid =>
    simp only [Staged.does_bind, does_getSecret]
    refine ⟨⟨rfl, .state⟩, fun answer => ?_⟩
    rcases answer with e | _ | state
    · exact .unread
    · simp only [Staged.does_bind, Staged.does_log]
      exact .stateless owner
    · refine (StageRun.does_run.after _).mono ?_ ?_
      · rintro _ t r ⟨own, rfl, rfl, asks⟩
        exact ⟨rfl, .stage owner asks (Bool.eq_false_iff.2 orphaned)⟩
      · rintro _ verdict t ⟨own, rfl, ends⟩
        exact .stage owner ends

inductive SecretsDeleted (ns : String) : List String → Calls → Outcome Unit → Prop
  | nil : SecretsDeleted ns [] [] (.ok ())
  | failed {name : String} {rest : List String} {e : Failure} :
      SecretsDeleted ns (name :: rest) [told (.deleteSecret name ns) (.error e)] (.error e)
  | deleted {name : String} {rest : List String} {existed : Bool} {own : Calls}
      {result : Outcome Unit} (later : SecretsDeleted ns rest own result) :
      SecretsDeleted ns (name :: rest) (told (.deleteSecret name ns) (.ok existed) :: own) result

theorem does_deleteSecrets {ns : String} (names : List String) :
    (deleteSecrets ns names).Does c
      (Staged.From c fun _ r => ∃ name ∈ names, r = .store (.deleteSecret name ns))
      (fun own result c' => c' = c ∧ SecretsDeleted ns names own result) [] := by
  induction names with
  | nil => exact ⟨rfl, .nil⟩
  | cons name rest ih =>
    simp only [deleteSecrets, Staged.does_bind, does_deleteSecret]
    refine ⟨⟨rfl, name, List.mem_cons_self .., rfl⟩, fun answer => ?_⟩
    have later : ∀ existed : Bool, (deleteSecrets ns rest).Does c
        (Staged.From c fun _ r => ∃ n ∈ name :: rest, r = .store (.deleteSecret n ns))
        (fun own result c' => c' = c ∧ SecretsDeleted ns (name :: rest) own result)
        [told (.deleteSecret name ns) (.ok existed)] := by
      intro existed
      refine (ih.after _).mono ?_ ?_
      · rintro _ t r ⟨own, rfl, rfl, n, hn, rfl⟩
        exact ⟨rfl, n, List.mem_cons_of_mem _ hn, rfl⟩
      · rintro _ result t ⟨own, rfl, rfl, deleted⟩
        exact ⟨rfl, .deleted deleted⟩
    rcases answer with e | _ | _
    · exact ⟨rfl, .failed⟩
    · exact later false
    · simp only [if_true, Staged.does_bind, Staged.does_log]
      exact later true

inductive CleanupAsks (settings : Settings) (c : ConfigurationCycle) :
    Surroundings.Request ConfigurationStore → Prop
  | secret {uid name : String} (owner : c.resource.ownerUid = .ok uid)
      (h : name ∈ generatedSecrets uid) :
      CleanupAsks settings c (.store (.deleteSecret name settings.namespaceName))
  | units {uid : String} (owner : c.resource.ownerUid = .ok uid) :
      CleanupAsks settings c (.store (.deleteUnits settings.namespaceName uid))

inductive CleanupEnds (settings : Settings) (c : ConfigurationCycle) :
    Calls → Verdict → ConfigurationCycle → Prop
  | ownerless {e : Failure} (h : c.resource.ownerUid = .error e) :
      CleanupEnds settings c [] (.stop e) c
  | secretFailed {uid : String} {own : Calls} {e : Failure}
      (deleted : SecretsDeleted settings.namespaceName (generatedSecrets uid) own (.error e)) :
      CleanupEnds settings c own (.stop e) c
  | unitsFailed {uid : String} {own : Calls} {e : Failure}
      (deleted : SecretsDeleted settings.namespaceName (generatedSecrets uid) own (.ok ())) :
      CleanupEnds settings c
        (own ++ [told (.deleteUnits settings.namespaceName uid) (.error e)]) (.stop e) c
  | removed {uid : String} {own : Calls} (owner : c.resource.ownerUid = .ok uid)
      (deleted : SecretsDeleted settings.namespaceName (generatedSecrets uid) own (.ok ())) :
      CleanupEnds settings c
        (own ++ [told (.deleteUnits settings.namespaceName uid) (.ok ())]) .proceed
        { c with scratch := { c.scratch with cleanedUp := true } }

theorem does_ensureConfigurationRemoved : (ensureConfigurationRemoved settings).run.Does c
    (Staged.From c fun _ r => CleanupAsks settings c r) (CleanupEnds settings c) [] := by
  simp only [ensureConfigurationRemoved, Staged.does_bind, Staged.does_get]
  cases owner : c.resource.ownerUid with
  | error e => exact .ownerless owner
  | ok uid =>
    simp only [Staged.does_bind]
    refine (does_deleteSecrets _).mono ?_ ?_
    · rintro own t r ⟨rfl, name, hn, rfl⟩
      exact ⟨rfl, .secret owner hn⟩
    · rintro own result t ⟨rfl, deleted⟩
      cases result with
      | error e => exact .secretFailed deleted
      | ok value =>
        simp only [Staged.does_bind, does_deleteUnits]
        refine ⟨⟨rfl, .units owner⟩, fun answer => ?_⟩
        cases answer with
        | error e => exact .unitsFailed deleted
        | ok value =>
          simp only [Staged.does_bind, does_setScratch]
          exact .removed owner deleted

end InfraOperator.Provisioning
