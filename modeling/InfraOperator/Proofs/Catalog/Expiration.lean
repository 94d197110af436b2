import InfraOperator.Catalog.Expiration
import InfraOperator.Proofs.Answering
import InfraOperator.Proofs.Versions

/-!
# Which revisions expire

A cycle of the expiration that is not cancelled, and whose listing and count succeed, deletes its
revision exactly if it has expired (`Expires`). It does so once, tells of it exactly if that
succeeded, and does nothing else that can be seen.
-/

set_option autoImplicit false

namespace InfraOperator.Catalog

inductive Deed where
  | deletes (name : String) (answer : Outcome Unit)
  | tells (notice : Notice)
  deriving DecidableEq

/-- A deletion that was given up shows too; whether it took place is not known. -/
def deeds : Answered (Supervised RevisionStore) → List Deed
  | ⟨.plain (.store (.deleteRevision name)), answer⟩ => [.deletes name answer]
  | ⟨.watched (.store (.deleteRevision name)), answer⟩ =>
    [.deletes name (answer.getD (.error .cancelled))]
  | ⟨.plain (.publish notice), _⟩ | ⟨.watched (.publish notice), _⟩ => [.tells notice]
  | _ => []

/-- What a cycle finds, and what comes of a deletion. -/
structure Inspection where
  now : Instant
  siblings : List Revision
  consumers : Nat
  deleted : Outcome Unit

def Inspection.Gives (found : Inspection) (r : Revision) :
    Answered (Supervised RevisionStore) → Prop
  | ⟨.cancelled, answer⟩ => answer = false
  | ⟨.plain .clock, answer⟩ => answer = found.now
  | ⟨.watched (.store (.listPlanRevisions plan)), answer⟩ =>
    plan = r.spec.planName → answer = some (.ok found.siblings)
  | ⟨.watched (.store (.countConsumers plan version)), answer⟩ =>
    plan = r.spec.planName → version = r.spec.version → answer = some (.ok found.consumers)
  | ⟨.watched (.store (.deleteRevision _)), answer⟩ => answer = some found.deleted
  | ⟨.watched _, answer⟩ => answer ≠ none
  | ⟨.plain _, _⟩ => True

def IsOlder (r : Revision) (maxAge : Span) (now : Instant) : Prop :=
  ∃ created, r.metadata.creationTimestamp = some created ∧
    created.sinceEpoch + maxAge.nanos < now.sinceEpoch

/-- The version of the revision is below the greatest of these revisions. Those without a version
do not count. -/
def IsBehind (r : Revision) (siblings : List Revision) : Prop :=
  ∃ own top, r.version? = some own ∧
    Version.IsGreatest top (siblings.filterMap Revision.version?) ∧ compare own top = .lt

structure Expires (settings : Settings) (r : Revision) (found : Inspection) : Prop where
  aged : ∃ maxAge, settings.expiration = some maxAge ∧ maxAge.isZero = false ∧
    IsOlder r maxAge found.now
  kept : r.metadata.isDeleting = false
  accompanied : 2 ≤ found.siblings.length
  behind : IsBehind r found.siblings
  unused : found.consumers = 0

def expiredNotice (r : Revision) : Notice :=
  { object := Resource.reference r
    warning := false
    reason := "RevisionExpired"
    action := "Delete"
    note := some ("revision " ++ r.spec.version ++ " of plan " ++ r.spec.planName ++
      " expired unused") }

def deletion (r : Revision) : Outcome Unit → List Deed
  | .ok () => [.deletes r.name (.ok ()), .tells (expiredNotice r)]
  | .error e => [.deletes r.name (.error e)]

theorem isExceeded_iff {own : Version} {versions : List Version} :
    isExceeded own versions = true ↔
      ∃ top, Version.IsGreatest top versions ∧ compare own top = .lt := by
  unfold isExceeded
  rw [List.any_eq_true]
  constructor
  · rintro ⟨v, hv, above⟩
    have above : compare own v = .lt := of_decide_eq_true above
    obtain ⟨top, greatest⟩ := Version.exists_isGreatest (List.ne_nil_of_mem hv)
    exact ⟨top, greatest, Version.lt_of_lt_of_not_lt above (greatest.upper v hv)⟩
  · rintro ⟨top, greatest, below⟩
    exact ⟨top, greatest.mem, decide_eq_true below⟩

theorem isBehind_iff {r : Revision} {siblings : List Revision} {own : Version}
    (versioned : r.version? = some own) :
    IsBehind r siblings ↔ isExceeded own (siblings.filterMap Revision.version?) = true := by
  rw [isExceeded_iff]
  constructor
  · rintro ⟨_, top, same, greatest, below⟩
    cases versioned.symm.trans same
    exact ⟨top, greatest, below⟩
  · rintro ⟨top, greatest, below⟩
    exact ⟨own, top, versioned, greatest, below⟩

theorem isOlder_iff {r : Revision} {maxAge : Span} {now created : Instant}
    (known : r.metadata.creationTimestamp = some created) :
    IsOlder r maxAge now ↔ ¬ now.since created ≤ maxAge := by
  have age : now.since created ≤ maxAge ↔
      (now.sinceEpoch - created.sinceEpoch).toNat ≤ maxAge.nanos := Iff.rfl
  rw [age]
  constructor
  · rintro ⟨_, same, older⟩
    cases known.symm.trans same
    omega
  · intro older
    exact ⟨created, known, by omega⟩

/-! ## The checks -/

abbrev ExpiryCycle := Cycle Revision ExpiryScratch

section Checks

variable {r : Revision} {found : Inspection} {c : ExpiryCycle} {past : List Deed}

abbrev Comes (r : Revision) (found : Inspection) {α : Type} (m : Run ExpiryScratch α)
    (c : ExpiryCycle) (ends : List Deed → α → ExpiryCycle → Prop) (past : List Deed) : Prop :=
  Staged.Returns (found.Gives r) deeds m c ends past

theorem comes_prompt {q : Surroundings.Request RevisionStore} (prompt : q.suspends = false)
    {ends : List Deed → Surroundings.Answer q → ExpiryCycle → Prop} :
    Comes r found (Staged.ask q) c ends past ↔
      ∀ answer, found.Gives r ⟨.plain q, answer⟩ → ends past answer c := by
  have silent : ∀ answer, deeds ⟨.plain q, answer⟩ = [] := by
    intro answer
    cases q <;> first | rfl | cases prompt
  refine (Staged.returns_ask_of_prompt prompt).trans ?_
  refine forall_congr' fun answer => imp_congr_right fun _ => ?_
  rw [silent answer, List.append_nil]

@[simp] theorem comes_clock {ends : List Deed → Instant → ExpiryCycle → Prop} :
    Comes r found Staged.clock c ends past ↔ ends past found.now c := by
  refine (comes_prompt rfl).trans ?_
  constructor
  · intro h
    exact h found.now rfl
  · rintro h _ rfl
    exact h

@[simp] theorem comes_measure {m : Measure} {ends : List Deed → Unit → ExpiryCycle → Prop} :
    Comes r found (Staged.measure m) c ends past ↔ ends past () c :=
  (comes_prompt rfl).trans ⟨fun h => h () trivial, fun h _ _ => h⟩

@[simp] theorem comes_log {level : LogLevel} {message : String}
    {fields : List (String × String)} {ends : List Deed → Unit → ExpiryCycle → Prop} :
    Comes r found (Staged.log level message fields) c ends past ↔ ends past () c :=
  (comes_prompt rfl).trans ⟨fun h => h () trivial, fun h _ _ => h⟩

@[simp] theorem comes_publish {notice : Notice} {ends : List Deed → Unit → ExpiryCycle → Prop} :
    Comes r found (Staged.publish notice) c ends past ↔ ends (past ++ [.tells notice]) () c := by
  refine (Staged.returns_ask_of_suspends rfl).trans ?_
  constructor
  · intro h
    obtain ⟨_, -, ended⟩ := h (some ()) nofun
    exact ended
  · intro h answer given
    cases answer with
    | none => exact absurd rfl given
    | some answer => exact ⟨(), rfl, h⟩

theorem comes_call (q : RevisionCall) {given : Outcome q.Answer} {shown : List Deed}
    (only : ∀ answer, found.Gives r ⟨.watched (.store q), answer⟩ ↔ answer = some given)
    (shows : deeds ⟨.watched (.store q), some given⟩ = shown)
    {ends : List Deed → Outcome q.Answer → ExpiryCycle → Prop} :
    Comes r found (call q) c ends past ↔ ends (past ++ shown) given c := by
  refine (Staged.returns_ask_of_suspends rfl).trans ?_
  subst shows
  constructor
  · intro h
    obtain ⟨_, same, ended⟩ := h (some given) ((only _).2 rfl)
    cases same
    exact ended
  · intro h answer gives
    cases (only answer).1 gives
    exact ⟨_, rfl, h⟩

@[simp] theorem comes_listPlanRevisions
    {ends : List Deed → Outcome (List Revision) → ExpiryCycle → Prop} :
    Comes r found (listPlanRevisions r.spec.planName) c ends past ↔
      ends past (.ok found.siblings) c := by
  refine (comes_call (.listPlanRevisions r.spec.planName)
    (fun _ => ⟨fun h => h rfl, fun h _ => h⟩) rfl).trans ?_
  exact Iff.of_eq (congrArg (ends · _ c) past.append_nil)

@[simp] theorem comes_countConsumers
    {ends : List Deed → Outcome Nat → ExpiryCycle → Prop} :
    Comes r found (countConsumers r.spec.planName r.spec.version) c ends past ↔
      ends past (.ok found.consumers) c := by
  refine (comes_call (.countConsumers r.spec.planName r.spec.version)
    (fun _ => ⟨fun h => h rfl rfl, fun h _ _ => h⟩) rfl).trans ?_
  exact Iff.of_eq (congrArg (ends · _ c) past.append_nil)

@[simp] theorem comes_deleteRevision {name : String}
    {ends : List Deed → Outcome Unit → ExpiryCycle → Prop} :
    Comes r found (deleteRevision name) c ends past ↔
      ends (past ++ [.deletes name found.deleted]) found.deleted c :=
  comes_call (.deleteRevision name) (fun _ => Iff.rfl) rfl

/-- Where it holds, the step proceeds and leaves the cycle so; else it pauses. It shows nothing. -/
def Checks (r : Revision) (found : Inspection) (step : RevisionStep ExpiryScratch)
    (c : ExpiryCycle) (holds : Prop) (c' : ExpiryCycle) : Prop :=
  ∀ past, Comes r found step.run c (fun shown verdict c'' => shown = past ∧
    ((holds ∧ verdict = .proceed ∧ c'' = c') ∨ (¬ holds ∧ verdict = .pause))) past

theorem checks_age {maxAge : Span} :
    Checks c.resource found (checkExpiryAge maxAge) c (IsOlder c.resource maxAge found.now) c := by
  intro past
  simp only [checkExpiryAge, Staged.returns_bind, Staged.returns_get]
  split
  · next unknown =>
    refine Staged.returns_pure.2 ⟨rfl, .inr ⟨?_, rfl⟩⟩
    rintro ⟨created, known, -⟩
    cases unknown.symm.trans known
  · next created known =>
    rw [isOlder_iff known]
    simp only [Staged.returns_bind, comes_clock]
    split
    · next young => exact Staged.returns_pure.2 ⟨rfl, .inr ⟨not_not_intro young, rfl⟩⟩
    · next late => exact Staged.returns_pure.2 ⟨rfl, .inl ⟨late, rfl, rfl⟩⟩

theorem checks_siblings :
    Checks c.resource found checkSiblings c (2 ≤ found.siblings.length)
      { c with scratch := { siblings := found.siblings } } := by
  intro past
  simp only [checkSiblings, Staged.returns_bind, Staged.returns_get, comes_listPlanRevisions]
  split
  · next few =>
    simp only [Staged.returns_bind, comes_log]
    exact Staged.returns_pure.2 ⟨rfl, .inr ⟨Nat.not_le_of_lt few, rfl⟩⟩
  · next enough =>
    simp only [Staged.returns_bind, Staged.returns_modify]
    exact Staged.returns_pure.2 ⟨rfl, .inl ⟨Nat.le_of_not_lt enough, rfl, rfl⟩⟩

theorem checks_notLatest :
    Checks c.resource found checkNotLatest c (IsBehind c.resource c.scratch.siblings) c := by
  intro past
  simp only [checkNotLatest, Staged.returns_bind, Staged.returns_get]
  split
  · next unversioned =>
    refine Staged.returns_pure.2 ⟨rfl, .inr ⟨?_, rfl⟩⟩
    rintro ⟨_, _, versioned, -⟩
    cases unversioned.symm.trans versioned
  · next own versioned =>
    rw [isBehind_iff versioned]
    split
    · next exceeded => exact Staged.returns_pure.2 ⟨rfl, .inl ⟨exceeded, rfl, rfl⟩⟩
    · next latest => exact Staged.returns_pure.2 ⟨rfl, .inr ⟨latest, rfl⟩⟩

theorem checks_notInUse :
    Checks c.resource found checkNotInUse c (found.consumers = 0) c := by
  intro past
  simp only [checkNotInUse, Staged.returns_bind, Staged.returns_get, comes_countConsumers]
  split
  · next unused => exact Staged.returns_pure.2 ⟨rfl, .inl ⟨unused, rfl, rfl⟩⟩
  · next used =>
    simp only [Staged.returns_bind, comes_log]
    exact Staged.returns_pure.2 ⟨rfl, .inr ⟨used, rfl⟩⟩

theorem comes_deleteExpired :
    Comes c.resource found deleteExpired.run c
      (fun shown _ _ => shown = past ++ deletion c.resource found.deleted) past := by
  simp only [deleteExpired, Staged.returns_bind, Staged.returns_get, comes_deleteRevision]
  cases found.deleted with
  | error e => exact Staged.returns_pure.2 rfl
  | ok value =>
    simp only [Staged.returns_bind, comes_log, comes_measure, comes_publish]
    refine Staged.returns_pure.2 ?_
    rw [List.append_assoc]
    rfl

/-! ## A whole cycle -/

def Decides (r : Revision) (found : Inspection) (expired : Prop) (shown : List Deed) : Prop :=
  (expired → shown = deletion r found.deleted) ∧ (¬ expired → shown = [])

theorem undisturbed_gives : Pipeline.Undisturbed (found.Gives r) deeds where
  free _ given := given
  look _ := rfl
  line _ _ := rfl

theorem decides_check {step : RevisionStep ExpiryScratch} {holds later : Prop} {c' : ExpiryCycle}
    (checks : Checks r found step c holds c') {name : String}
    {rest : List (RevisionStep ExpiryScratch)}
    (decides : holds → (Pipeline.runSteps name rest c').Along (found.Gives r) deeds
      (fun shown _ => Decides r found later shown) []) :
    (Pipeline.runSteps name (step :: rest) c).Along (found.Gives r) deeds
      (fun shown _ => Decides r found (holds ∧ later) shown) [] := by
  refine Pipeline.along_runSteps_cons undisturbed_gives ((checks []).mono ?_)
  rintro _ verdict _ ⟨rfl, ⟨h, rfl, rfl⟩ | ⟨h, rfl⟩⟩
  · refine ⟨fun _ => (decides h).mono ?_, nofun⟩
    rintro shown _ ⟨expired, kept⟩
    exact ⟨fun all => expired all.2, fun part => kept fun behind => part ⟨h, behind⟩⟩
  · exact ⟨nofun, fun _ _ => ⟨fun all => absurd all.1 h, fun _ => rfl⟩⟩

theorem decides_deleteExpired {name : String} :
    (Pipeline.runSteps name [deleteExpired] c).Along (found.Gives c.resource) deeds
      (fun shown _ => Decides c.resource found True shown) [] := by
  refine Pipeline.along_runSteps_cons undisturbed_gives (comes_deleteExpired.mono ?_)
  rintro _ verdict c' rfl
  have decided : Decides c.resource found True ([] ++ deletion c.resource found.deleted) :=
    ⟨fun _ => rfl, fun impossible => absurd trivial impossible⟩
  exact ⟨fun _ => decided, fun _ _ => decided⟩

theorem decides_listed {name : String} :
    (Pipeline.runSteps name [checkNotLatest, checkNotInUse, deleteExpired] c).Along
      (found.Gives c.resource) deeds (fun shown _ => Decides c.resource found
        (IsBehind c.resource c.scratch.siblings ∧ found.consumers = 0 ∧ True) shown) [] := by
  refine decides_check checks_notLatest fun _ => ?_
  refine decides_check checks_notInUse fun _ => ?_
  exact decides_deleteExpired

theorem decides_expirationSteps {name : String} {maxAge : Span} :
    (Pipeline.runSteps name (expirationSteps maxAge) c).Along (found.Gives c.resource) deeds
      (fun shown _ => Decides c.resource found (IsOlder c.resource maxAge found.now ∧
        2 ≤ found.siblings.length ∧ IsBehind c.resource found.siblings ∧ found.consumers = 0 ∧ True)
        shown) [] := by
  refine decides_check checks_age fun _ => ?_
  refine decides_check checks_siblings fun _ => ?_
  exact decides_listed (c := { c with scratch := { siblings := found.siblings } })

theorem build_expirationSteps (maxAge : Span) :
    ∃ p : Pipeline RevisionStore Revision ExpiryScratch,
      Pipeline.build "revision-expiration" (expirationSteps maxAge) = .ok p ∧
        p.steps = expirationSteps maxAge := ⟨_, rfl, rfl⟩

theorem decides_reconcileExpiration {settings : Settings} :
    (reconcileExpiration settings r).Along (found.Gives r) deeds
      (fun shown _ => Decides r found (Expires settings r found) shown) [] := by
  unfold reconcileExpiration
  cases threshold : settings.expiration with
  | none =>
    refine ⟨fun expired => ?_, fun _ => rfl⟩
    obtain ⟨maxAge, set, -⟩ := expired.aged
    cases threshold.symm.trans set
  | some maxAge =>
    simp only
    split
    · next off =>
      refine ⟨fun expired => ?_, fun _ => rfl⟩
      obtain ⟨_, set, positive, -⟩ := expired.aged
      cases threshold.symm.trans set
      rcases off with zero | deleting
      · cases positive.symm.trans zero
      · cases expired.kept.symm.trans deleting
    · next on =>
      obtain ⟨p, built, steps⟩ := build_expirationSteps maxAge
      simp only [built]
      refine Program.along_bind.2 ?_
      unfold Pipeline.run
      rw [steps]
      refine (decides_expirationSteps (c := Cycle.start r {})).mono ?_
      rintro shown ⟨result, c'⟩ ⟨expired, kept⟩
      have decided : Decides r found (Expires settings r found) shown := by
        constructor
        -- The steps decide what the settings and the revision alone have left open.
        · intro all
          obtain ⟨_, set, -, older⟩ := all.aged
          cases threshold.symm.trans set
          exact expired ⟨older, all.accompanied, all.behind, all.unused, trivial⟩
        · intro part
          refine kept fun ⟨older, accompanied, behind, unused, _⟩ => part ?_
          have on := not_or.1 on
          exact ⟨⟨maxAge, threshold, Bool.eq_false_iff.2 on.1, older⟩, Bool.eq_false_iff.2 on.2,
            accompanied, behind, unused⟩
      cases result <;> exact decided

theorem exists_gives (found : Inspection) (r : Revision)
    (q : Supervised.Request RevisionStore) : ∃ answer, found.Gives r ⟨q, answer⟩ := by
  cases q with
  | cancelled => exact ⟨false, rfl⟩
  | plain q =>
    cases q with
    | store call => exact ⟨.error .cancelled, trivial⟩
    | clock => exact ⟨found.now, rfl⟩
    | publish | measure | log | wait => exact ⟨(), trivial⟩
  | watched q =>
    cases q with
    | store call =>
      cases call with
      | listPlanRevisions plan => exact ⟨some (.ok found.siblings), fun _ => rfl⟩
      | countConsumers plan version => exact ⟨some (.ok found.consumers), fun _ _ => rfl⟩
      | deleteRevision name => exact ⟨some found.deleted, rfl⟩
      | _ => exact ⟨some (.error .cancelled), nofun⟩
    | clock => exact ⟨some found.now, nofun⟩
    | publish | measure | log | wait => exact ⟨some (), nofun⟩

end Checks

end InfraOperator.Catalog
