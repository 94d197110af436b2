import InfraOperator.Proofs.Catalog.Deletions
import Mathlib.Data.List.Nodup

/-!
# Which revisions survive

A history of the stored revisions is made of cycles of the expiration, of deletions that users ask
for, and of finalizers that are released. A cycle may have read its revision, and have been told of
the others, at any time before. Where nobody else deletes any, those with the greatest version of
their plan survive every history.
-/

set_option autoImplicit false

namespace InfraOperator.Catalog

/-! ## What is stored -/

def identity (r : Revision) : String × RevisionSpec := (r.name, r.spec)

def isHeld (r : Revision) : Bool := r.metadata.finalizers.getD [] ≠ []

def condemned (time : Instant) (r : Revision) : Revision :=
  { r with metadata :=
    { r.metadata with deletionTimestamp := r.metadata.deletionTimestamp.or (some time) } }

def delete (name : String) (time : Instant) (stored : List Revision) : List Revision :=
  stored.filterMap fun r =>
    if r.name = name then if isHeld r then some (condemned time r) else none else some r

def release (name : String) (stored : List Revision) : List Revision :=
  stored.filter fun r => ¬ (r.name = name ∧ r.metadata.isDeleting)

/-- What a deletion may leave, by its answer; one that failed may have been carried out. -/
inductive Deletes (name : String) (stored : List Revision) : Outcome Unit → List Revision → Prop
  | carried (answer : Outcome Unit) (time : Instant) :
      Deletes name stored answer (delete name time stored)
  | refused (e : Failure) : Deletes name stored (.error e) stored

inductive Leaves : List Deed → List Revision → List Revision → Prop
  | nil (stored : List Revision) : Leaves [] stored stored
  | deletes {name : String} {answer : Outcome Unit} {rest : List Deed}
      {stored between after : List Revision} (deleted : Deletes name stored answer between)
      (later : Leaves rest between after) : Leaves (.deletes name answer :: rest) stored after
  | tells {notice : Notice} {rest : List Deed} {stored after : List Revision}
      (later : Leaves rest stored after) : Leaves (.tells notice :: rest) stored after

variable {name : String} {time : Instant} {stored after : List Revision} {r : Revision}
  {ds : List Deed}

theorem identities_delete :
    ((delete name time stored).map identity).Sublist (stored.map identity) := by
  induction stored with
  | nil => exact List.Sublist.refl _
  | cons r rest ih =>
    unfold delete at ih ⊢
    rw [List.filterMap_cons]
    split
    · exact ih.cons _
    · next kept found =>
      have same : identity kept = identity r := by
        split at found
        · split at found
          · cases found
            rfl
          · cases found
        · cases found
          rfl
      rw [List.map_cons, List.map_cons, same]
      exact ih.cons_cons _

theorem identities_release :
    ((release name stored).map identity).Sublist (stored.map identity) :=
  List.filter_sublist.map identity

theorem mem_delete_of_ne (h : r ∈ stored) (other : r.name ≠ name) :
    r ∈ delete name time stored :=
  List.mem_filterMap.2 ⟨r, h, if_neg other⟩

theorem mem_release_of_kept (h : r ∈ stored) (kept : r.metadata.isDeleting = false) :
    r ∈ release name stored := by
  refine List.mem_filter.2 ⟨h, decide_eq_true ?_⟩
  rintro ⟨-, deleting⟩
  cases kept.symm.trans deleting

theorem Leaves.identities (h : Leaves ds stored after) :
    (after.map identity).Sublist (stored.map identity) := by
  induction h with
  | nil stored => exact List.Sublist.refl _
  | deletes deleted _ ih =>
    cases deleted with
    | carried answer time => exact ih.trans identities_delete
    | refused e => exact ih
  | tells _ ih => exact ih

theorem Leaves.kept (h : Leaves ds stored after)
    (spared : ∀ name answer, .deletes name answer ∈ ds → r.name ≠ name) (before : r ∈ stored) :
    r ∈ after := by
  induction h with
  | nil stored => exact before
  | deletes deleted _ ih =>
    have other := spared _ _ (List.mem_cons_self ..)
    have later := ih fun name answer h => spared name answer (List.mem_cons_of_mem _ h)
    cases deleted with
    | carried answer time => exact later (mem_delete_of_ne before other)
    | refused e => exact later before
  | tells _ ih =>
    exact ih (fun name answer h => spared name answer (List.mem_cons_of_mem _ h)) before

/-! ## Histories -/

/-- What a cycle has read as its revision, and been told by its calls, where this has been stored so
far, the latest state first. -/
abbrev Sight := List (List Revision) → Revision → CatalogCalls → Prop

def Lately : Sight := fun history r calls =>
  (∃ state ∈ history, r ∈ state) ∧ ∀ plan siblings, listed plan siblings ∈ calls →
    ∀ s ∈ siblings, s.spec.planName = plan ∧ ∃ state ∈ history, s ∈ state

def Fresh (stored : List Revision) (calls : CatalogCalls) : Prop :=
  ∀ plan siblings, listed plan siblings ∈ calls →
    siblings = stored.filter (·.spec.planName = plan)

def Promptly : Sight
  | stored :: _, r, calls => r ∈ stored ∧ Fresh stored calls
  | [], _, _ => False

theorem Promptly.lately {history : List (List Revision)} {calls : CatalogCalls}
    (h : Promptly history r calls) : Lately history r calls := by
  cases history with
  | nil => cases h
  | cons stored past =>
    obtain ⟨read, fresh⟩ := h
    refine ⟨⟨stored, List.mem_cons_self .., read⟩, fun plan siblings shown s hs => ?_⟩
    rw [fresh plan siblings shown] at hs
    obtain ⟨mem, inPlan⟩ := List.mem_filter.1 hs
    exact ⟨of_decide_eq_true inPlan, stored, List.mem_cons_self .., mem⟩

/-- What has been stored so far, the latest state first, where cycles see this of it, and users may
ask to delete a revision by its name if `requested` holds of what is stored. -/
inductive Course (settings : Settings) (requested : List Revision → String → Prop) (sight : Sight)
    (first : List Revision) : List (List Revision) → Prop
  | start (distinct : (first.map Revision.name).Nodup) :
      Course settings requested sight first [first]
  | cycle {r : Revision} {stored after : List Revision} {past : List (List Revision)}
      {run : List (Answered (Supervised RevisionStore))}
      {rest : Program (Supervised RevisionStore) (Outcome Action)}
      (before : Course settings requested sight first (stored :: past))
      (reached : (reconcileExpiration settings r).Reaches run rest)
      (sees : sight (stored :: past) r (run.flatMap Supervised.calls))
      (leaves : Leaves (run.flatMap deeds) stored after) :
      Course settings requested sight first (after :: stored :: past)
  | request {stored : List Revision} {past : List (List Revision)} {name : String}
      (before : Course settings requested sight first (stored :: past))
      (asked : requested stored name) (time : Instant) :
      Course settings requested sight first (delete name time stored :: stored :: past)
  | release {stored : List Revision} {past : List (List Revision)}
      (before : Course settings requested sight first (stored :: past)) (name : String) :
      Course settings requested sight first (release name stored :: stored :: past)

section Course

variable {settings : Settings} {requested : List Revision → String → Prop} {sight : Sight}
  {first : List Revision} {history : List (List Revision)}

theorem Course.distinct (h : Course settings requested sight first history) :
    (first.map Revision.name).Nodup := by
  induction h with
  | start distinct => exact distinct
  | cycle _ _ _ _ ih => exact ih
  | request _ _ _ ih => exact ih
  | release _ _ ih => exact ih

/-- Nothing is stored that was not stored first. -/
theorem Course.identities (h : Course settings requested sight first history) :
    ∀ state ∈ history, (state.map identity).Sublist (first.map identity) := by
  induction h with
  | start => simp
  | cycle _ _ _ leaves ih =>
    have before := ih _ (List.mem_cons_self ..)
    exact List.forall_mem_cons.2 ⟨leaves.identities.trans before, ih⟩
  | request _ _ _ ih =>
    have before := ih _ (List.mem_cons_self ..)
    exact List.forall_mem_cons.2 ⟨identities_delete.trans before, ih⟩
  | release _ _ ih =>
    have before := ih _ (List.mem_cons_self ..)
    exact List.forall_mem_cons.2 ⟨identities_release.trans before, ih⟩

theorem Course.exists_first (h : Course settings requested sight first history)
    {state : List Revision} (hs : state ∈ history) {s : Revision} (mem : s ∈ state) :
    ∃ r ∈ first, r.name = s.name ∧ r.spec = s.spec := by
  have within := (h.identities state hs).subset (List.mem_map_of_mem mem)
  obtain ⟨r, hr, same⟩ := List.mem_map.1 within
  exact ⟨r, hr, congrArg Prod.fst same, congrArg Prod.snd same⟩

/-! ## The latest revisions -/

def versions (plan : String) (stored : List Revision) : List Version :=
  (stored.filter (·.spec.planName = plan)).filterMap Revision.version?

def IsLatest (r : Revision) (stored : List Revision) : Prop :=
  ∃ top, r.version? = some top ∧ Version.IsGreatest top (versions r.spec.planName stored)

theorem version?_congr {r s : Revision} (same : r.spec = s.spec) : r.version? = s.version? := by
  rw [Revision.version?, Revision.version?, same]

theorem mem_versions {s : Revision} {plan : String} {v : Version} (h : s ∈ stored)
    (inPlan : s.spec.planName = plan) (versioned : s.version? = some v) :
    v ∈ versions plan stored :=
  List.mem_filterMap.2 ⟨s, List.mem_filter.2 ⟨h, decide_eq_true inPlan⟩, versioned⟩

/-- The latest revision is not behind in a listing of what was stored at some time. -/
theorem Course.not_isBehind (h : Course settings requested sight first history)
    (latest : IsLatest r first) {q : Revision} (same : q.spec = r.spec) {calls : CatalogCalls}
    (sees : Lately history q calls) {siblings : List Revision}
    (shown : listed q.spec.planName siblings ∈ calls) : ¬ IsBehind q siblings := by
  rintro ⟨own, above, versioned, greatest, below⟩
  obtain ⟨top, topped, upper⟩ := latest
  obtain ⟨s, hs, named⟩ := List.mem_filterMap.1 greatest.mem
  obtain ⟨inPlan, state, hstate, mem⟩ := sees.2 _ siblings shown s hs
  -- However old the listing is, what exceeds the revision in it was stored first, too.
  obtain ⟨o, ho, -, origin⟩ := h.exists_first hstate mem
  have stored : above ∈ versions r.spec.planName first := by
    apply mem_versions ho
    · rw [origin, inPlan, same]
    · rw [version?_congr origin, named]
  cases (version?_congr same).symm.trans versioned |>.symm.trans topped
  exact upper.upper above stored below

/-- What users leave alone stays what it was, if it was not being deleted and is the latest. -/
theorem Course.survives (h : Course settings requested Lately first history)
    (spared : ∀ stored, ¬ requested stored r.name) (mem : r ∈ first)
    (live : r.metadata.isDeleting = false) (latest : IsLatest r first) :
    ∀ state ∈ history, r ∈ state := by
  induction h with
  | start distinct => simpa using mem
  | @cycle q _ _ _ _ _ before reached sees leaves ih =>
    refine List.forall_mem_cons.2 ⟨leaves.kept ?_ (ih _ (List.mem_cons_self ..)), ih⟩
    rintro name answer deletes rfl
    obtain ⟨same, -, siblings, shown, behind⟩ := judged_of_deletes reached deletes
    -- The cycle may be over an older state of the revision: names tell that it is the same one.
    obtain ⟨state, hstate, hq⟩ := sees.1
    obtain ⟨o, ho, named, origin⟩ := before.exists_first hstate hq
    obtain rfl : o = r := List.inj_on_of_nodup_map before.distinct ho mem (named.trans same.symm)
    exact before.not_isBehind latest origin.symm sees shown behind
  | request before asked time ih =>
    refine List.forall_mem_cons.2 ⟨mem_delete_of_ne (ih _ (List.mem_cons_self ..)) ?_, ih⟩
    rintro rfl
    exact spared _ asked
  | release before name ih =>
    exact List.forall_mem_cons.2 ⟨mem_release_of_kept (ih _ (List.mem_cons_self ..)) live, ih⟩

/-- A cycle that is inspected comes to an end; it deletes its revision and tells of it if that has
expired, and does neither if not. And whatever cycles are run over what has been stored, the latest
revisions stay what they were, if they were not being deleted and users leave them alone. -/
theorem expiration_exact (settings : Settings) :
    (∀ (r : Revision) (found : Inspection),
      (∃ run outcome, (reconcileExpiration settings r).Reaches run (.done outcome) ∧
        ∀ e ∈ run, found.Gives r e) ∧
      ∀ run outcome, (reconcileExpiration settings r).Reaches run (.done outcome) →
        (∀ e ∈ run, found.Gives r e) →
        (Expires settings r found → run.flatMap deeds = deletion r found.deleted) ∧
        (¬ Expires settings r found → run.flatMap deeds = [])) ∧
    ∀ requested first history, Course settings requested Lately first history → ∀ r ∈ first,
      (∀ stored, ¬ requested stored r.name) → r.metadata.isDeleting = false → IsLatest r first →
      ∀ state ∈ history, r ∈ state := by
  constructor
  · intro r found
    constructor
    · exact Program.exists_end_of_total _ (exists_gives found r)
    · intro run outcome reached given
      have decided := decides_reconcileExpiration.ended reached given
      rwa [List.nil_append] at decided
  · intro requested first history course r mem spared live latest
    exact course.survives spared mem live latest

end Course

def standing (stored : List Revision) (now : Instant) :
    (q : Supervised.Request RevisionStore) → Supervised.Answer q
  | .watched (.store (.listPlanRevisions plan)) =>
    some (.ok (stored.filter (·.spec.planName = plan)))
  | .watched (.store (.countConsumers _ _)) => some (.ok (0 : Nat))
  | .watched (.store (.deleteRevision _)) => some (.ok ())
  | .watched (.store _) => some (.error .notFound)
  | .plain (.store _) => .error .notFound
  | .cancelled => false
  | .watched .clock => some now
  | .plain .clock => now
  | .watched (.publish _) | .watched (.measure _) => some ()
  | .watched (.log _) | .watched (.wait _) => some ()
  | .plain (.publish _) | .plain (.measure _) | .plain (.log _) | .plain (.wait _) => ()

theorem fresh_standing {now : Instant}
    (p : Program (Supervised RevisionStore) (Outcome Action)) :
    Fresh stored ((p.follow (standing stored now)).flatMap Supervised.calls) := by
  intro plan siblings shown
  obtain ⟨e, he, shown⟩ := List.mem_flatMap.1 shown
  rw [Program.eq_of_mem_follow he] at shown
  generalize e.request = q at shown
  cases q with
  | cancelled => cases shown
  | plain q =>
    cases q with
    | store call => cases List.mem_singleton.1 shown
    | _ => cases shown
  | watched q =>
    cases q with
    | store call =>
      cases call with
      | listPlanRevisions plan' =>
        cases List.mem_singleton.1 shown
        rfl
      | _ => cases List.mem_singleton.1 shown
    | _ => cases shown

def aged (name version : String) (finalizers deleting : Bool) : Revision :=
  { metadata :=
      { name := some name
        creationTimestamp := some (.ofSeconds 0)
        finalizers := if finalizers then some [cleanupFinalizer] else none
        deletionTimestamp := if deleting then some (.ofSeconds 86400) else none }
    spec :=
      { planName := "net"
        version
        configuration := { module := "m", providerName := "aws" } } }

def lower : Revision := aged "net-1.0.0" "1.0.0" false false

def upper : Revision := aged "net-2.0.0" "2.0.0" false false

def weekly : Settings := { expiration := some (.ofSeconds 604800) }

def laterDay : Instant := .ofSeconds 2592000

def cycleOf (r : Revision) (stored : List Revision) : List (Answered (Supervised RevisionStore)) :=
  (reconcileExpiration weekly r).follow (standing stored laterDay)

theorem reaches_cycleOf (r : Revision) (stored : List Revision) : ∃ outcome,
    (reconcileExpiration weekly r).Reaches (cycleOf r stored) (.done outcome) :=
  ⟨_, Program.reaches_follow ..⟩

theorem promptly_cycleOf (read : r ∈ stored) (past : List (List Revision)) :
    Promptly (stored :: past) r ((cycleOf r stored).flatMap Supervised.calls) :=
  ⟨read, fresh_standing _⟩

theorem versions_lower_upper : versions "net" [lower, upper] =
    [⟨1, 0, 0, [], []⟩, ⟨2, 0, 0, [], []⟩] := by
  decide +kernel

theorem version?_lower : lower.version? = some ⟨1, 0, 0, [], []⟩ := by decide +kernel

theorem version?_upper : upper.version? = some ⟨2, 0, 0, [], []⟩ := by decide +kernel

theorem isLatest_upper : IsLatest upper [lower, upper] := by
  refine ⟨_, version?_upper, ?_⟩
  rw [show versions upper.spec.planName [lower, upper] = _ from versions_lower_upper]
  exact ⟨by decide, by decide⟩

theorem start_lower_upper {requested : List Revision → String → Prop} {sight : Sight} :
    Course weekly requested sight [lower, upper] [[lower, upper]] :=
  .start (by decide)

theorem deletes_lower :
    (cycleOf lower [lower, upper]).flatMap deeds = deletion lower (.ok ()) := by
  decide +kernel

theorem leaves_lower :
    Leaves ((cycleOf lower [lower, upper]).flatMap deeds) [lower, upper] [upper] := by
  rw [deletes_lower]
  exact .deletes (.carried _ laterDay) (.tells (.nil _))

def foundOn (r : Revision) (stored : List Revision) : Inspection :=
  ⟨laterDay, stored.filter (·.spec.planName = r.spec.planName), 0, .ok ()⟩

theorem gives_foundOn : ∀ e ∈ cycleOf r stored, (foundOn r stored).Gives r e := by
  intro e he
  rw [Program.eq_of_mem_follow he]
  cases e.request with
  | cancelled => rfl
  | plain q =>
    cases q with
    | clock => rfl
    | _ => trivial
  | watched q =>
    cases q with
    | store call =>
      cases call with
      | listPlanRevisions plan =>
        rintro rfl
        rfl
      | countConsumers plan version => exact fun _ _ => rfl
      | deleteRevision name => rfl
      | _ => exact nofun
    | _ => exact nofun

/-- Of two old revisions that nobody uses the lower one is deleted, and the other one stays. -/
theorem expiration_exact_twoVersions :
    (cycleOf lower [lower, upper]).flatMap deeds = deletion lower (.ok ()) ∧
    (cycleOf upper [lower, upper]).flatMap deeds = [] ∧
    ∀ state ∈ [[upper], [lower, upper]], upper ∈ state := by
  obtain ⟨decides, survive⟩ := expiration_exact weekly
  have expired : Expires weekly lower (foundOn lower [lower, upper]) :=
    { aged := ⟨_, rfl, by decide, .ofSeconds 0, rfl, by decide⟩
      kept := rfl
      accompanied := by decide
      behind := (isBehind_iff version?_lower).2 (by decide +kernel)
      unused := rfl }
  have latest : ¬ Expires weekly upper (foundOn upper [lower, upper]) := by
    intro expired
    have exceeded := (isBehind_iff version?_upper).1 expired.behind
    exact absurd exceeded (by decide +kernel)
  obtain ⟨outcome, lowered⟩ := reaches_cycleOf lower [lower, upper]
  obtain ⟨outcome', uppered⟩ := reaches_cycleOf upper [lower, upper]
  refine ⟨((decides lower _).2 _ _ lowered gives_foundOn).1 expired,
    ((decides upper _).2 _ _ uppered gives_foundOn).2 latest, ?_⟩
  have course : Course weekly (fun _ _ => False) Lately [lower, upper] [[upper], [lower, upper]] :=
    start_lower_upper.cycle lowered (promptly_cycleOf (List.mem_cons_self ..) []).lately
      leaves_lower
  exact survive _ _ _ course upper (by simp) (fun _ => id) rfl isLatest_upper

end InfraOperator.Catalog
