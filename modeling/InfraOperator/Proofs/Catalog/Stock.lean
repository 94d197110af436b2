import InfraOperator.Proofs.Catalog.Alone
import InfraOperator.Proofs.Catalog.Survival

/-!
# Stocks of revisions and plans

Users create revisions, edit and delete them, and cycles run over them one at a time, alone on the
plans. A stock is what is stored after that: the revisions and the plans, and with them what has
been edited and over which revisions a cycle has succeeded since.
-/

set_option autoImplicit false

namespace InfraOperator.Catalog

structure Stock where
  revisions : List Revision
  plans : Plans
  /-- What was stored of plans before. -/
  past : List Plans := []
  /-- The names of the revisions over which a cycle has succeeded that counts, since they were last
  created, edited or deleted. -/
  settled : List String := []
  /-- The revisions that were edited, as they were and as they became. -/
  edits : List (Revision × Revision) := []

abbrev Held (r : Revision) : Prop := r.metadata.hasFinalizer cleanupFinalizer = true

def put (name : String) (after : Option Revision) (stored : List Revision) : List Revision :=
  stored.filterMap fun r => if r.name = name then after else some r

/-- An edit changes neither the name of a revision nor how it is held and deleted. -/
structure Edited (r after : Revision) : Prop where
  name : after.name = r.name
  deleting : after.metadata.isDeleting = r.metadata.isDeleting
  held : Held after ↔ Held r

def afterDelete (time : Instant) (r : Revision) : Option Revision :=
  if isHeld r then some (condemned time r) else none

def holdCall (r : Revision) : RevisionCall := .addFinalizer r.name cleanupFinalizer

def isHold (r : Revision) : RevisionCall → Bool
  | .addFinalizer name finalizer => name = r.name ∧ finalizer = cleanupFinalizer
  | _ => false

def withHold (r : Revision) : Revision :=
  { r with metadata := { r.metadata with finalizers := some [cleanupFinalizer] } }

/-- What is left of a revision after a cycle that has made these calls. The finalizer comes and goes
where that was asked for and, for certain, where that was acknowledged; a revision that is being
deleted may be gone then. -/
inductive Treated (r : Revision) (calls : PlanCalls) : Option Revision → Prop
  | stored {after : Revision} (name : after.name = r.name) (spec : after.spec = r.spec)
      (deleting : after.metadata.isDeleting = r.metadata.isDeleting)
      (lost : Held r → ¬ Held after → AsksRelease r calls)
      (released : Released r calls → ¬ Held after)
      (gained : Held after → Held r ∨ ∃ call ∈ calls, call.request = holdCall r)
      (added : answered (holdCall r) (.ok ()) ∈ calls → Held after) :
      Treated r calls (some after)
  | gone (deleting : r.metadata.isDeleting = true) (asked : AsksRelease r calls) :
      Treated r calls none

namespace Stock

def unsettled (s : Stock) (name : String) : List String := s.settled.filter (· ≠ name)

def create (s : Stock) (r : Revision) : Stock :=
  { s with revisions := r :: s.revisions, settled := s.unsettled r.name }

def edit (s : Stock) (r after : Revision) : Stock :=
  { s with
    revisions := put r.name (some after) s.revisions
    settled := s.unsettled r.name
    edits := (r, after) :: s.edits }

def delete (s : Stock) (r : Revision) (time : Instant) : Stock :=
  { s with
    revisions := put r.name (afterDelete time r) s.revisions
    settled := s.unsettled r.name }

def run (s : Stock) (r : Revision) (ms : List (Moment Unit)) (after : Option Revision)
    (settles : Bool) : Stock :=
  { s with
    revisions := put r.name after s.revisions
    plans := stored s.plans ms
    past := behind s.past s.plans ms
    settled := if settles then r.name :: s.settled else s.settled }

/-- What can come to be stored from revisions without plans, where these revisions are settled by a
cycle that succeeds. -/
inductive Arises (counts : Revision → Bool) : Stock → Prop
  | start {revisions : List Revision} (distinct : (revisions.map Revision.name).Nodup) :
      Arises counts { revisions, plans := fun _ => none }
  | create {s : Stock} {r : Revision} (before : Arises counts s)
      (fresh : r.name ∉ s.revisions.map Revision.name) (live : r.metadata.isDeleting = false) :
      Arises counts (s.create r)
  | edit {s : Stock} {r after : Revision} (before : Arises counts s) (mem : r ∈ s.revisions)
      (edited : Edited r after) : Arises counts (s.edit r after)
  | delete {s : Stock} {r : Revision} (before : Arises counts s) (mem : r ∈ s.revisions)
      (time : Instant) : Arises counts (s.delete r time)
  | run {s : Stock} {r : Revision} {settings : Settings} {failures : Failures}
      {ms : List (Moment Unit)} {after : Option Revision}
      {rest : Program (Supervised RevisionStore) (Outcome Action × Failures)}
      (before : Arises counts s) (mem : r ∈ s.revisions) (history : History s.past s.plans ms)
      (reached : (reconcile settings r failures).Reaches (own () ms) rest)
      (treated : Treated r (ownCalls () ms) after) :
      Arises counts (s.run r ms after (succeeds rest && counts r))

end Stock

section Put

variable {name : String} {after : Option Revision} {stored : List Revision} {r s : Revision}

theorem mem_put : s ∈ put name after stored ↔
    s ∈ stored ∧ s.name ≠ name ∨ after = some s ∧ ∃ r ∈ stored, r.name = name := by
  constructor
  · intro mem
    obtain ⟨r, before, found⟩ := List.mem_filterMap.1 mem
    split at found
    · next same => exact .inr ⟨found, r, before, same⟩
    · next other =>
      cases found
      exact .inl ⟨before, other⟩
  · rintro (⟨mem, other⟩ | ⟨found, r, mem, same⟩)
    · exact List.mem_filterMap.2 ⟨s, mem, if_neg other⟩
    · exact List.mem_filterMap.2 ⟨r, mem, (if_pos same).trans found⟩

theorem mem_put_of_ne (mem : s ∈ stored) (other : s.name ≠ name) : s ∈ put name after stored :=
  mem_put.2 (.inl ⟨mem, other⟩)

theorem mem_put_self (mem : r ∈ stored) (found : after = some s) : s ∈ put r.name after stored :=
  mem_put.2 (.inr ⟨found, r, mem, rfl⟩)

theorem names_put (named : ∀ s, after = some s → s.name = name) :
    ((put name after stored).map Revision.name).Sublist (stored.map Revision.name) := by
  induction stored with
  | nil => exact List.Sublist.refl _
  | cons r rest ih =>
    unfold put at ih ⊢
    rw [List.filterMap_cons]
    split
    · exact ih.cons _
    · next kept found =>
      have same : kept.name = r.name := by
        split at found
        · next home => exact (named kept found).trans home.symm
        · cases found
          rfl
      rw [List.map_cons, List.map_cons, same]
      exact ih.cons_cons _

theorem eq_of_name (distinct : (stored.map Revision.name).Nodup) (mem : r ∈ stored)
    (mem' : s ∈ stored) (same : r.name = s.name) : r = s :=
  List.inj_on_of_nodup_map distinct mem mem' same

end Put

theorem held_withHold {r : Revision} : Held (withHold r) :=
  List.contains_iff_mem.2 (List.mem_singleton_self _)

theorem eq_of_isHold {r : Revision} {call : RevisionCall} (h : isHold r call = true) :
    call = holdCall r := by
  unfold isHold at h
  split at h
  · obtain ⟨rfl, rfl⟩ := of_decide_eq_true h
    rfl
  · cases h

theorem Released.asks {r : Revision} {calls : PlanCalls} (h : Released r calls) :
    AsksRelease r calls := by
  obtain ⟨answer, called, -⟩ := h
  exact ⟨_, called, rfl⟩

section Treated

variable {settings : Settings} {failures : Failures} {r after : Revision} {calls : PlanCalls}
  {left : Option Revision} {run : List (Answered (Supervised RevisionStore))}
  {rest : Program (Supervised RevisionStore) (Outcome Action × Failures)}

theorem Treated.name (h : Treated r calls (some after)) : after.name = r.name := by
  cases h with
  | stored name => exact name

theorem Treated.spec (h : Treated r calls (some after)) : after.spec = r.spec := by
  cases h with
  | stored _ spec => exact spec

theorem Treated.deleting (h : Treated r calls (some after)) :
    after.metadata.isDeleting = r.metadata.isDeleting := by
  cases h with
  | stored _ _ deleting => exact deleting

/-- A revision that was held is still there and held, unless its release was asked for. -/
theorem Treated.stays (h : Treated r calls left) (held : Held r) (kept : ¬ AsksRelease r calls) :
    ∃ after, left = some after ∧ Held after := by
  cases h with
  | stored _ _ _ lost => exact ⟨_, rfl, by_contra fun free => kept (lost held free)⟩
  | gone _ asked => exact absurd asked kept

/-- A cycle over a revision that is being deleted and is not held asks for nothing. -/
theorem nil_of_released (deleting : r.metadata.isDeleting = true) (free : ¬ Held r)
    (reached : (reconcile settings r failures).Reaches run rest) : run = [] := by
  have idle : r.metadata.isDeleting = true ∧
      r.metadata.isDeletionCandidate cleanupFinalizer = false := by
    refine ⟨deleting, ?_⟩
    rw [ObjectMeta.isDeletionCandidate, Bool.eq_false_iff.2 free, Bool.and_false]
  unfold reconcile at reached
  simp only [if_pos idle] at reached
  cases reached with
  | here => rfl

/-- A revision that is being deleted is not held after a cycle that succeeds, and not held again. -/
theorem Treated.free (h : Treated r (run.flatMap Supervised.calls) (some after))
    (reached : (reconcile settings r failures).Reaches run rest)
    (deleting : r.metadata.isDeleting = true) (due : succeeds rest = true ∨ ¬ Held r) :
    ¬ Held after := by
  by_cases held : Held r
  · have served := served_of_succeeds reached (due.resolve_right (not_not_intro held))
    cases h with
    | stored _ _ _ _ released => exact released (served.left ⟨deleting, held⟩).2
  · obtain rfl := nil_of_released deleting held reached
    cases h with
    | stored _ _ _ _ _ gained =>
      intro again
      rcases gained again with was | ⟨call, called, -⟩
      · exact held was
      · cases called

end Treated

end InfraOperator.Catalog
