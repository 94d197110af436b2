import InfraOperator.Proofs.Catalog.Survival

/-!
# Revisions that are being deleted

A revision that users have asked to delete stays listed until its finalizers are released, and the
expiration takes it for a sibling like the others. So what a cycle keeps is the latest of all that
are stored. That is the latest of those that will stay only as long as none that is being deleted
exceeds them all.
-/

set_option autoImplicit false

namespace InfraOperator.Catalog

def live (stored : List Revision) : List Revision :=
  stored.filter fun r => ¬ r.metadata.isDeleting

def Covered (plan : String) (stored : List Revision) : Prop :=
  ∃ r ∈ live stored, r.spec.planName = plan ∧ IsLatest r stored

variable {settings : Settings} {requested : List Revision → String → Prop} {sight : Sight}
  {first stored after : List Revision} {past : List (List Revision)} {plan : String}
  {r s : Revision}

theorem Course.distinct_of_mem {history : List (List Revision)}
    (h : Course settings requested sight first history) {state : List Revision}
    (hs : state ∈ history) : (state.map Revision.name).Nodup := by
  have names := (h.identities state hs).map Prod.fst
  rw [List.map_map, List.map_map] at names
  exact h.distinct.sublist names

theorem IsBehind.exists_latest
    (h : IsBehind r (stored.filter (·.spec.planName = r.spec.planName))) :
    ∃ s ∈ stored, s.spec.planName = r.spec.planName ∧ IsLatest s stored ∧
      ∃ own top, r.version? = some own ∧ s.version? = some top ∧ compare own top = .lt := by
  obtain ⟨own, top, versioned, greatest, below⟩ := h
  obtain ⟨s, hs, topped⟩ := List.mem_filterMap.1 greatest.mem
  obtain ⟨mem, inPlan⟩ := List.mem_filter.1 hs
  have inPlan : s.spec.planName = r.spec.planName := of_decide_eq_true inPlan
  refine ⟨s, mem, inPlan, ⟨top, topped, ?_⟩, own, top, versioned, topped, below⟩
  rw [inPlan]
  exact greatest

theorem IsLatest.not_isBehind (h : IsLatest r stored) :
    ¬ IsBehind r (stored.filter (·.spec.planName = r.spec.planName)) := by
  rintro ⟨own, above, versioned, greatest, below⟩
  obtain ⟨top, topped, upper⟩ := h
  cases versioned.symm.trans topped
  exact upper.upper above greatest.mem below

/-! ## Covered plans -/

/-- The latest of those that will stay is the latest of all, where one of them is. -/
theorem Covered.isLatest (h : Covered s.spec.planName stored) (latest : IsLatest s (live stored)) :
    IsLatest s stored := by
  obtain ⟨r, hr, inPlan, top, topped, greatest⟩ := h
  obtain ⟨own, versioned, upper⟩ := latest
  -- What exceeds its version exceeds that of the one that covers the plan, which nothing does.
  refine ⟨own, versioned, ?_, fun v hv above => ?_⟩
  · exact ((List.filter_sublist.filter _).filterMap _).subset upper.mem
  · have behind : compare own top = .lt :=
      Version.lt_of_lt_of_not_lt above (greatest.upper v (inPlan ▸ hv))
    exact upper.upper top (mem_versions hr inPlan topped) behind

theorem versions_subset (within : (after.map identity).Sublist (stored.map identity)) :
    versions plan after ⊆ versions plan stored := by
  intro v hv
  obtain ⟨s, hs, versioned⟩ := List.mem_filterMap.1 hv
  obtain ⟨mem, inPlan⟩ := List.mem_filter.1 hs
  obtain ⟨r, hr, same⟩ := List.mem_map.1 (within.subset (List.mem_map_of_mem mem))
  have same : r.spec = s.spec := congrArg Prod.snd same
  refine mem_versions hr ?_ ((version?_congr same).trans versioned)
  rw [same]
  exact of_decide_eq_true inPlan

/-- A plan stays covered where nothing is added and its latest revisions that will stay do. -/
theorem Covered.stays (h : Covered plan stored)
    (within : (after.map identity).Sublist (stored.map identity))
    (kept : ∀ s ∈ live stored, IsLatest s stored → s ∈ live after) : Covered plan after := by
  obtain ⟨s, hs, inPlan, latest⟩ := h
  have stays := kept s hs latest
  obtain ⟨top, topped, greatest⟩ := latest
  refine ⟨s, stays, inPlan, top, topped, ?_, fun v hv => ?_⟩
  · exact mem_versions (List.mem_filter.1 stays).1 rfl topped
  · exact greatest.upper v (versions_subset within hv)

theorem Covered.release (h : Covered plan stored) (name : String) :
    Covered plan (release name stored) := by
  refine h.stays identities_release fun s hs _ => ?_
  obtain ⟨mem, kept⟩ := List.mem_filter.1 hs
  exact List.mem_filter.2 ⟨mem_release_of_kept mem (by simpa using kept), kept⟩

section Cycle

variable {run : List (Answered (Supervised RevisionStore))}
  {rest : Program (Supervised RevisionStore) (Outcome Action)}

/-- A cycle that sees what is stored leaves the latest revisions as they are. -/
theorem Course.keeps_latest (course : Course settings requested sight first (stored :: past))
    (reached : (reconcileExpiration settings r).Reaches run rest)
    (sees : Promptly (stored :: past) r (run.flatMap Supervised.calls))
    (leaves : Leaves (run.flatMap deeds) stored after) (hs : s ∈ live stored)
    (latest : IsLatest s stored) : s ∈ live after := by
  obtain ⟨read, fresh⟩ := sees
  obtain ⟨mem, kept⟩ := List.mem_filter.1 hs
  refine List.mem_filter.2 ⟨leaves.kept ?_ mem, kept⟩
  rintro name answer deletes rfl
  obtain ⟨same, -, siblings, shown, behind⟩ := judged_of_deletes reached deletes
  have distinct := course.distinct_of_mem (List.mem_cons_self ..)
  obtain rfl : s = r := List.inj_on_of_nodup_map distinct mem read same
  rw [fresh _ _ shown] at behind
  exact latest.not_isBehind behind

/-- What a plan has that is not exceeded stays there as long as users leave it so. -/
theorem Course.stays_covered {history : List (List Revision)}
    (h : Course settings (fun stored name => ∀ time, Covered plan (delete name time stored))
      Promptly first history)
    (start : Covered plan first) : ∀ state ∈ history, Covered plan state := by
  induction h with
  | start distinct => simpa using start
  | cycle before reached sees leaves ih =>
    have covered := ih _ (List.mem_cons_self ..)
    refine List.forall_mem_cons.2 ⟨covered.stays leaves.identities fun s hs latest => ?_, ih⟩
    exact before.keeps_latest reached sees leaves hs latest
  | request before asked time ih => exact List.forall_mem_cons.2 ⟨asked time, ih⟩
  | release before name ih =>
    exact List.forall_mem_cons.2 ⟨(ih _ (List.mem_cons_self ..)).release name, ih⟩

end Cycle

/-- At any time of any history, a cycle that sees what is stored deletes nothing but its own
revision, which is not being deleted yet and is exceeded by one that is stored. Where a plan has a
revision that is not being deleted and is not exceeded by any, the cycle leaves it one, and all the
latest of those that are not being deleted. So a plan that has one keeps one throughout, if users
only ask for deletions that leave it one. -/
theorem expiration_keeps_covered (settings : Settings) :
    (∀ requested sight first stored past, Course settings requested sight first (stored :: past) →
      ∀ r run rest, (reconcileExpiration settings r).Reaches run rest →
      Promptly (stored :: past) r (run.flatMap Supervised.calls) →
      (∀ name answer, .deletes name answer ∈ run.flatMap deeds →
        name = r.name ∧ r ∈ live stored ∧
        ∃ s ∈ stored, s.spec.planName = r.spec.planName ∧ IsLatest s stored ∧
          ∃ own top, r.version? = some own ∧ s.version? = some top ∧ compare own top = .lt) ∧
      ∀ after, Leaves (run.flatMap deeds) stored after → ∀ plan, Covered plan stored →
        Covered plan after ∧
        ∀ s ∈ live stored, s.spec.planName = plan → IsLatest s (live stored) → s ∈ live after) ∧
    ∀ plan first history,
      Course settings (fun stored name => ∀ time, Covered plan (delete name time stored)) Promptly
        first history →
      Covered plan first → ∀ state ∈ history, Covered plan state := by
  constructor
  · intro requested sight first stored past course r run rest reached sees
    constructor
    · intro name answer deletes
      obtain ⟨same, kept, siblings, shown, behind⟩ := judged_of_deletes reached deletes
      rw [sees.2 _ _ shown] at behind
      refine ⟨same, List.mem_filter.2 ⟨sees.1, ?_⟩, behind.exists_latest⟩
      simp [kept]
    · intro after leaves plan covered
      constructor
      · refine covered.stays leaves.identities fun s hs latest => ?_
        exact course.keeps_latest reached sees leaves hs latest
      · rintro s hs rfl latest
        exact course.keeps_latest reached sees leaves hs (covered.isLatest latest)
  · intro plan first history course start
    exact course.stays_covered start

/-- The lower revision is deleted, and the upper one covers the plan throughout. -/
theorem expiration_keeps_covered_twoVersions :
    .deletes lower.name (.ok ()) ∈ (cycleOf lower [lower, upper]).flatMap deeds ∧
    lower ∈ live [lower, upper] ∧ upper ∈ live [upper] ∧
    ∀ state ∈ [[upper], [lower, upper]], Covered "net" state := by
  obtain ⟨step, run⟩ := expiration_keeps_covered weekly
  have shown : .deletes lower.name (.ok ()) ∈ (cycleOf lower [lower, upper]).flatMap deeds := by
    rw [deletes_lower]
    exact List.mem_cons_self ..
  have covered : Covered "net" [lower, upper] := ⟨upper, by decide, rfl, isLatest_upper⟩
  have alive : live [lower, upper] = [lower, upper] := by decide
  have latest : IsLatest upper (live [lower, upper]) := by
    rw [alive]
    exact isLatest_upper
  obtain ⟨outcome, reached⟩ := reaches_cycleOf lower [lower, upper]
  have sees := promptly_cycleOf (r := lower) (List.mem_cons_self (l := [upper])) []
  have start : Course weekly (fun stored name => ∀ time, Covered "net" (delete name time stored))
      Promptly [lower, upper] [[lower, upper]] := start_lower_upper
  obtain ⟨deletes, keeps⟩ := step _ _ _ _ _ start _ _ _ reached sees
  obtain ⟨-, mem, -⟩ := deletes _ _ shown
  obtain ⟨-, stays⟩ := keeps _ leaves_lower "net" covered
  refine ⟨shown, mem, stays upper (by decide) rfl latest, ?_⟩
  exact run "net" _ _ (start.cycle reached sees leaves_lower) covered

def heldUpper : Revision := aged "net-2.0.0" "2.0.0" true false

def endingUpper : Revision := aged "net-2.0.0" "2.0.0" true true

/-- The last revision that is not being deleted is deleted because of one that is. -/
theorem last_live_expired :
    ∃ past run outcome after,
      Course weekly (fun _ name => name = "net-2.0.0") Promptly [lower, heldUpper]
        ([lower, endingUpper] :: past) ∧
      (reconcileExpiration weekly lower).Reaches run (.done outcome) ∧
      Promptly ([lower, endingUpper] :: past) lower (run.flatMap Supervised.calls) ∧
      IsLatest lower (live [lower, endingUpper]) ∧
      .deletes lower.name (.ok ()) ∈ run.flatMap deeds ∧
      Leaves (run.flatMap deeds) [lower, endingUpper] after ∧ live after = [] := by
  have shown : (cycleOf lower [lower, endingUpper]).flatMap deeds = deletion lower (.ok ()) := by
    decide +kernel
  obtain ⟨outcome, reached⟩ := reaches_cycleOf lower [lower, endingUpper]
  have start : Course weekly (fun _ name => name = "net-2.0.0") Promptly [lower, heldUpper]
      [[lower, heldUpper]] := .start (by decide)
  have alone : versions "net" (live [lower, endingUpper]) = [⟨1, 0, 0, [], []⟩] := by
    decide +kernel
  refine ⟨_, _, outcome, [endingUpper], start.request rfl (.ofSeconds 86400), reached,
    promptly_cycleOf (List.mem_cons_self ..) _, ⟨_, version?_lower, ?_⟩, ?_, ?_, by decide⟩
  · rw [show versions lower.spec.planName _ = _ from alone]
    exact ⟨by decide, by decide⟩
  · rw [shown]
    exact List.mem_cons_self ..
  · rw [shown]
    exact .deletes (.carried _ laterDay) (.tells (.nil _))

end InfraOperator.Catalog
