import InfraOperator.Proofs.Catalog.Board

/-!
# Entries of plans under concurrency

However cycles over revisions take turns on the plans, and wherever they are broken off, a cycle
leaves the entries of other revisions as they are. What a cycle has listed stays in the plan until a
cycle over a revision of the same name takes it away.
-/

set_option autoImplicit false

namespace InfraOperator.Catalog

def entriesOf (plan : Option Plan) : List PlanEntry := (plan.map Plan.revisions).getD []

def others (name : String) (entries : List PlanEntry) : List PlanEntry :=
  entries.filter (·.name ≠ name)

/-- What a cycle over the revision may make of the list of its plan. -/
inductive Relists (r : Revision) (before : List PlanEntry) : List PlanEntry → Prop
  | kept : Relists r before before
  | joined (joining : Joining r) (unlisted : entryOf r ∉ before) :
      Relists r before (others r.name before ++ [entryOf r])
  | left (leaving : Leaving r) : Relists r before (others r.name before)

section Relists

variable {r : Revision} {before after : List PlanEntry} {calls : PlanCalls} {call : RevisionCall}

theorem others_others (name : String) (entries : List PlanEntry) :
    others name (others name entries) = others name entries := by
  simp [others]

theorem others_joined : others r.name (others r.name before ++ [entryOf r]) =
    others r.name before := by
  have own : others r.name [entryOf r] = [] := by simp [others, entryOf]
  rw [others, List.filter_append]
  exact (congrArg _ own).trans ((List.append_nil _).trans (others_others ..))

theorem nodup_joined (distinct : (before.map PlanEntry.name).Nodup) :
    ((others r.name before ++ [entryOf r]).map PlanEntry.name).Nodup := by
  rw [List.map_append, List.nodup_append]
  refine ⟨distinct.sublist (List.filter_sublist.map _), by simp, ?_⟩
  rintro _ mem _ own rfl
  obtain ⟨entry, kept, same⟩ := List.mem_map.1 mem
  rw [List.map_singleton] at own
  exact of_decide_eq_true (List.mem_filter.1 kept).2 (same.trans (List.mem_singleton.1 own))

theorem Relists.others_eq (h : Relists r before after) :
    others r.name after = others r.name before := by
  cases h with
  | kept => rfl
  | joined => exact others_joined
  | left => exact others_others ..

theorem Relists.mem_of_ne (h : Relists r before after) {entry : PlanEntry}
    (listed : entry ∈ before) (other : r.name ≠ entry.name) : entry ∈ after := by
  have mem : entry ∈ others r.name after := by
    rw [h.others_eq]
    exact List.mem_filter.2 ⟨listed, decide_eq_true (Ne.symm other)⟩
  exact (List.mem_filter.1 mem).1

theorem not_mem_of_lists {plan : Plan} {entry : PlanEntry} (h : plan.lists entry = false) :
    entry ∉ plan.revisions := by
  intro mem
  have lists : plan.lists entry = true := List.contains_iff_mem.2 mem
  cases h.symm.trans lists

theorem mem_of_lists {plan : Plan} {entry : PlanEntry} (h : plan.lists entry = true) :
    entry ∈ plan.revisions :=
  List.contains_iff_mem.1 h

theorem mem_enlist (plan : Plan) (entry : PlanEntry) : entry ∈ (enlist plan entry).revisions :=
  List.mem_append_right _ (List.mem_singleton_self _)

theorem Basis.mem {planName : String} {entry : PlanEntry} {plan : Plan}
    (h : Basis planName entry calls plan) : entry ∈ plan.revisions := by
  cases h with
  | listed lists => exact mem_of_lists lists
  | created => exact List.mem_singleton_self _
  | added => exact mem_enlist ..

theorem Writes.relists {before : Option Plan} {after : Plan}
    (h : Writes r calls call before after) : Relists r (entriesOf before) after.revisions := by
  cases h with
  | makes joining read revisions =>
    rw [revisions]
    exact .joined joining nofun
  | adds joining read unlisted revisions =>
    rw [revisions]
    exact .joined joining (not_mem_of_lists unlisted)
  | removes leaving read revisions =>
    rw [revisions]
    exact .left leaving
  | shows shows revisions =>
    rw [revisions]
    exact .kept

def writesList : RevisionCall → Bool
  | .createPlan _ | .patchPlanRevisions _ => true
  | _ => false

/-- A live revision is listed by such a write. -/
theorem Writes.lists {before : Option Plan} {after : Plan} (h : Writes r calls call before after)
    (live : r.metadata.isDeleting = false) (list : writesList call = true) :
    entryOf r ∈ after.revisions := by
  cases h with
  | makes joining read revisions =>
    rw [revisions]
    exact List.mem_singleton_self _
  | adds joining read unlisted revisions =>
    rw [revisions]
    exact mem_enlist ..
  | removes leaving => cases live.symm.trans leaving.deleting
  | shows => cases list

end Relists

section Interleaved

variable {ι : Type} [DecidableEq ι] {rounds : ι → Round} {past : List Plans} {first : Plans}
  {ms pre post : List (Moment ι)} {m : Moment ι} {i : ι}

/-- At a moment the plan of the asker's revision may be listed anew, and no other one is touched. -/
theorem Interleaved.relists (h : Interleaved rounds past first ms)
    (parts : ms = pre ++ m :: post) :
    (∀ name, name ≠ (m.revision rounds).spec.planName → m.plans name = stored first pre name) ∧
    Relists (m.revision rounds) (entriesOf (stored first pre (m.revision rounds).spec.planName))
      (entriesOf (m.plans (m.revision rounds).spec.planName)) := by
  rcases h.step parts with ⟨left, -⟩ | ⟨call, after, -, -, left, writes⟩
  · rw [left]
    exact ⟨fun _ _ => rfl, .kept⟩
  · rw [left, Function.update_self]
    exact ⟨fun name other => Function.update_of_ne other .., writes.relists⟩

/-- From here on the plan lists the entry, until that is changed by a cycle over a revision of its
name. -/
def ListedUntil (rounds : ι → Round) (planName : String) (entry : PlanEntry) :
    List (Moment ι) → Prop
  | [] => True
  | m :: ms =>
    entry ∈ entriesOf (m.plans planName) ∧ ListedUntil rounds planName entry ms ∨
    entry ∉ entriesOf (m.plans planName) ∧ (m.revision rounds).name = entry.name

theorem Interleaved.listedUntil (h : Interleaved rounds past first ms) (parts : ms = pre ++ post)
    {planName : String} {entry : PlanEntry}
    (listed : entry ∈ entriesOf (stored first pre planName)) :
    ListedUntil rounds planName entry post := by
  induction post generalizing pre with
  | nil => trivial
  | cons m post ih =>
    by_cases still : entry ∈ entriesOf (m.plans planName)
    · have parted : ms = (pre ++ [m]) ++ post := by simp [parts]
      refine .inl ⟨still, ih parted ?_⟩
      rw [stored_append]
      exact still
    · refine .inr ⟨still, ?_⟩
      obtain ⟨apart, relists⟩ := h.relists parts
      by_cases same : planName = (m.revision rounds).spec.planName
      · subst same
        by_contra other
        exact still (relists.mem_of_ne listed other)
      · rw [apart planName same] at still
        exact absurd listed still

/-- A write that was acknowledged has changed the plan of its cycle, at some moment. -/
theorem Interleaved.exists_write (h : Interleaved rounds past first ms)
    {call : StoreCall RevisionStore} (called : call ∈ ownCalls i ms)
    (acknowledged : Acknowledged call) :
    ∃ pre m post after, ms = pre ++ m :: post ∧ m.asker = i ∧
      m.plans (rounds i).revision.spec.planName = some after ∧
      Writes (rounds i).revision (aboutPlans (ownCalls i pre)) call.request
        (stored first pre (rounds i).revision.spec.planName) after := by
  obtain ⟨before, behind, own⟩ := List.append_of_mem called
  obtain ⟨pre, m, post, parts, rfl, calls, -, -⟩ := exists_moment own
  obtain ⟨after, left, writes⟩ := h.carried parts calls acknowledged
  refine ⟨pre, m, post, after, parts, rfl, ?_, writes⟩
  rw [left]
  exact Function.update_self ..

theorem mem_of_mem_aboutPlans {calls : PlanCalls} {call : StoreCall RevisionStore}
    (h : call ∈ aboutPlans calls) : call ∈ calls := (List.mem_filter.1 h).1

/-- There is a moment at which a cycle that has joined its plan has found its entry there, or put it
there. -/
theorem Interleaved.exists_listed (h : Interleaved rounds past first ms)
    (live : (rounds i).revision.metadata.isDeleting = false)
    (joined : Joined (rounds i).revision.spec.planName (entryOf (rounds i).revision)
      (aboutPlans (ownCalls i ms))) :
    ∃ pre m post, ms = pre ++ m :: post ∧ m.asker = i ∧
      entryOf (rounds i).revision ∈ entriesOf (m.plans (rounds i).revision.spec.planName) := by
  obtain ⟨before, plan, basis, own⟩ := joined
  have called : ∀ call ∈ before, call ∈ ownCalls i ms := by
    intro call mem
    apply mem_of_mem_aboutPlans
    rw [own]
    exact List.mem_append_left _ mem
  -- If the cycle has not found its entry there, its second call has listed it.
  have written : ∀ {call : StoreCall RevisionStore}, call ∈ before → Acknowledged call →
      writesList call.request = true → ∃ pre m post, ms = pre ++ m :: post ∧ m.asker = i ∧
        entryOf (rounds i).revision ∈ entriesOf (m.plans (rounds i).revision.spec.planName) := by
    intro call mem acknowledged list
    obtain ⟨pre, m, post, after, parts, asks, left, writes⟩ :=
      h.exists_write (called call mem) acknowledged
    refine ⟨pre, m, post, parts, asks, ?_⟩
    rw [left]
    exact writes.lists live list
  cases basis with
  | listed lists =>
    obtain ⟨before, behind, own⟩ := List.append_of_mem (called _ (List.mem_cons_self ..))
    obtain ⟨pre, m, post, parts, asks, -, found, left⟩ := h.read own
    refine ⟨pre, m, post, parts, asks, ?_⟩
    rw [left, ← found]
    exact mem_of_lists lists
  | created => exact written (List.mem_cons_of_mem _ (List.mem_singleton_self _)) trivial rfl
  | added => exact written (List.mem_cons_of_mem _ (List.mem_singleton_self _)) trivial rfl

/-- Whatever turns cycles take, and wherever they are broken off: none of them changes what is
listed of other revisions, in any plan. And an entry that a cycle has listed is in the plan at some
moment of the cycle, and stays there until a cycle over a revision of the same name changes that. -/
theorem entries_survive (h : Interleaved rounds past first ms) :
    (∀ pre m post, ms = pre ++ m :: post → ∀ name,
      others (m.revision rounds).name (entriesOf (m.plans name)) =
        others (m.revision rounds).name (entriesOf (stored first pre name))) ∧
    ∀ i, Enlists (rounds i).revision (own i ms) →
      ∃ pre m post, ms = pre ++ m :: post ∧ m.asker = i ∧
        entryOf (rounds i).revision ∈ entriesOf (m.plans (rounds i).revision.spec.planName) ∧
        ListedUntil rounds (rounds i).revision.spec.planName (entryOf (rounds i).revision)
          post := by
  constructor
  · intro pre m post parts name
    obtain ⟨apart, relists⟩ := h.relists parts
    by_cases same : name = (m.revision rounds).spec.planName
    · rw [same]
      exact relists.others_eq
    · rw [apart name same]
  · intro i enlists
    obtain ⟨rest, reached⟩ := h.runs i
    obtain ⟨joining, joined⟩ := enlists.joined reached
    obtain ⟨pre, m, post, parts, asks, listed⟩ := h.exists_listed joining.live joined
    have parted : ms = (pre ++ [m]) ++ post := by simp [parts]
    refine ⟨pre, m, post, parts, asks, listed, h.listedUntil parted ?_⟩
    rw [stored_append]
    exact listed

end Interleaved

def ofNet (version : String) (deleting : Bool) : Revision :=
  { metadata :=
      { name := some ("net-" ++ version)
        finalizers := some [cleanupFinalizer]
        deletionTimestamp := if deleting then some (.ofSeconds 0) else none }
    spec :=
      { planName := "net"
        version
        configuration := { module := "m", providerName := "aws" } } }

theorem joining_ofNet {version : String} (versioned : (Version.parse? version).isSome = true) :
    Joining (ofNet version false) := ⟨rfl, rfl, versioned⟩

def rivals : Fin 3 → Round
  | 0 => ⟨{}, ofNet "1.0.0" false, .none⟩
  | _ => ⟨{}, ofNet "2.0.0" false, .none⟩

def rivalry : List (Moment (Fin 3)) × Contest (Fin 3) :=
  let turns := List.replicate 6 0 ++ List.replicate 6 1 ++ List.replicate 20 0 ++
    List.replicate 20 1 ++ List.replicate 30 2
  Contest.play turns (Contest.ofRounds rivals .empty)

theorem interleaved_rivalry : Interleaved rivals [] Board.empty.plans rivalry.1 :=
  Contest.interleaved_play rivals _ Board.sound_empty Board.numbered_empty

theorem entries_survive_twoVersions :
    (∀ i ∈ [0, 2], ∃ pre m post, rivalry.1 = pre ++ m :: post ∧ m.asker = i ∧
      entryOf (rivals i).revision ∈ entriesOf (m.plans "net") ∧
      ListedUntil rivals "net" (entryOf (rivals i).revision) post) ∧
    entriesOf (rivalry.2.board.plans "net") =
      [⟨"net-1.0.0", "1.0.0"⟩, ⟨"net-2.0.0", "2.0.0"⟩] := by
  have kept := (entries_survive interleaved_rivalry).2
  constructor
  · intro i mem
    simp only [List.mem_cons, List.not_mem_nil, or_false] at mem
    rcases mem with rfl | rfl
    · exact kept 0 (Contest.enlists_play rivals _ Board.numbered_empty
        (joining_ofNet (by decide +kernel)) (by decide +kernel))
    · exact kept 2 (Contest.enlists_play rivals _ Board.numbered_empty
        (joining_ofNet (by decide +kernel)) (by decide +kernel))
  · decide +kernel

end InfraOperator.Catalog
