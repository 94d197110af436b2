import InfraOperator.Proofs.Catalog.Entries
import InfraOperator.Proofs.Latest

/-!
# The latest revision under concurrency

The list of a plan is written under the version that was read, the latest revision is not. Where all
cycles have listed their revision, each plan shows the latest revision of its list in the end,
unless what was shown last had been determined from a list that was overtaken by then.
-/

set_option autoImplicit false

namespace InfraOperator.Catalog

def PointsRight (plan : Plan) : Prop := plan.shownLatest = plan.latest?

section Writes

variable {r : Revision} {calls more : PlanCalls} {call : RevisionCall} {before : Option Plan}
  {plan after : Plan}

theorem pointsRight_congr {plan' : Plan} (revisions : plan'.revisions = plan.revisions)
    (status : plan'.shownLatest = plan.latest?) : PointsRight plan' := by
  rw [PointsRight, status, Plan.latest?, Plan.latest?, revisions]

theorem latest?_isSome_of_basis (joining : Joining r)
    (basis : Basis r.spec.planName (entryOf r) calls plan) : plan.latest?.isSome = true :=
  PlanEntry.latest?_isSome basis.mem joining.versioned

theorem Writes.shown {name : String} {latest : Option PlanEntry}
    (h : Writes r calls call before after) (status : call = .patchPlanStatus name latest)
    (some : latest.isSome = true) : after.shownLatest = latest := by
  obtain ⟨entry, rfl⟩ := Option.isSome_iff_exists.1 some
  cases h with
  | makes => cases status
  | adds => cases status
  | removes => cases status
  | shows shows revisions written =>
    obtain ⟨-, latest⟩ := RevisionCall.patchPlanStatus.inj status
    rw [Plan.shownLatest, written, latest]
    rfl

theorem Writes.changes (h : Writes r calls call before after)
    (live : r.metadata.isDeleting = false) (list : writesList call = true) :
    before ≠ some after := by
  rintro rfl
  have listed := h.lists live list
  cases h with
  | adds joining read unlisted => exact not_mem_of_lists unlisted listed
  | removes leaving => cases live.symm.trans leaving.deleting
  | shows => cases list

/-- A cycle that has listed its revision by a write goes on to show the latest one of what it has
written. -/
theorem Writes.basis {answer : Option (Outcome call.Answer)}
    (h : Writes r calls call before after) (list : writesList call = true)
    (joined : Joined r.spec.planName (entryOf r) (calls ++ ⟨call, answer⟩ :: more))
    (live : r.metadata.isDeleting = false) :
    ∃ plan, after.revisions = plan.revisions ∧ after.shownLatest = plan.shownLatest ∧
      more = showing plan := by
  obtain ⟨known, plan, basis, same⟩ := joined
  cases h with
  | makes joining read revisions status =>
    subst read
    refine ⟨planWith r.spec.planName (entryOf r), revisions, ?_, ?_⟩
    · rw [Plan.shownLatest, status]
      rfl
    · cases basis with
      | listed => cases same
      | created =>
        cases same
        rfl
      | added => cases same
  | @adds before _ joining read unlisted revisions status =>
    subst read
    refine ⟨enlist before (entryOf r), revisions, ?_, ?_⟩
    · rw [Plan.shownLatest, status]
      rfl
    · cases basis with
      | listed lists =>
        obtain ⟨same, -⟩ := List.cons.inj same
        cases same
        cases unlisted.symm.trans lists
      | created => cases same
      | added =>
        cases same
        rfl
  | removes leaving => cases live.symm.trans leaving.deleting
  | shows => cases list

theorem concerns_of_writesList (list : writesList call = true) : concernsPlan call = true := by
  cases call <;> first | rfl | cases list

theorem Writes.exists_shows (h : Writes r calls call before after)
    (status : ¬ writesList call = true) :
    ∃ plan stored, call = .patchPlanStatus r.spec.planName plan.latest? ∧ Shows r calls plan ∧
      before = some stored ∧ after.revisions = stored.revisions := by
  cases h with
  | makes => exact absurd rfl status
  | adds => exact absurd rfl status
  | removes => exact absurd rfl status
  | shows shows revisions => exact ⟨_, _, rfl, shows, rfl, revisions⟩

end Writes

section Interleaved

variable {ι : Type} [DecidableEq ι] {rounds : ι → Round} {past : List Plans} {first : Plans}
  {ms pre post : List (Moment ι)} {m : Moment ι} {i : ι}

/-- Where the plan has not changed since, a latest revision that was shown is still shown. -/
theorem Interleaved.still_shown (h : Interleaved rounds past first ms) (parts : ms = pre ++ post)
    {plan now : Plan} (called : showed plan ∈ ownCalls i post)
    (versioned : plan.latest?.isSome = true)
    (still : ∀ m ∈ post, m.plans (rounds i).revision.spec.planName = some now) :
    now.shownLatest = plan.latest? := by
  obtain ⟨before, after, own⟩ := List.append_of_mem called
  obtain ⟨front, m, rest, rfl, rfl, calls, -, -⟩ := exists_moment own
  have parted : ms = (pre ++ front) ++ m :: rest := by rw [parts, List.append_assoc]
  obtain ⟨after, left, writes⟩ := h.carried parted calls trivial
  have same : some now = some after := by
    rw [← still m (List.mem_append_right _ (List.mem_cons_self ..)), left]
    exact Function.update_self ..
  obtain rfl := Option.some.inj same
  exact writes.shown rfl versioned

/-- At that moment a latest revision is shown that was determined from another list than the plan
has by then. -/
def Overtaken (rounds : ι → Round) (first : Plans) (pre : List (Moment ι)) (m : Moment ι) : Prop :=
  ∃ plan before answer, Shows (m.revision rounds) (aboutPlans (ownCalls m.asker pre)) plan ∧
    Supervised.calls m.entry =
      [⟨.patchPlanStatus (m.revision rounds).spec.planName plan.latest?, answer⟩] ∧
    stored first pre (m.revision rounds).spec.planName = some before ∧
    plan.revisions ≠ before.revisions

def EndsOvertaken (rounds : ι → Round) (first : Plans) (ms : List (Moment ι)) (name : String) :
    Prop :=
  ∃ pre m post, ms = pre ++ m :: post ∧ (m.revision rounds).spec.planName = name ∧
    Overtaken rounds first pre m ∧ ∀ m' ∈ post, m'.plans name = m.plans name

theorem aboutPlans_parted (parts : ms = pre ++ m :: post) {call : StoreCall RevisionStore}
    (calls : Supervised.calls m.entry = [call]) (concerns : concernsPlan call.request = true) :
    aboutPlans (ownCalls m.asker ms) =
      aboutPlans (ownCalls m.asker pre) ++ call :: aboutPlans (ownCalls m.asker post) := by
  have only : aboutPlans [call] = [call] := aboutPlans_of_forall (by simpa using concerns)
  rw [parts, ownCalls_append, ownCalls_cons_self, calls, aboutPlans_append, aboutPlans_append, only]
  rfl

/-- Where the plan has never changed, a cycle that has listed its revision has found it right, or
has put it right. -/
theorem Interleaved.right_of_still (h : Interleaved rounds past first ms)
    (joining : Joining (rounds i).revision)
    (joined : Joined (rounds i).revision.spec.planName (entryOf (rounds i).revision)
      (aboutPlans (ownCalls i ms)))
    (still : ∀ m ∈ ms, m.plans (rounds i).revision.spec.planName =
      first (rounds i).revision.spec.planName) :
    ∃ plan, first (rounds i).revision.spec.planName = some plan ∧ PointsRight plan := by
  obtain ⟨before, plan, basis, own⟩ := joined
  have called : ∀ call ∈ before ++ showing plan, call ∈ ownCalls i ms := by
    intro call mem
    apply mem_of_mem_aboutPlans
    rw [own]
    exact mem
  have unwritten : ∀ {call : StoreCall RevisionStore}, call ∈ before → Acknowledged call →
      writesList call.request = true → False := by
    intro call mem acknowledged list
    obtain ⟨pre, m, post, after, parts, -, left, writes⟩ :=
      h.exists_write (called call (List.mem_append_left _ mem)) acknowledged
    apply writes.changes joining.live list
    rw [stored_of_still fun m' mem => still m' (parts ▸ List.mem_append_left _ mem), ← left]
    exact (still m (parts ▸ List.mem_append_right _ (List.mem_cons_self ..))).symm
  cases basis with
  | created =>
    exact (unwritten (List.mem_cons_of_mem _ (List.mem_singleton_self _)) trivial rfl).elim
  | added =>
    exact (unwritten (List.mem_cons_of_mem _ (List.mem_singleton_self _)) trivial rfl).elim
  | listed lists =>
    obtain ⟨before, behind, reads⟩ := List.append_of_mem (called _ (List.mem_cons_self ..))
    obtain ⟨pre, m, post, parts, -, -, found, left⟩ := h.read reads
    have stays := still m (parts ▸ List.mem_append_right _ (List.mem_cons_self ..))
    rw [left, ← found] at stays
    refine ⟨plan, stays.symm, ?_⟩
    by_cases same : plan.latest? = plan.shownLatest
    · exact same.symm
    · have shows : showed plan ∈ ownCalls i ms := by
        apply called
        rw [showing, if_neg same]
        exact List.mem_append_right _ (List.mem_singleton_self _)
      rw [← stays] at still
      exact h.still_shown (List.nil_append ms).symm shows
        (latest?_isSome_of_basis joining (.listed lists)) still

theorem Interleaved.last_write (h : Interleaved rounds past first ms)
    (parts : ms = pre ++ m :: post) {name : String} (changed : m.plans name ≠ stored first pre name)
    (still : ∀ m' ∈ post, m'.plans name = m.plans name) :
    (m.revision rounds).spec.planName = name ∧ ∃ call after, Supervised.calls m.entry = [call] ∧
      m.plans name = some after ∧ stored first ms name = some after ∧
      Writes (m.revision rounds) (aboutPlans (ownCalls m.asker pre)) call.request
        (stored first pre name) after := by
  rcases h.step parts with ⟨left, -⟩ | ⟨call, after, calls, -, left, writes⟩
  · exact absurd (congrFun left _) changed
  have home : (m.revision rounds).spec.planName = name := by
    by_contra other
    rw [left, Function.update_of_ne (Ne.symm other)] at changed
    exact changed rfl
  rw [home] at left writes
  have now : m.plans name = some after := by
    rw [left]
    exact Function.update_self ..
  refine ⟨home, call, after, calls, now, ?_, writes⟩
  have stays : stored m.plans post name = m.plans name := stored_of_still still
  rw [parts, stored_append]
  exact stays.trans now

/-- Where the last change of a plan was to list the revision of a cycle, the cycle has shown the
latest of what it listed. -/
theorem Interleaved.right_of_list (h : Interleaved rounds past first ms)
    (parts : ms = pre ++ m :: post) (joining : Joining (m.revision rounds))
    (joined : Joined (m.revision rounds).spec.planName (entryOf (m.revision rounds))
      (aboutPlans (ownCalls m.asker ms)))
    {call : StoreCall RevisionStore} {before : Option Plan} {after : Plan}
    (calls : Supervised.calls m.entry = [call])
    (writes : Writes (m.revision rounds) (aboutPlans (ownCalls m.asker pre)) call.request
      before after)
    (list : writesList call.request = true)
    (still : ∀ m' ∈ post, m'.plans (m.revision rounds).spec.planName = some after) :
    PointsRight after := by
  rw [aboutPlans_parted parts calls (concerns_of_writesList list)] at joined
  obtain ⟨plan, revisions, shown, more⟩ := writes.basis list joined joining.live
  by_cases same : plan.latest? = plan.shownLatest
  · exact pointsRight_congr revisions (shown.trans same.symm)
  · have shows : showed plan ∈ ownCalls m.asker post := by
      apply mem_of_mem_aboutPlans
      rw [more, showing, if_neg same]
      exact List.mem_singleton_self _
    have versioned : plan.latest?.isSome = true := by
      rw [Plan.latest?, ← revisions]
      exact PlanEntry.latest?_isSome (writes.lists joining.live list) joining.versioned
    have parted : ms = (pre ++ [m]) ++ post := by simp [parts]
    exact pointsRight_congr revisions (h.still_shown parted shows versioned still)

/-- Where the last change was to show a latest revision, that was determined from the list the plan
has, or from another one. -/
theorem right_or_overtaken (joining : Joining (m.revision rounds))
    {call : StoreCall RevisionStore} {after : Plan} (calls : Supervised.calls m.entry = [call])
    (writes : Writes (m.revision rounds) (aboutPlans (ownCalls m.asker pre)) call.request
      (stored first pre (m.revision rounds).spec.planName) after)
    (status : ¬ writesList call.request = true) :
    PointsRight after ∨ Overtaken rounds first pre m := by
  obtain ⟨plan, before, status, shows, found, revisions⟩ := writes.exists_shows status
  have versioned : plan.latest?.isSome = true := by
    rcases shows with ⟨joining, basis⟩ | ⟨leaving, -⟩
    · exact latest?_isSome_of_basis joining basis
    · cases joining.live.symm.trans leaving.deleting
  by_cases same : plan.revisions = before.revisions
  · exact .inl (pointsRight_congr (revisions.trans same.symm) (writes.shown status versioned))
  · obtain ⟨request, answer⟩ := call
    obtain rfl : request = _ := status
    exact .inr ⟨plan, before, answer, shows, calls, found, same⟩

/-- Where all cycles have listed their revision, whatever turns they took, the plan of each shows
the latest revision of its list; or else the last change of the plan was to show one that had been
determined from a list that was overtaken by then. -/
theorem latest_survives (h : Interleaved rounds past first ms)
    (enlisted : ∀ i, Enlists (rounds i).revision (own i ms)) (i : ι) :
    ∃ plan, stored first ms (rounds i).revision.spec.planName = some plan ∧
      (PointsRight plan ∨ EndsOvertaken rounds first ms (rounds i).revision.spec.planName) := by
  have joined : ∀ j, Joining (rounds j).revision ∧
      Joined (rounds j).revision.spec.planName (entryOf (rounds j).revision)
        (aboutPlans (ownCalls j ms)) := by
    intro j
    obtain ⟨rest, reached⟩ := h.runs j
    exact (enlisted j).joined reached
  rcases exists_last_change (rounds i).revision.spec.planName first ms with
    still | ⟨pre, m, post, parts, changed, still⟩
  · obtain ⟨plan, found, right⟩ := h.right_of_still (joined i).1 (joined i).2 still
    exact ⟨plan, (stored_of_still still).trans found, .inl right⟩
  obtain ⟨joining, whole⟩ := joined m.asker
  obtain ⟨home, call, after, calls, now, ends, writes⟩ := h.last_write parts changed still
  refine ⟨after, ends, ?_⟩
  rw [← home] at still now writes
  by_cases list : writesList call.request = true
  · rw [now] at still
    exact .inl (h.right_of_list parts joining whole calls writes list still)
  · refine (right_or_overtaken joining calls writes list).imp_right fun overtaken => ?_
    rw [← home]
    exact ⟨pre, m, post, parts, rfl, overtaken, still⟩

end Interleaved

def pair : Bool → Round
  | false => ⟨{}, ofNet "1.0.0" false, .none⟩
  | true => ⟨{}, ofNet "2.0.0" false, .none⟩

theorem joining_pair (i : Bool) : Joining (pair i).revision := by
  cases i with
  | false => exact joining_ofNet (by decide +kernel)
  | true => exact joining_ofNet (by decide +kernel)

def pairPlay (turns : Nat) : List (Moment Bool) × Contest Bool :=
  Contest.play (List.replicate turns false ++ List.replicate 30 true ++ List.replicate 30 false)
    (Contest.ofRounds pair .empty)

theorem interleaved_pairPlay (turns : Nat) :
    Interleaved pair [] Board.empty.plans (pairPlay turns).1 :=
  Contest.interleaved_play pair _ Board.sound_empty Board.numbered_empty

theorem comes_pairPlay (turns : Nat) :
    Contest.Comes [] (Contest.ofRounds pair .empty) (pairPlay turns).1 (pairPlay turns).2 :=
  Contest.comes_play _ Board.numbered_empty

theorem enlists_pairPlay {turns : Nat}
    (done : ∀ i, succeeds ((pairPlay turns).2.programs i) = true) (i : Bool) :
    Enlists (pair i).revision (own i (pairPlay turns).1) :=
  Contest.enlists_play pair _ Board.numbered_empty (joining_pair i) (done i)

/-- One after the other, the revisions leave the plan right. -/
theorem latest_survives_inTurn :
    ∃ plan, stored Board.empty.plans (pairPlay 30).1 "net" = some plan ∧
    (PointsRight plan ∨ EndsOvertaken pair Board.empty.plans (pairPlay 30).1 "net") ∧
    plan.shownLatest = some ⟨"net-2.0.0", "2.0.0"⟩ := by
  obtain ⟨plan, found, right⟩ := latest_survives (interleaved_pairPlay 30)
    (enlists_pairPlay (by decide +kernel)) false
  refine ⟨plan, found, right, ?_⟩
  have shown : ((pairPlay 30).2.board.plans "net").bind Plan.shownLatest =
      some ⟨"net-2.0.0", "2.0.0"⟩ := by decide +kernel
  have ends : (pairPlay 30).2.board.plans "net" = some plan :=
    (congrFun (comes_pairPlay 30).stored _).symm.trans found
  rw [ends] at shown
  exact shown

/-- A slow cycle shows an older revision again: its list is written under the version it has read,
but what it shows was determined before the other revision was listed. -/
theorem older_latest_shown : ¬ ∀ (ι : Type) [DecidableEq ι] (rounds : ι → Round) (first : Plans)
    (ms : List (Moment ι)) (planName : String) (plan : Plan), Interleaved rounds [] first ms →
    (∀ i, (rounds i).revision.spec.planName = planName) →
    (∀ i j, i ≠ j → (rounds i).revision.name ≠ (rounds j).revision.name) →
    (∀ i, Enlists (rounds i).revision (own i ms)) →
    (∀ i, ∃ value, (rounds i).program.Reaches (own i ms) (.done value)) →
    stored first ms planName = some plan → PointsRight plan := by
  intro claim
  have done : ∀ i, succeeds ((pairPlay 8).2.programs i) = true := by decide +kernel
  have home : ∀ i, (pair i).revision.spec.planName = "net" := by decide
  have apart : ∀ i j, i ≠ j → (pair i).revision.name ≠ (pair j).revision.name := by decide +kernel
  have ends : ∀ i, ∃ value, (pair i).program.Reaches (own i (pairPlay 8).1) (.done value) := by
    intro i
    obtain ⟨action, failures, ended⟩ := exists_of_succeeds (done i)
    have reached := (comes_pairPlay 8).reached i
    rw [ended] at reached
    exact ⟨_, reached⟩
  have older : ∃ plan ∈ (pairPlay 8).2.board.plans "net", plan.shownLatest ≠ plan.latest? := by
    decide +kernel
  obtain ⟨plan, left, wrong⟩ := older
  have found : stored Board.empty.plans (pairPlay 8).1 "net" = some plan :=
    (congrFun (comes_pairPlay 8).stored _).trans left
  exact wrong (claim Bool pair Board.empty.plans (pairPlay 8).1 "net" plan
    (interleaved_pairPlay 8) home apart (enlists_pairPlay done) ends found)

end InfraOperator.Catalog
