import InfraOperator.Proofs.Catalog.Pointer

/-!
# Leaving a plan

However the deletion cycles of a revision fail: when its finalizer is released, the plan lists the
others as it did before and this one no more. The plan then shows the latest of them, unless none of
them has a version, or no cycle has come to show one after the revision was taken off.
-/

set_option autoImplicit false

namespace InfraOperator.Catalog

/-- How the plan may differ later, where only the revision of that name leaves it and this is the
latest of the others. -/
structure Departs (name : String) (latest : Option PlanEntry) (plan after : Plan) : Prop where
  revisions : after.revisions = plan.revisions ∨ after.revisions = others name plan.revisions
  shown : after.shownLatest = plan.shownLatest ∨ after.shownLatest = latest.or plan.shownLatest

section Departs

variable {name : String} {latest : Option PlanEntry} {plan after final : Plan}

theorem Departs.refl : Departs name latest plan plan := ⟨.inl rfl, .inl rfl⟩

theorem Departs.trans (h : Departs name latest plan after)
    (later : Departs name latest after final) : Departs name latest plan final where
  revisions := by
    rcases later.revisions with same | same
    · rw [same]
      exact h.revisions
    · rw [same]
      rcases h.revisions with before | before
      · exact .inr (congrArg _ before)
      · rw [before, others_others]
        exact .inr rfl
  shown := by
    rcases later.shown with same | same
    · rw [same]
      exact h.shown
    · rw [same]
      rcases h.shown with before | before
      · exact .inr (congrArg _ before)
      · rw [before, ← Option.or_assoc, Option.or_self]
        exact .inr rfl

theorem Departs.off (h : Departs name latest plan after)
    (off : others name plan.revisions = plan.revisions) : after.revisions = plan.revisions := by
  rcases h.revisions with same | same
  · exact same
  · exact same.trans off

/-- The latest one stays shown. -/
theorem Departs.stays (h : Departs name latest plan after) (shows : plan.shownLatest = latest) :
    after.shownLatest = latest := by
  rcases h.shown with same | same
  · exact same.trans shows
  · rw [same, shows, Option.or_self]

theorem others_of_not_mentions (h : plan.mentions name = false) :
    others name plan.revisions = plan.revisions := by
  refine List.filter_eq_self.2 fun entry listed => decide_eq_true fun same => ?_
  exact List.any_eq_false.1 h entry listed (decide_eq_true same)

theorem Writes.leaves {r : Revision} {calls : PlanCalls} {call : RevisionCall} {was : Option Plan}
    (h : Writes r calls call was after) (deleting : r.metadata.isDeleting = true)
    (list : writesList call = true) : after.revisions = others r.name (entriesOf was) := by
  cases h with
  | makes joining => cases deleting.symm.trans joining.live
  | adds joining => cases deleting.symm.trans joining.live
  | removes leaving read revisions => exact revisions
  | shows => cases list

end Departs

section Interleaved

variable {ι : Type} [DecidableEq ι] {rounds : ι → Round} {past : List Plans} {first : Plans}
  {ms pre mid post : List (Moment ι)} {m : Moment ι} {i : ι} {name planName : String}
  {before plan : Plan}

/-- All cycles are deletion cycles of the revision of that name in that plan. -/
structure Departing (rounds : ι → Round) (name planName : String) : Prop where
  deleting : ∀ i, (rounds i).revision.metadata.isDeleting = true
  named : ∀ i, (rounds i).revision.name = name
  planned : ∀ i, (rounds i).revision.spec.planName = planName

theorem Interleaved.others_stay (h : Interleaved rounds past first ms)
    (departing : Departing rounds name planName) (found : first planName = some before)
    (parts : ms = pre ++ post) :
    ∃ plan, stored first pre planName = some plan ∧
      others name plan.revisions = others name before.revisions := by
  have parted : ms = [] ++ pre ++ post := parts
  refine stored_of_kept (fun plans => ∃ plan, plans planName = some plan ∧
    others name plan.revisions = others name before.revisions) parted ⟨before, found, rfl⟩ ?_
  rintro pre m post parts ⟨plan, now, same⟩
  rcases h.step parts with ⟨left, -⟩ | ⟨call, after, -, -, left, writes⟩
  · exact ⟨plan, left ▸ now, same⟩
  · rw [departing.planned m.asker, now] at writes
    rw [left, departing.planned m.asker, Function.update_self]
    have relists := writes.relists.others_eq
    rw [departing.named m.asker] at relists
    exact ⟨after, rfl, relists.trans same⟩

theorem Interleaved.read_others (h : Interleaved rounds past first ms)
    (departing : Departing rounds name planName) (found : first planName = some before)
    {read : Plan} (reads : readPlan planName (some read) ∈ ownCalls i ms) :
    others name read.revisions = others name before.revisions := by
  obtain ⟨front, rest, own⟩ := List.append_of_mem reads
  obtain ⟨pre, m, post, parts, -, -, was, -⟩ := h.read own
  obtain ⟨plan, now, same⟩ := h.others_stay departing found parts
  obtain rfl : read = plan := Option.some.inj (was.trans now)
  exact same

/-- Whatever is shown is the latest of the other revisions. -/
theorem Interleaved.latest_of_shows (h : Interleaved rounds past first ms)
    (departing : Departing rounds name planName) (found : first planName = some before)
    (shows : Shows (rounds i).revision (aboutPlans (ownCalls i ms)) plan) :
    plan.latest? = PlanEntry.latest? (others name before.revisions) := by
  rcases shows with ⟨joining, -⟩ | ⟨-, read, rfl, own⟩
  · cases (departing.deleting i).symm.trans joining.live
  · rw [departing.planned i] at own
    rw [departing.named i]
    exact congrArg PlanEntry.latest? (h.read_others departing found (mem_of_aboutPlans own))

theorem Interleaved.departs_step (h : Interleaved rounds past first ms)
    (departing : Departing rounds name planName) (found : first planName = some before)
    (parts : ms = pre ++ m :: post) (now : stored first pre planName = some plan) :
    ∃ after, m.plans planName = some after ∧
      Departs name (PlanEntry.latest? (others name before.revisions)) plan after := by
  rcases h.step parts with ⟨left, -⟩ | ⟨call, after, -, -, left, writes⟩
  · exact ⟨plan, left ▸ now, .refl⟩
  · rw [departing.planned m.asker, now] at writes
    rw [left, departing.planned m.asker, Function.update_self]
    refine ⟨after, rfl, ?_⟩
    generalize was : some plan = stored at writes
    generalize call.request = request at writes
    cases writes with
    | makes => cases was
    | adds joining => cases (departing.deleting m.asker).symm.trans joining.live
    | removes leaving read revisions status =>
      cases was
      rw [departing.named m.asker] at revisions
      exact ⟨.inr revisions, .inl (congrArg (·.getD none) status)⟩
    | shows shows revisions status =>
      cases was
      rw [(h.upTo parts).latest_of_shows departing found shows] at status
      exact ⟨.inl revisions, .inr (congrArg (·.getD none) status)⟩

theorem Interleaved.departs (h : Interleaved rounds past first ms)
    (departing : Departing rounds name planName) (found : first planName = some before)
    (parts : ms = pre ++ mid ++ post) (now : stored first pre planName = some plan) :
    ∃ after, stored first (pre ++ mid) planName = some after ∧
      Departs name (PlanEntry.latest? (others name before.revisions)) plan after := by
  refine stored_of_kept (fun plans => ∃ after, plans planName = some after ∧
    Departs name (PlanEntry.latest? (others name before.revisions)) plan after) parts
    ⟨plan, now, .refl⟩ ?_
  rintro pre m post parts ⟨middle, now, departs⟩
  obtain ⟨after, left, more⟩ := h.departs_step departing found parts now
  exact ⟨after, left, departs.trans more⟩

/-- A plan that a cycle has read is the one that was stored then, and the present one has come from
it. -/
theorem Interleaved.departs_read (h : Interleaved rounds past first ms)
    (departing : Departing rounds name planName) (found : first planName = some before)
    {read : Plan} (reads : readPlan planName (some read) ∈ ownCalls i ms) :
    ∃ now, stored first ms planName = some now ∧
      Departs name (PlanEntry.latest? (others name before.revisions)) read now := by
  obtain ⟨front, rest, own⟩ := List.append_of_mem reads
  obtain ⟨pre, m, post, parts, -, -, was, -⟩ := h.read own
  have parted : ms = pre ++ (m :: post) ++ [] := by simp [parts]
  obtain ⟨now, ends, departs⟩ := h.departs departing found parted was.symm
  rw [← parts] at ends
  exact ⟨now, ends, departs⟩

theorem Interleaved.departs_write (h : Interleaved rounds past first ms)
    (departing : Departing rounds name planName) (found : first planName = some before)
    {call : StoreCall RevisionStore} (called : call ∈ ownCalls i ms)
    (acknowledged : Acknowledged call) :
    ∃ pre post written now, ms = pre ++ post ∧
      Writes (rounds i).revision (aboutPlans (ownCalls i pre)) call.request
        (stored first pre planName) written ∧
      stored first ms planName = some now ∧
      Departs name (PlanEntry.latest? (others name before.revisions)) written now := by
  obtain ⟨pre, m, post, written, parts, -, left, writes⟩ := h.exists_write called acknowledged
  rw [departing.planned i] at left writes
  have parted : ms = (pre ++ [m]) ++ post ++ [] := by simp [parts]
  have soon : stored first (pre ++ [m]) planName = some written := by
    rw [stored_append]
    exact left
  obtain ⟨now, ends, departs⟩ := h.departs departing found parted soon
  rw [List.append_nil] at parted
  rw [← parted] at ends
  exact ⟨pre, m :: post, written, now, parts, writes, ends, departs⟩

def HasShown (planName : String) (ms : List (Moment ι)) : Prop :=
  ∃ i latest, answered (.patchPlanStatus planName latest) (.ok ()) ∈ ownCalls i ms

/-- The latest of the other revisions is shown since, if there is one. -/
theorem Interleaved.shown_of_hasShown (h : Interleaved rounds past first ms)
    (departing : Departing rounds name planName) (found : first planName = some before)
    (shown : HasShown planName ms) (now : stored first ms planName = some plan) :
    plan.shownLatest = PlanEntry.latest? (others name before.revisions) ∨
      PlanEntry.latest? (others name before.revisions) = none := by
  obtain ⟨i, latest, called⟩ := shown
  obtain ⟨pre, post, written, ended, parts, writes, ends, departs⟩ :=
    h.departs_write departing found called trivial
  obtain rfl := Option.some.inj (now.symm.trans ends)
  obtain ⟨earlier, was, -⟩ := h.others_stay departing found parts
  rw [was] at writes
  cases writes with
  | shows shows revisions status =>
    rw [(h.upTo parts).latest_of_shows departing found shows] at status
    cases remaining : PlanEntry.latest? (others name before.revisions) with
    | none => exact .inr rfl
    | some entry =>
      rw [remaining] at status departs
      exact .inl (departs.stays (congrArg (·.getD none) status))

theorem Interleaved.off_of_unlisted (h : Interleaved rounds past first ms)
    (departing : Departing rounds name planName) (found : first planName = some before)
    (now : stored first ms planName = some plan) {read : Plan}
    (reads : readPlan planName (some read) ∈ ownCalls i ms)
    (unmentioned : read.mentions name = false) :
    plan.revisions = others name before.revisions := by
  obtain ⟨_, ends, departs⟩ := h.departs_read departing found reads
  obtain rfl := Option.some.inj (now.symm.trans ends)
  have off := others_of_not_mentions unmentioned
  exact (departs.off off).trans (off.symm.trans (h.read_others departing found reads))

/-- A revision that was taken off by a write is off the plan. -/
theorem Interleaved.off_of_wrote (h : Interleaved rounds past first ms)
    (departing : Departing rounds name planName) (found : first planName = some before)
    (now : stored first ms planName = some plan) {written : Plan}
    (called : wrote written ∈ ownCalls i ms) :
    plan.revisions = others name before.revisions := by
  obtain ⟨pre, post, after, _, parts, writes, ends, departs⟩ :=
    h.departs_write departing found called trivial
  obtain rfl := Option.some.inj (now.symm.trans ends)
  obtain ⟨earlier, was, same⟩ := h.others_stay departing found parts
  have off : after.revisions = others name before.revisions := by
    rw [writes.leaves (departing.deleting i) rfl, departing.named i, was]
    exact same
  refine (departs.off ?_).trans off
  rw [off, others_others]

/-- No call is answered that the plan is missing. -/
theorem Interleaved.never_missing (h : Interleaved rounds past first ms)
    (departing : Departing rounds name planName) (found : first planName = some before)
    {call : StoreCall RevisionStore} (called : call ∈ ownCalls i ms) :
    ¬ ∀ now : Plans, Truthful now call → now planName = none := by
  intro missing
  obtain ⟨front, rest, own⟩ := List.append_of_mem called
  obtain ⟨pre, m, post, parts, -, calls, -, -⟩ := exists_moment own
  obtain ⟨plan, now, -⟩ := h.others_stay departing found parts
  have told : Truthful (stored first pre) call := by
    rcases h.step parts with ⟨-, told⟩ | ⟨made, -, calls', told, -, -⟩
    · exact (told call (calls ▸ List.mem_singleton_self _)).1
    · cases calls.symm.trans calls'
      exact told
  cases now.symm.trans (missing _ told)

/-- A revision that has left its plan is off it, and the others are listed as before. The latest of
them is shown, unless there is none or none has been shown yet. -/
theorem Interleaved.left_plan (h : Interleaved rounds past first ms)
    (departing : Departing rounds name planName) (found : first planName = some before)
    (left : Left planName name (aboutPlans (ownCalls i ms))) :
    ∃ plan, stored first ms planName = some plan ∧
      plan.revisions = others name before.revisions ∧
      (plan.shownLatest = PlanEntry.latest? (others name before.revisions) ∨
        PlanEntry.latest? (others name before.revisions) = none ∨ ¬ HasShown planName ms) := by
  obtain ⟨plan, now, -⟩ := h.others_stay departing found (List.append_nil ms).symm
  refine ⟨plan, now, ?_⟩
  have called : ∀ call ∈ aboutPlans (ownCalls i ms), call ∈ ownCalls i ms :=
    fun call mem => mem_of_mem_aboutPlans mem
  generalize aboutPlans (ownCalls i ms) = own at left called
  have named : ∀ {read : Plan}, readPlan planName (some read) ∈ own →
      (read.without name).name = planName :=
    fun reads => (h.named (called _ reads)).1
  cases left with
  | absent =>
    refine (h.never_missing departing found (called _ (List.mem_cons_self ..)) ?_).elim
    exact fun now told => told.symm
  | @unlisted read unmentioned =>
    have reads := called _ (List.mem_cons_self ..)
    refine ⟨h.off_of_unlisted departing found now reads unmentioned, ?_⟩
    by_cases shown : HasShown planName ms
    · exact (h.shown_of_hasShown departing found shown now).imp_right .inl
    · exact .inr (.inr shown)
  | removed read =>
    have reads := called _ (List.mem_cons_self ..)
    have written := called (wrote (read.without name)) (by simp)
    refine ⟨h.off_of_wrote departing found now written, ?_⟩
    by_cases shows : (read.without name).latest? = (read.without name).shownLatest
    · obtain ⟨_, ends, departs⟩ := h.departs_read departing found reads
      obtain rfl := Option.some.inj (now.symm.trans ends)
      have latest : (read.without name).latest? = _ :=
        congrArg PlanEntry.latest? (h.read_others departing found reads)
      exact .inl (departs.stays (shows.symm.trans latest))
    · have showed := called (showed (read.without name)) (by simp [showing, if_neg shows])
      rw [Catalog.showed, named (List.mem_cons_self ..)] at showed
      exact (h.shown_of_hasShown departing found ⟨i, _, showed⟩ now).imp_right .inl
  | @gone read e missing =>
    refine (h.never_missing departing found
      (called (answered (.patchPlanRevisions (read.without name)) (.error e)) (by simp)) ?_).elim
    exact fun now told => named (List.mem_cons_self ..) ▸ told missing
  | @vanished read e missing =>
    refine (h.never_missing departing found
      (called (answered (.patchPlanStatus (read.without name).name (read.without name).latest?)
        (.error e)) (by simp)) ?_).elim
    exact fun now told => named (List.mem_cons_self ..) ▸ told missing

/-- Where the plan was right before and the latest of the others is not shown, it is the deleted
revision that is. -/
theorem Interleaved.stale (h : Interleaved rounds past first ms)
    (departing : Departing rounds name planName) (found : first planName = some before)
    (right : PointsRight before) (now : stored first ms planName = some plan)
    (off : plan.revisions = others name before.revisions) (wrong : ¬ PointsRight plan) :
    ∃ entry, plan.shownLatest = some entry ∧ entry.name = name := by
  have parted : ms = [] ++ ms ++ [] := (List.append_nil ms).symm
  obtain ⟨after, ends, departs⟩ := h.departs departing found parted found
  obtain rfl := Option.some.inj (now.symm.trans ends)
  rw [PointsRight, Plan.latest?, off] at wrong
  generalize remaining : PlanEntry.latest? (others name before.revisions) = latest at wrong departs
  have shown : plan.shownLatest = before.latest? := by
    rcases departs.shown with same | same
    · exact same.trans right
    · cases latest with
      | none => exact same.trans right
      | some entry => exact absurd same wrong
  rw [shown] at wrong ⊢
  cases was : before.latest? with
  | none =>
    rw [was, ← remaining] at wrong
    exact absurd (PlanEntry.latest?_filter_of_none was).symm wrong
  | some entry =>
    refine ⟨entry, rfl, ?_⟩
    by_contra other
    rw [was, ← remaining] at wrong
    exact wrong (PlanEntry.latest?_filter_of_kept was (decide_eq_true other)).symm

/-- When the finalizer of a revision is released after any number of deletion cycles, however they
have failed, its plan does not list it any more, and the others as it did before. The plan then
shows the latest of them, or else it still shows the deleted one: since none of them has a version,
or since no cycle has come to show the latest. -/
theorem deleted_leaves (h : Interleaved rounds past first ms)
    (departing : Departing rounds name planName) (found : first planName = some before)
    (right : PointsRight before) (parts : ms = pre ++ m :: post) {call : StoreCall RevisionStore}
    (called : call ∈ Supervised.calls m.entry)
    (releases : call.request = releaseCall (m.revision rounds)) :
    ∃ plan, m.plans planName = some plan ∧ plan.revisions = others name before.revisions ∧
      (PointsRight plan ∨
        (∃ entry, plan.shownLatest = some entry ∧ entry.name = name) ∧
          (plan.latest? = none ∨ ¬ HasShown planName pre)) := by
  have asks := h.asks parts called
  obtain ⟨-, -, left⟩ := asks.ofFinalizer _ _ releases
  rw [departing.named m.asker, departing.planned m.asker] at left
  obtain ⟨plan, now, off, shown⟩ := (h.upTo parts).left_plan departing found left
  have still : m.plans = stored first pre := by
    rcases h.step parts with ⟨left, -⟩ | ⟨call', after, calls, -, -, writes⟩
    · exact left
    · rw [calls] at called
      obtain rfl := List.mem_singleton.1 called
      rw [releases] at writes
      cases writes
  have latest : plan.latest? = PlanEntry.latest? (others name before.revisions) :=
    congrArg PlanEntry.latest? off
  rw [← latest] at shown
  refine ⟨plan, (congrFun still _).trans now, off, ?_⟩
  by_cases points : PointsRight plan
  · exact .inl points
  · exact .inr ⟨(h.upTo parts).stale departing found right now off points,
      shown.resolve_left points⟩

/-- Where no other revision has a version, what is shown is never taken away. -/
theorem latest_never_cleared (h : Interleaved rounds past first ms)
    (departing : Departing rounds name planName) (found : first planName = some before)
    (unversioned : PlanEntry.latest? (others name before.revisions) = none) :
    ∃ plan, stored first ms planName = some plan ∧ plan.shownLatest = before.shownLatest := by
  have parted : ms = [] ++ ms ++ [] := (List.append_nil ms).symm
  obtain ⟨plan, now, departs⟩ := h.departs departing found parted found
  rw [unversioned] at departs
  exact ⟨plan, now, departs.shown.elim id id⟩

end Interleaved

theorem Contest.exists_release {ι : Type} [DecidableEq ι] {past : List Plans} (rounds : ι → Round)
    {board : Board} (turns : List ι) (numbered : board.Numbered past) {i : ι}
    (leaving : Leaving (rounds i).revision)
    (done : succeeds ((play turns (ofRounds rounds board)).2.programs i) = true) :
    ∃ pre m post answer, (play turns (ofRounds rounds board)).1 = pre ++ m :: post ∧ m.asker = i ∧
      Supervised.calls m.entry = [answered (releaseCall (rounds i).revision) answer] := by
  have comes : Comes past (ofRounds rounds board) _ _ := comes_play turns numbered
  have served : Served (rounds i).revision _ := served_of_succeeds (comes.reached i) done
  obtain ⟨answer, told, -⟩ := (served.left leaving).2
  obtain ⟨front, rest, own⟩ := List.append_of_mem told
  obtain ⟨pre, m, post, parts, asks, calls, -, -⟩ := exists_moment own
  exact ⟨pre, m, post, answer, parts, asks, calls⟩

def departures : Bool → Round := fun _ => ⟨{}, ofNet "2.0.0" true, .none⟩

theorem departing_departures : Departing departures "net-2.0.0" "net" where
  deleting _ := rfl
  named _ := rfl
  planned _ := rfl

theorem leaving_departures (i : Bool) : Leaving (departures i).revision where
  deleting := rfl
  held := show (ofNet "2.0.0" true).metadata.hasFinalizer cleanupFinalizer = true by decide

def twoVersions : Plan where
  metadata := {}
  revisions := [⟨"net-1.0.0", "1.0.0"⟩, ⟨"net-2.0.0", "2.0.0"⟩]
  status := some (some ⟨"net-2.0.0", "2.0.0"⟩)

def departureBoard (faults : List Bool) : Board := .ofPlan "net" twoVersions faults

def departureTurns : List Bool := List.replicate 30 false ++ List.replicate 30 true

def departure (faults : List Bool) : List (Moment Bool) × Contest Bool :=
  Contest.play departureTurns (Contest.ofRounds departures (departureBoard faults))

theorem interleaved_departure (faults : List Bool) :
    Interleaved departures [Board.empty.plans] (departureBoard faults).plans (departure faults).1 :=
  Contest.interleaved_play departures _ Board.sound_ofPlan Board.numbered_ofPlan

theorem departureBoard_plans (faults : List Bool) :
    (departureBoard faults).plans "net" = some (Board.stamp "net" 0 twoVersions) := rfl

theorem pointsRight_twoVersions : PointsRight (Board.stamp "net" 0 twoVersions) := by
  unfold PointsRight
  decide +kernel

theorem exists_departure {faults : List Bool} {i : Bool}
    (done : succeeds ((departure faults).2.programs i) = true) :
    ∃ pre m post answer, (departure faults).1 = pre ++ m :: post ∧ m.asker = i ∧
      Supervised.calls m.entry = [answered (releaseCall (departures i).revision) answer] := by
  have numbered : (departureBoard faults).Numbered [Board.empty.plans] := Board.numbered_ofPlan
  unfold departure at done ⊢
  exact Contest.exists_release departures departureTurns numbered (leaving_departures i) done

/-- Without a failure the plan lists and shows the remaining revision. -/
theorem deleted_leaves_twoVersions :
    (∃ pre m post plan, (departure []).1 = pre ++ m :: post ∧ m.asker = false ∧
      m.plans "net" = some plan ∧ plan.revisions = [⟨"net-1.0.0", "1.0.0"⟩] ∧
      (PointsRight plan ∨ ¬ HasShown "net" pre)) ∧
    ((departure []).2.board.plans "net").map Plan.shownLatest =
      some (some ⟨"net-1.0.0", "1.0.0"⟩) := by
  constructor
  · have done : succeeds ((departure []).2.programs false) = true := by decide +kernel
    obtain ⟨pre, m, post, answer, parts, asks, calls⟩ := exists_departure done
    obtain ⟨plan, now, off, shown⟩ := deleted_leaves (interleaved_departure [])
      departing_departures (departureBoard_plans []) pointsRight_twoVersions parts
      (calls ▸ List.mem_singleton_self _) rfl
    have off : plan.revisions = [⟨"net-1.0.0", "1.0.0"⟩] := off
    have versioned : plan.latest? ≠ none := by
      rw [Plan.latest?, off]
      decide +kernel
    exact ⟨pre, m, post, plan, parts, asks, now, off,
      shown.imp_right fun stale => stale.2.resolve_left versioned⟩
  · decide +kernel

/-- A cycle that fails to show the latest of the others has taken its revision off by then, and the
next one releases the finalizer without another look at it. -/
theorem deleted_still_shown : ¬ ∀ (ι : Type) [DecidableEq ι] (rounds : ι → Round)
    (past : List Plans) (first : Plans) (ms pre post : List (Moment ι)) (m : Moment ι)
    (name planName : String) (before plan : Plan) (call : StoreCall RevisionStore),
    Interleaved rounds past first ms → Departing rounds name planName →
    first planName = some before → PointsRight before → ms = pre ++ m :: post →
    call ∈ Supervised.calls m.entry → call.request = releaseCall (m.revision rounds) →
    m.plans planName = some plan →
    plan.mentions name = false ∧ plan.shownLatest = plan.latest? := by
  intro claim
  have done : succeeds ((departure [false, true]).2.programs true) = true := by decide +kernel
  obtain ⟨pre, m, post, answer, parts, asks, calls⟩ := exists_departure done
  have never : ∀ m ∈ (departure [false, true]).1, ∃ plan ∈ m.plans "net",
      plan.mentions "net-2.0.0" = true ∨ plan.shownLatest ≠ plan.latest? := by decide +kernel
  obtain ⟨plan, now, wrong⟩ := never m (parts ▸ List.mem_append_right _ (List.mem_cons_self ..))
  obtain ⟨off, points⟩ := claim Bool departures _ _ _ pre post m _ _ _ plan _
    (interleaved_departure _) departing_departures (departureBoard_plans _) pointsRight_twoVersions
    parts (calls ▸ List.mem_singleton_self _) rfl now
  rcases wrong with mentioned | wrong
  · cases off.symm.trans mentioned
  · exact wrong points

end InfraOperator.Catalog
