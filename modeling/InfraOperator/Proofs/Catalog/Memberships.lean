import InfraOperator.Proofs.Catalog.Stock

/-!
# Plans and the revisions that are stored

Every entry of a plan is that of a revision of the plan which the finalizer holds, or one that was
left behind when a revision was edited. Once cycles have settled all revisions, plans list all that
are to be listed, each once.
-/

set_option autoImplicit false

namespace InfraOperator.Catalog

section Entries

variable (edits : List (Revision × Revision)) (planName : String)

/-- The entry is that of a revision of the plan before an edit. -/
def Former (entry : PlanEntry) : Prop :=
  ∃ old new, (old, new) ∈ edits ∧ old.spec.planName = planName ∧ entryOf old = entry

def TakenOff (name : String) : Prop :=
  ∃ old new, (old, new) ∈ edits ∧ old.name = name ∧ old.spec.planName = planName ∧
    (new.spec.planName ≠ planName ∨ new.version? = none)

def LeftBehind (entry : PlanEntry) : Prop :=
  Former edits planName entry ∧ TakenOff edits planName entry.name

/-- The revision accounts for the entry, which may have been listed before it was edited. -/
structure Accounts (entry : PlanEntry) (r : Revision) : Prop where
  held : Held r
  versioned : r.version?.isSome = true
  named : r.name = entry.name
  planned : r.spec.planName = planName
  current : entryOf r = entry ∨ Former edits planName entry

end Entries

/-- What holds of all stocks. -/
structure Consistent (s : Stock) : Prop where
  distinct : (s.revisions.map Revision.name).Nodup
  sound : Sound (s.plans :: s.past)
  once : ∀ planName, ((entriesOf (s.plans planName)).map PlanEntry.name).Nodup
  accounted : ∀ planName, ∀ entry ∈ entriesOf (s.plans planName),
    LeftBehind s.edits planName entry ∨ ∃ r ∈ s.revisions, Accounts s.edits planName entry r

section Accounts

variable {edits : List (Revision × Revision)} {last : Revision × Revision} {planName : String}
  {entry : PlanEntry} {r after : Revision} {calls : PlanCalls} {s : Stock} {time : Instant}

theorem Former.cons (h : Former edits planName entry) : Former (last :: edits) planName entry := by
  obtain ⟨old, new, mem, rest⟩ := h
  exact ⟨old, new, List.mem_cons_of_mem _ mem, rest⟩

theorem LeftBehind.cons (h : LeftBehind edits planName entry) :
    LeftBehind (last :: edits) planName entry := by
  obtain ⟨former, old, new, mem, rest⟩ := h
  exact ⟨former.cons, old, new, List.mem_cons_of_mem _ mem, rest⟩

theorem Accounts.cons (h : Accounts edits planName entry r) :
    Accounts (last :: edits) planName entry r :=
  { h with current := h.current.imp_right Former.cons }

theorem Accounts.congr (h : Accounts edits planName entry r) (name : after.name = r.name)
    (spec : after.spec = r.spec) (held : Held after) : Accounts edits planName entry after where
  held := held
  versioned := by
    rw [version?_congr spec]
    exact h.versioned
  named := name.trans h.named
  planned := by
    rw [spec]
    exact h.planned
  current := by
    rw [entryOf, name, spec]
    exact h.current

theorem Accounts.edit (h : Accounts edits planName entry r) (edited : Edited r after) :
    LeftBehind ((r, after) :: edits) planName entry ∨
      Accounts ((r, after) :: edits) planName entry after := by
  have former : Former ((r, after) :: edits) planName entry := by
    rcases h.current with current | former
    · exact ⟨r, after, List.mem_cons_self .., h.planned, current⟩
    · exact former.cons
  by_cases kept : after.spec.planName = planName ∧ after.version?.isSome = true
  · exact .inr ⟨edited.held.2 h.held, kept.2, edited.name.trans h.named, kept.1, .inr former⟩
  · refine .inl ⟨former, r, after, List.mem_cons_self .., h.named, h.planned, ?_⟩
    by_cases home : after.spec.planName = planName
    · have unversioned : ¬ after.version?.isSome = true := fun versioned => kept ⟨home, versioned⟩
      exact .inr (Option.not_isSome_iff_eq_none.1 unversioned)
    · exact .inl home

/-- A revision that accounts for an entry is not gone when it is deleted. -/
theorem Accounts.delete (h : Accounts edits planName entry r) (time : Instant) :
    ∃ after, afterDelete time r = some after ∧ Accounts edits planName entry after := by
  have held : isHeld r = true := by
    refine decide_eq_true fun none => ?_
    have lists := h.held
    rw [Held, ObjectMeta.hasFinalizer, none] at lists
    cases lists
  exact ⟨condemned time r, if_pos held, h.congr rfl rfl h.held⟩

theorem Consistent.start {revisions : List Revision}
    (distinct : (revisions.map Revision.name).Nodup) :
    Consistent { revisions, plans := fun _ => none } where
  distinct := distinct
  sound := sound_start fun _ _ found => by cases found
  once _ := List.nodup_nil
  accounted _ := List.forall_mem_nil _

theorem Consistent.create (h : Consistent s) (fresh : r.name ∉ s.revisions.map Revision.name) :
    Consistent (s.create r) where
  distinct := List.nodup_cons.2 ⟨fresh, h.distinct⟩
  sound := h.sound
  once := h.once
  accounted planName entry listed := by
    rcases h.accounted planName entry listed with behind | ⟨r', mem, accounts⟩
    · exact .inl behind
    · exact .inr ⟨r', List.mem_cons_of_mem _ mem, accounts⟩

theorem Consistent.edit (h : Consistent s) (mem : r ∈ s.revisions) (edited : Edited r after) :
    Consistent (s.edit r after) where
  distinct := h.distinct.sublist (names_put fun _ found => Option.some.inj found ▸ edited.name)
  sound := h.sound
  once := h.once
  accounted planName entry listed := by
    rcases h.accounted planName entry listed with behind | ⟨r', mem', accounts⟩
    · exact .inl behind.cons
    by_cases same : r'.name = r.name
    · obtain rfl := eq_of_name h.distinct mem' mem same
      exact (accounts.edit edited).imp_right fun kept => ⟨after, mem_put_self mem rfl, kept⟩
    · exact .inr ⟨r', mem_put_of_ne mem' same, accounts.cons⟩

theorem Consistent.delete (h : Consistent s) (mem : r ∈ s.revisions) :
    Consistent (s.delete r time) where
  distinct := by
    refine h.distinct.sublist (names_put fun after found => ?_)
    unfold afterDelete at found
    split at found
    · cases found
      rfl
    · cases found
  sound := h.sound
  once := h.once
  accounted planName entry listed := by
    rcases h.accounted planName entry listed with behind | ⟨r', mem', accounts⟩
    · exact .inl behind
    by_cases same : r'.name = r.name
    · obtain rfl := eq_of_name h.distinct mem' mem same
      obtain ⟨after, found, kept⟩ := accounts.delete time
      exact .inr ⟨after, mem_put_self mem found, kept⟩
    · exact .inr ⟨r', mem_put_of_ne mem' same, accounts⟩

end Accounts

section Run

variable {s : Stock} {r : Revision} {settings : Settings} {failures : Failures}
  {ms : List (Moment Unit)} {left : Option Revision} {settles : Bool}

theorem Consistent.run (h : Consistent s)
    (run : Interleaved (alone settings r failures) s.past s.plans ms) (mem : r ∈ s.revisions)
    (treated : Treated r (ownCalls () ms) left) : Consistent (s.run r ms left settles) where
  distinct := by
    refine h.distinct.sublist (names_put fun after found => ?_)
    subst found
    exact treated.name
  sound := run.history.sound h.sound
  once planName := run.nodup_alone (h.once planName)
  accounted planName entry listed := by
    -- The revision of the cycle stays held as long as its entry is listed.
    have stays : Accounts s.edits planName entry r → ∃ after, left = some after ∧
        Accounts s.edits planName entry after := by
      intro accounts
      have kept : ¬ AsksRelease r (ownCalls () ms) := by
        intro asks
        refine (run.off_alone asks).2 entry ?_ accounts.named.symm
        rw [accounts.planned]
        exact listed
      obtain ⟨after, rfl, held⟩ := treated.stays accounts.held kept
      exact ⟨after, rfl, accounts.congr treated.name treated.spec held⟩
    have known : LeftBehind s.edits planName entry ∨
        ∃ r' ∈ s.revisions, Accounts s.edits planName entry r' := by
      rcases run.origin listed with old | ⟨joining, home, new⟩
      · exact h.accounted planName entry old
      · refine .inr ⟨r, mem, joining.held, joining.versioned, ?_, home.symm, .inl new.symm⟩
        rw [new]
        rfl
    rcases known with behind | ⟨r', mem', accounts⟩
    · exact .inl behind
    by_cases same : r'.name = r.name
    · obtain rfl := eq_of_name h.distinct mem' mem same
      obtain ⟨after, found, kept⟩ := stays accounts
      exact .inr ⟨after, mem_put_self mem found, kept⟩
    · exact .inr ⟨r', mem_put_of_ne mem' same, accounts⟩

end Run

/-! ## Settled revisions -/

/-- A cycle over the revision has its plan list it, if it succeeds, or takes it off. -/
def isReady (r : Revision) : Bool :=
  r.metadata.isDeleting || r.metadata.hasFinalizer cleanupFinalizer

structure Settled (s : Stock) : Prop where
  listed : ∀ r ∈ s.revisions, r.name ∈ s.settled → r.metadata.isDeleting = false →
    r.version?.isSome = true → entryOf r ∈ entriesOf (s.plans r.spec.planName)
  released : ∀ r ∈ s.revisions, r.name ∈ s.settled → r.metadata.isDeleting = true → ¬ Held r

section Settled

variable {s s' : Stock} {r after : Revision} {time : Instant} {settings : Settings}
  {failures : Failures} {ms : List (Moment Unit)} {left : Option Revision}
  {rest : Program (Supervised RevisionStore) (Outcome Action × Failures)} {name : String}

theorem Settled.congr (h : Settled s) (plans : s'.plans = s.plans)
    (before : ∀ r ∈ s'.revisions, r.name ∈ s'.settled → r ∈ s.revisions ∧ r.name ∈ s.settled) :
    Settled s' where
  listed r mem settled live versioned := by
    obtain ⟨mem, settled⟩ := before r mem settled
    rw [plans]
    exact h.listed r mem settled live versioned
  released r mem settled deleting := by
    obtain ⟨mem, settled⟩ := before r mem settled
    exact h.released r mem settled deleting

theorem mem_unsettled : name ∈ s.unsettled r.name ↔ name ∈ s.settled ∧ name ≠ r.name := by
  simp [Stock.unsettled]

theorem Settled.create (h : Settled s) : Settled (s.create r) := by
  refine h.congr rfl fun r' mem settled => ?_
  obtain ⟨settled, other⟩ := mem_unsettled.1 settled
  rcases List.mem_cons.1 mem with rfl | mem
  · exact absurd rfl other
  · exact ⟨mem, settled⟩

theorem Settled.put (h : Settled s) (named : ∀ after, left = some after → after.name = r.name)
    (edits : List (Revision × Revision)) :
    Settled { s with
      revisions := put r.name left s.revisions
      settled := s.unsettled r.name
      edits } := by
  refine h.congr rfl fun r' mem settled => ?_
  obtain ⟨settled, other⟩ := mem_unsettled.1 settled
  rcases mem_put.1 mem with ⟨mem, -⟩ | ⟨found, -⟩
  · exact ⟨mem, settled⟩
  · exact absurd (named r' found) other

theorem Settled.edit (h : Settled s) (edited : Edited r after) : Settled (s.edit r after) :=
  h.put (fun _ found => Option.some.inj found ▸ edited.name) _

theorem Settled.delete (h : Settled s) : Settled (s.delete r time) := by
  refine h.put (fun after found => ?_) _
  unfold afterDelete at found
  split at found
  · cases found
    rfl
  · cases found

/-- A cycle that succeeds over a live revision that is held has it listed. -/
theorem Interleaved.listed_of_succeeds
    (run : Interleaved (alone settings r failures) s.past s.plans ms)
    (reached : (reconcile settings r failures).Reaches (own () ms) rest)
    (succeeded : succeeds rest = true) (joining : Joining r) :
    entryOf r ∈ entriesOf (stored s.plans ms r.spec.planName) :=
  run.listed_alone joining.live ((served_of_succeeds reached succeeded).joined joining)

theorem mem_settled_run {settles : Bool} (h : name ∈ (s.run r ms left settles).settled) :
    name ∈ s.settled ∨ name = r.name ∧ settles = true := by
  unfold Stock.run at h
  simp only at h
  split at h
  · next on => exact (List.mem_cons.1 h).symm.imp_right fun same => ⟨same, on⟩
  · exact .inl h

theorem Settled.run (h : Settled s)
    (run : Interleaved (alone settings r failures) s.past s.plans ms) (mem : r ∈ s.revisions)
    (reached : (reconcile settings r failures).Reaches (own () ms) rest)
    (treated : Treated r (ownCalls () ms) left) :
    Settled (s.run r ms left (succeeds rest && isReady r)) where
  listed r' mem' settled live versioned := by
    have parted : ms = [] ++ ms ++ [] := (List.append_nil ms).symm
    rcases mem_put.1 mem' with ⟨mem', other⟩ | ⟨rfl, -⟩
    · have settled := (mem_settled_run settled).resolve_right fun new => other new.1
      exact run.stays_alone parted (h.listed r' mem' settled live versioned) (.inl (Ne.symm other))
    · have same : entryOf r' = entryOf r := by rw [entryOf, entryOf, treated.name, treated.spec]
      rw [treated.deleting] at live
      rw [version?_congr treated.spec] at versioned
      rw [treated.name] at settled
      rw [same, treated.spec]
      rcases mem_settled_run settled with before | ⟨-, settles⟩
      · exact run.stays_alone parted (h.listed r mem before live versioned) (.inr ⟨live, rfl⟩)
      · obtain ⟨succeeded, ready⟩ := (Bool.and_eq_true ..).mp settles
        rw [isReady, live, Bool.false_or] at ready
        exact run.listed_of_succeeds reached succeeded ⟨live, ready, versioned⟩
  released r' mem' settled deleting := by
    rcases mem_put.1 mem' with ⟨mem', other⟩ | ⟨rfl, -⟩
    · have settled := (mem_settled_run settled).resolve_right fun new => other new.1
      exact h.released r' mem' settled deleting
    · rw [treated.deleting] at deleting
      rw [treated.name] at settled
      refine treated.free reached deleting ?_
      rcases mem_settled_run settled with before | ⟨-, settles⟩
      · exact .inr (h.released r mem before deleting)
      · exact .inl ((Bool.and_eq_true ..).mp settles).1

end Settled

namespace Stock.Arises

variable {counts : Revision → Bool} {s : Stock}

theorem consistent (h : s.Arises counts) : Consistent s := by
  induction h with
  | start distinct => exact .start distinct
  | create _ fresh _ ih => exact ih.create fresh
  | edit _ mem edited ih => exact ih.edit mem edited
  | delete _ mem time ih => exact ih.delete mem
  | @run s r settings failures ms after rest _ mem history reached treated ih =>
    have run : Interleaved (alone settings r failures) s.past s.plans ms :=
      ⟨ih.sound, history, fun _ => ⟨rest, reached⟩⟩
    exact ih.run run mem treated

theorem settled (h : s.Arises isReady) : Settled s := by
  induction h with
  | start =>
    exact ⟨fun _ _ unsettled => (List.not_mem_nil unsettled).elim,
      fun _ _ unsettled => (List.not_mem_nil unsettled).elim⟩
  | create _ _ _ ih => exact ih.create
  | edit _ _ edited ih => exact ih.edit edited
  | delete _ _ _ ih => exact ih.delete
  | @run s r settings failures ms after rest before mem history reached treated ih =>
    have run : Interleaved (alone settings r failures) s.past s.plans ms :=
      ⟨before.consistent.sound, history, fun _ => ⟨rest, reached⟩⟩
    exact ih.run run mem reached treated

end Stock.Arises

structure IsMember (planName : String) (r : Revision) : Prop where
  live : r.metadata.isDeleting = false
  planned : r.spec.planName = planName
  versioned : r.version?.isSome = true

/-- Whatever users do, and however the cycles end that run over the revisions one at a time: once a
cycle has succeeded over each revision since its last edit, having found it held or being deleted,
each plan lists every live revision that it is to list, in its current version, and no name twice.
Whatever else it lists is what a revision of that name was before an edit, and of a name that an
edit has taken off the plan, or left without a version. -/
theorem plans_list_live {s : Stock} (h : s.Arises isReady)
    (settled : ∀ r ∈ s.revisions, r.name ∈ s.settled) (planName : String) :
    ((entriesOf (s.plans planName)).map PlanEntry.name).Nodup ∧
    (∀ r ∈ s.revisions, IsMember planName r → entryOf r ∈ entriesOf (s.plans planName)) ∧
    ∀ entry ∈ entriesOf (s.plans planName),
      (∃ r ∈ s.revisions, IsMember planName r ∧ entryOf r = entry) ∨
        LeftBehind s.edits planName entry := by
  have once := h.consistent.once planName
  have lists : ∀ r ∈ s.revisions, IsMember planName r →
      entryOf r ∈ entriesOf (s.plans planName) := by
    rintro r mem ⟨live, rfl, versioned⟩
    exact h.settled.listed r mem (settled r mem) live versioned
  refine ⟨once, lists, fun entry listed => ?_⟩
  rcases h.consistent.accounted planName entry listed with behind | ⟨r, mem, accounts⟩
  · exact .inr behind
  have live : r.metadata.isDeleting = false := by
    refine Bool.eq_false_iff.2 fun deleting => ?_
    exact h.settled.released r mem (settled r mem) deleting accounts.held
  have member : IsMember planName r := ⟨live, accounts.planned, accounts.versioned⟩
  exact .inl ⟨r, mem, member,
    List.inj_on_of_nodup_map once (lists r mem member) listed accounts.named⟩

/-! ## Stocks on a board -/

def solo (r : Revision) (board : Board) : List (Moment Unit) × Contest Unit :=
  Contest.play (List.replicate 40 ()) (Contest.ofRounds (alone {} r .none) board)

abbrev Scene := Stock × Board

namespace Scene

def run (counts : Revision → Bool) (r : Revision) (after : Option Revision) (s : Scene) : Scene :=
  (s.1.run r (solo r s.2).1 after (succeeds ((solo r s.2).2.programs ()) && counts r),
    (solo r s.2).2.board)

def edit (r after : Revision) (s : Scene) : Scene := (s.1.edit r after, s.2)

def delete (r : Revision) (time : Instant) (s : Scene) : Scene := (s.1.delete r time, s.2)

def create (r : Revision) (s : Scene) : Scene := (s.1.create r, s.2)

def start (revisions : List Revision) : Scene :=
  ({ revisions, plans := fun _ => none }, .empty)

/-- The stock has come about with its plans on the board. -/
structure Arises (counts : Revision → Bool) (s : Scene) : Prop where
  stock : s.1.Arises counts
  plans : s.1.plans = s.2.plans
  numbered : s.2.Numbered s.1.past

variable {counts : Revision → Bool} {s : Scene} {r : Revision}

theorem arises_start {revisions : List Revision} (distinct : (revisions.map Revision.name).Nodup) :
    (start revisions).Arises counts :=
  ⟨.start distinct, rfl, Board.numbered_empty⟩

namespace Arises

theorem edit {after : Revision} (h : s.Arises counts) (mem : r ∈ s.1.revisions)
    (edited : Edited r after) : (s.edit r after).Arises counts :=
  ⟨.edit h.stock mem edited, h.plans, h.numbered⟩

theorem delete (h : s.Arises counts) (mem : r ∈ s.1.revisions) (time : Instant) :
    (s.delete r time).Arises counts :=
  ⟨.delete h.stock mem time, h.plans, h.numbered⟩

theorem create (h : s.Arises counts) (unused : r.name ∉ s.1.revisions.map Revision.name)
    (live : r.metadata.isDeleting = false) : (s.create r).Arises counts :=
  ⟨.create h.stock unused live, h.plans, h.numbered⟩

theorem comes (h : s.Arises counts) (r : Revision) :
    Contest.Comes s.1.past (Contest.ofRounds (alone {} r .none) s.2) (solo r s.2).1
      (solo r s.2).2 :=
  Contest.comes_play _ h.numbered

theorem run {after : Option Revision} (h : s.Arises counts) (mem : r ∈ s.1.revisions)
    (treated : Treated r (ownCalls () (solo r s.2).1) after) :
    (s.run counts r after).Arises counts := by
  obtain ⟨⟨revisions, plans, past, settled, edits⟩, board⟩ := s
  obtain ⟨stock, same, numbered⟩ := h
  obtain rfl : plans = board.plans := same
  have comes := comes ⟨stock, rfl, numbered⟩ r
  exact ⟨.run stock mem comes.history (comes.reached ()) treated, comes.stored, comes.numbered⟩

theorem not_released (h : s.Arises counts) (kept : ¬ Leaving r) :
    ¬ AsksRelease r (ownCalls () (solo r s.2).1) := by
  have sound : Sound (s.2.plans :: s.1.past) := h.plans ▸ h.stock.consistent.sound
  have run : Interleaved (alone {} r .none) s.1.past s.2.plans (solo r s.2).1 :=
    Contest.interleaved_play _ _ sound h.numbered
  exact fun asks => kept (run.off_alone asks).1

theorem run_held (h : s.Arises counts) (mem : r ∈ s.1.revisions)
    (live : r.metadata.isDeleting = false) (held : Held r) :
    (s.run counts r (some r)).Arises counts := by
  have kept := h.not_released (r := r) fun leaving => by cases live.symm.trans leaving.deleting
  exact h.run mem (.stored rfl rfl rfl (fun _ free => absurd held free)
    (fun released => absurd released.asks kept) (fun _ => .inl held) fun _ => held)

theorem run_deleted (h : s.Arises counts) (mem : r ∈ s.1.revisions) (leaving : Leaving r)
    (done : succeeds ((solo r s.2).2.programs ()) = true) :
    (s.run counts r none).Arises counts := by
  have served : Served r _ := served_of_succeeds ((h.comes r).reached ()) done
  exact h.run mem (.gone leaving.deleting (served.left leaving).2.asks)

/-- A revision that is not held gets its finalizer. -/
theorem run_free (h : s.Arises counts) (mem : r ∈ s.1.revisions) (free : ¬ Held r)
    (asks : (ownCalls () (solo r s.2).1).any (fun call => isHold r call.request) = true) :
    (s.run counts r (some (withHold r))).Arises counts := by
  have kept := h.not_released (r := r) fun leaving => free leaving.held
  obtain ⟨call, called, holds⟩ := List.any_eq_true.1 asks
  exact h.run mem (.stored rfl rfl rfl (fun held _ => absurd held free)
    (fun released => absurd released.asks kept)
    (fun _ => .inr ⟨call, called, eq_of_isHold holds⟩) fun _ => held_withHold)

end Arises

end Scene

def moved : Revision :=
  { ofNet "2.0.0" false with spec := { (ofNet "2.0.0" false).spec with planName := "other" } }

theorem edited_moved : Edited (ofNet "2.0.0" false) moved := ⟨rfl, rfl, Iff.rfl⟩

def movedScene : Scene :=
  Scene.start [ofNet "1.0.0" false, ofNet "2.0.0" false]
  |>.run isReady (ofNet "1.0.0" false) (some (ofNet "1.0.0" false))
  |>.run isReady (ofNet "2.0.0" false) (some (ofNet "2.0.0" false))
  |>.edit (ofNet "2.0.0" false) moved
  |>.delete (ofNet "1.0.0" false) (.ofSeconds 0)
  |>.run isReady (ofNet "1.0.0" true) none
  |>.run isReady moved (some moved)

theorem arises_movedScene : movedScene.Arises isReady :=
  Scene.arises_start (by decide +kernel)
  |>.run_held (by decide +kernel) rfl (by decide +kernel)
  |>.run_held (by decide +kernel) rfl (by decide +kernel)
  |>.edit (by decide +kernel) edited_moved
  |>.delete (by decide +kernel) (.ofSeconds 0)
  |>.run_deleted (by decide +kernel) ⟨rfl, by decide +kernel⟩ (by decide +kernel)
  |>.run_held (by decide +kernel) rfl (by decide +kernel)

/-- The revision that was moved is listed where it is now, and left behind where it was. -/
theorem plans_list_live_moved :
    movedScene.1.revisions = [moved] ∧ entryOf moved ∈ entriesOf (movedScene.1.plans "other") ∧
    entriesOf (movedScene.1.plans "net") = [entryOf moved] ∧
    LeftBehind movedScene.1.edits "net" (entryOf moved) := by
  have revisions : movedScene.1.revisions = [moved] := by decide +kernel
  have settled : ∀ r ∈ movedScene.1.revisions, r.name ∈ movedScene.1.settled := by decide +kernel
  have net : entriesOf (movedScene.1.plans "net") = [entryOf moved] := by
    rw [arises_movedScene.plans]
    decide +kernel
  obtain ⟨-, lists, -⟩ := plans_list_live arises_movedScene.stock settled "other"
  obtain ⟨-, -, origin⟩ := plans_list_live arises_movedScene.stock settled "net"
  rw [revisions] at lists origin
  refine ⟨revisions, ?_, net, ?_⟩
  · exact lists moved (List.mem_singleton_self _) ⟨rfl, rfl, by decide +kernel⟩
  · rcases origin _ (net ▸ List.mem_singleton_self _) with ⟨r, mem, member, -⟩ | behind
    · cases List.mem_singleton.1 mem
      exact absurd member.planned (by decide)
    · exact behind

def spoiled : Revision :=
  { ofNet "1.0.0" false with spec := { (ofNet "1.0.0" false).spec with version := "one" } }

theorem edited_spoiled : Edited (ofNet "1.0.0" false) spoiled := ⟨rfl, rfl, Iff.rfl⟩

def fresh : Revision :=
  { ofNet "3.0.0" false with metadata := { name := some "net-3.0.0" } }

def strayScene : Scene :=
  Scene.start [ofNet "1.0.0" false, ofNet "2.0.0" false]
  |>.run (fun _ => true) (ofNet "1.0.0" false) (some (ofNet "1.0.0" false))
  |>.run (fun _ => true) (ofNet "2.0.0" false) (some (ofNet "2.0.0" false))
  |>.edit (ofNet "1.0.0" false) spoiled
  |>.edit (ofNet "2.0.0" false) moved
  |>.create fresh
  |>.run (fun _ => true) spoiled (some spoiled)
  |>.run (fun _ => true) moved (some moved)
  |>.run (fun _ => true) fresh (some (withHold fresh))

theorem arises_strayScene : strayScene.Arises fun _ => true :=
  Scene.arises_start (by decide +kernel)
  |>.run_held (by decide +kernel) rfl (by decide +kernel)
  |>.run_held (by decide +kernel) rfl (by decide +kernel)
  |>.edit (by decide +kernel) edited_spoiled
  |>.edit (by decide +kernel) edited_moved
  |>.create (r := fresh) (by decide +kernel) rfl
  |>.run_held (r := spoiled) (by decide +kernel) rfl (by decide +kernel)
  |>.run_held (r := moved) (by decide +kernel) rfl (by decide +kernel)
  |>.run_free (r := fresh) (by decide +kernel) (by decide +kernel) (by decide +kernel)

/-- A cycle has succeeded over each revision, whatever it has found. -/
def AllServed (s : Stock) : Prop :=
  s.Arises (fun _ => true) ∧ ∀ r ∈ s.revisions, r.name ∈ s.settled

theorem allServed_strayScene : AllServed strayScene.1 :=
  ⟨arises_strayScene.stock, by decide +kernel⟩

theorem strayScene_net :
    entriesOf (strayScene.1.plans "net") = [⟨"net-1.0.0", "1.0.0"⟩, ⟨"net-2.0.0", "2.0.0"⟩] := by
  rw [arises_strayScene.plans]
  decide +kernel

/-- The first cycle over a new revision succeeds and does not list it. And where a revision has
moved to another plan or lost its version, cycles that succeed do not take it off. -/
theorem strays_listed :
    (¬ ∀ s, AllServed s → ∀ planName, ∀ r ∈ s.revisions, IsMember planName r →
      entryOf r ∈ entriesOf (s.plans planName)) ∧
    ¬ ∀ s, AllServed s → ∀ planName, ∀ entry ∈ entriesOf (s.plans planName),
      ∃ r ∈ s.revisions, IsMember planName r ∧ entryOf r = entry := by
  have revisions : strayScene.1.revisions = [withHold fresh, spoiled, moved] := by decide +kernel
  constructor
  · intro claim
    have members := claim strayScene.1 allServed_strayScene "net"
    rw [revisions, strayScene_net] at members
    have member : IsMember "net" (withHold fresh) := ⟨rfl, rfl, by decide +kernel⟩
    exact absurd (members _ (List.mem_cons_self ..) member) (by decide)
  · intro claim
    have entries := claim strayScene.1 allServed_strayScene "net"
    rw [revisions, strayScene_net] at entries
    obtain ⟨r, mem, member, same⟩ := entries ⟨"net-2.0.0", "2.0.0"⟩ (by decide)
    simp only [List.mem_cons, List.not_mem_nil, or_false] at mem
    rcases mem with rfl | rfl | rfl
    · exact absurd same (by decide)
    · exact absurd same (by decide)
    · exact absurd member.planned (by decide)

end InfraOperator.Catalog
