import InfraOperator.Proofs.Catalog.Pointer
import InfraOperator.Proofs.Undisturbed

/-!
# Admission to a plan

A revision gets listed by reading its plan, writing its list and then its status. Nobody else works
on the plan meanwhile, but calls fail and cycles are broken off. Whatever earlier attempts have
left, an attempt that succeeds leaves the plan in one and the same form, in which further attempts
find nothing to write.
-/

set_option autoImplicit false

namespace InfraOperator.Catalog

/-- What a call may leave of the plans while nobody else works on them. -/
def Lone (now : Plans) (call : StoreCall RevisionStore) (after : Plans) : Prop :=
  Serves [] now [call] after

/-- A cycle over the revision as it is named and specified now. -/
structure About (r : Revision) (c : RevisionCycle) : Prop where
  name : c.resource.name = r.name
  spec : c.resource.spec = r.spec

def attempt (c : RevisionCycle) :
    Program (Supervised RevisionStore) (Option Verdict × RevisionCycle) :=
  Staged.watch (ensurePlanMembership.run.run c)

def Attempts : List RevisionCycle → Plans → Plans → Prop
  | [], first, last => last = first
  | c :: cs, first, last => ∃ run rest next, (attempt c).Reaches run rest ∧
      Carries Lone first (run.flatMap Supervised.calls) next ∧ Attempts cs next last

/-- What no attempt changes, and what it relies on. -/
structure Kept (r : Revision) (first now : Plans) : Prop where
  apart : ∀ name, name ≠ r.spec.planName → now name = first name
  others_eq : others r.name (entriesOf (now r.spec.planName)) =
    others r.name (entriesOf (first r.spec.planName))
  distinct : ((entriesOf (now r.spec.planName)).map PlanEntry.name).Nodup
  named : ∀ plan, now r.spec.planName = some plan → plan.name = r.spec.planName

/-- The revision is listed once, under its present version, and its plan shows the latest revision
of its list. -/
structure Admitted (r : Revision) (now : Plans) (plan : Plan) : Prop where
  stored : now r.spec.planName = some plan
  own : plan.revisions.filter (·.name = r.name) = [entryOf r]
  pointsRight : PointsRight plan

section Attempts

variable {r : Revision} {c : RevisionCycle} {cs : List RevisionCycle} {first start now next : Plans}
  {planName name : String} {entry : PlanEntry} {plan : Plan} {before calls pre : PlanCalls}
  {call : StoreCall RevisionStore}

/-! ## Calls -/

theorem Lone.effect (h : Lone now call next) : next = now ∨
    ∃ name after, Effect name call.request (now name) after ∧
      (now name = some after ∨ after.name = name) ∧
      next = Function.update now name (some after) := by
  cases h with
  | kept => exact .inl rfl
  | carried truthful effect new =>
    refine .inr ⟨_, _, effect, new.imp_right fun new => ?_, rfl⟩
    rw [Plan.name, ObjectMeta.displayName, new.named]
    rfl

/-- A write that is acknowledged takes effect. -/
theorem Lone.acknowledged (h : Lone now call next) (done : Acknowledged call) :
    ∃ name after, Effect name call.request (now name) after ∧
      next = Function.update now name (some after) := by
  cases h with
  | kept _ undone => exact absurd done undone
  | carried _ effect => exact ⟨_, _, effect, rfl⟩

theorem carries_readPlan {found : Option Plan} :
    Carries Lone start (readPlan planName found :: calls) next ↔
      found = start planName ∧ Carries Lone start calls next := by
  constructor
  · rintro ⟨mid, served, later⟩
    obtain ⟨read, rfl⟩ := Serves.of_read served
    exact ⟨read, later⟩
  · rintro ⟨read, later⟩
    exact ⟨start, .kept read id, later⟩

/-- What is known of the stored plan after the calls by which the revision got listed. -/
theorem Basis.stored (h : Basis planName entry before plan)
    (named : ∀ plan, start planName = some plan → plan.name = planName)
    (carried : Carries Lone start before now) :
    plan.name = planName ∧ ∃ stored, now planName = some stored ∧
      stored.revisions = plan.revisions ∧ stored.shownLatest = plan.shownLatest := by
  cases h with
  | listed lists =>
    obtain ⟨read, rfl⟩ := carries_readPlan.1 carried
    exact ⟨named plan read.symm, plan, read.symm, rfl, rfl⟩
  | created =>
    obtain ⟨read, carried⟩ := carries_readPlan.1 carried
    obtain ⟨name, after, effect, rfl⟩ := Lone.acknowledged (carries_singleton.1 carried) trivial
    generalize stored : start name = found at effect
    cases effect with
    | made title revisions status =>
      obtain rfl : planName = name := title
      refine ⟨rfl, after, Function.update_self .., revisions, ?_⟩
      rw [Plan.shownLatest, status]
      rfl
  | @added read unlisted =>
    obtain ⟨found, carried⟩ := carries_readPlan.1 carried
    obtain ⟨name, after, effect, rfl⟩ := Lone.acknowledged (carries_singleton.1 carried) trivial
    have home : read.name = planName := named read found.symm
    generalize stored : start name = there at effect
    cases effect with
    | listed title current revisions status =>
      obtain rfl : name = planName := title.symm.trans home
      cases found.trans stored
      refine ⟨home, after, Function.update_self .., revisions, ?_⟩
      rw [Plan.shownLatest, status]
      rfl

/-! ## One call -/

theorem Kept.origin
    (named : ∀ plan, first r.spec.planName = some plan → plan.name = r.spec.planName)
    (distinct : ((entriesOf (first r.spec.planName)).map PlanEntry.name).Nodup) :
    Kept r first first :=
  ⟨fun _ _ => rfl, rfl, distinct, named⟩

theorem Kept.update (h : Kept r first now) {after : Plan}
    (others_eq : others r.name after.revisions =
      others r.name (entriesOf (now r.spec.planName)))
    (distinct : (after.revisions.map PlanEntry.name).Nodup)
    (named : now r.spec.planName = some after ∨ after.name = r.spec.planName) :
    Kept r first (Function.update now r.spec.planName (some after)) where
  apart name other := (Function.update_of_ne other ..).trans (h.apart name other)
  others_eq := by
    rw [Function.update_self]
    exact others_eq.trans h.others_eq
  distinct := by
    rw [Function.update_self]
    exact distinct
  named plan stored := by
    rw [Function.update_self] at stored
    cases stored
    exact named.elim (h.named after) id

/-- Each call of an attempt keeps what is to be kept. -/
theorem Kept.step (h : Kept r first now) (begun : Kept r first start)
    (asks : JoinAsks r.spec.planName (entryOf r) pre call.request)
    (past : Carries Lone start pre now) (served : Lone now call next) : Kept r first next := by
  obtain rfl | ⟨name, after, effect, named, rfl⟩ := served.effect
  · exact h
  obtain ⟨request, answer⟩ := call
  generalize stored : now name = there at effect named
  cases asks with
  | read => cases effect
  | create =>
    cases effect with
    | made title revisions status =>
      obtain rfl : r.spec.planName = name := title
      have only : after.revisions = others r.name [] ++ [entryOf r] := revisions
      refine h.update ?_ ?_ (stored ▸ named)
      · rw [only, stored]
        exact others_joined
      · rw [only]
        exact nodup_joined List.nodup_nil
  | @add read unlisted =>
    obtain ⟨found, rfl⟩ := carries_readPlan.1 past
    cases effect with
    | listed title current revisions status =>
      obtain rfl : name = r.spec.planName := title.symm.trans (h.named read found.symm)
      cases found.trans stored
      have joined : after.revisions = others r.name read.revisions ++ [entryOf r] := revisions
      have listed : entriesOf (now r.spec.planName) = read.revisions := by rw [stored]; rfl
      refine h.update ?_ ?_ (stored ▸ named)
      · rw [joined, listed]
        exact others_joined
      · rw [joined]
        exact nodup_joined (listed ▸ h.distinct)
  | shows basis other =>
    cases effect with
    | @shown _ was _ revisions status =>
      obtain ⟨home, -⟩ := basis.stored begun.named past
      rw [home] at stored ⊢
      have listed : entriesOf (now r.spec.planName) = after.revisions := by
        rw [stored, revisions]
        rfl
      refine h.update ?_ (listed ▸ h.distinct) ?_
      · rw [listed]
      · rw [stored]
        exact home ▸ named

/-! ## Attempts -/

theorem asks_of_attempt {run : List (Answered (Supervised RevisionStore))}
    {rest : Program (Supervised RevisionStore) (Option Verdict × RevisionCycle)} (about : About r c)
    (reached : (attempt c).Reaches run rest) {post : PlanCalls}
    (parts : run.flatMap Supervised.calls = pre ++ call :: post) :
    JoinAsks r.spec.planName (entryOf r) pre call.request := by
  obtain ⟨t, -, -, asked, request, asks⟩ := does_ensurePlanMembership.asked reached parts
  cases request
  rwa [entryOf, about.name, about.spec] at asks

/-- What is kept before an attempt is kept wherever the attempt is broken off. -/
theorem Kept.attempt (h : Kept r first start) (about : About r c)
    {run : List (Answered (Supervised RevisionStore))}
    {rest : Program (Supervised RevisionStore) (Option Verdict × RevisionCycle)}
    (reached : (attempt c).Reaches run rest)
    (carried : Carries Lone start (run.flatMap Supervised.calls) next) : Kept r first next := by
  refine carried.holds h ?_
  intro pre call post now next parts past kept served
  exact kept.step h (asks_of_attempt about reached parts) past served

theorem Kept.attempts (h : Kept r first start) (about : ∀ c ∈ cs, About r c)
    (tried : Attempts cs start next) : Kept r first next := by
  induction cs generalizing start with
  | nil => exact tried ▸ h
  | cons c cs ih =>
    obtain ⟨run, rest, mid, reached, carried, later⟩ := tried
    obtain ⟨now, rest⟩ := List.forall_mem_cons.1 about
    exact ih (h.attempt now reached carried) rest later

theorem filter_name_of_mem {entries : List PlanEntry}
    (distinct : (entries.map PlanEntry.name).Nodup) (mem : entry ∈ entries) :
    entries.filter (·.name = entry.name) = [entry] := by
  induction entries with
  | nil => cases mem
  | cons head tail ih =>
    obtain ⟨new, distinct⟩ := List.nodup_cons.1 distinct
    rcases List.mem_cons.1 mem with rfl | later
    · have none_later : tail.filter (·.name = entry.name) = [] := by
        refine List.filter_eq_nil_iff.2 fun other listed same => ?_
        exact new (List.mem_map.2 ⟨other, listed, of_decide_eq_true same⟩)
      rw [List.filter_cons, if_pos (decide_eq_true rfl), none_later]
    · have other : head.name ≠ entry.name :=
        fun same => new (List.mem_map.2 ⟨entry, later, same.symm⟩)
      rw [List.filter_cons, if_neg (mt of_decide_eq_true other)]
      exact ih distinct later

/-- An attempt that has gone through leaves the revision admitted. -/
theorem Joined.admitted (h : Joined r.spec.planName (entryOf r) calls)
    (versioned : r.version?.isSome = true) (begun : Kept r first start)
    (carried : Carries Lone start calls next) (ended : Kept r first next) :
    ∃ plan, Admitted r next plan := by
  obtain ⟨before, plan, basis, rfl⟩ := h
  obtain ⟨now, past, shows⟩ := carries_append.1 carried
  obtain ⟨home, stored, found, revisions, shown⟩ := basis.stored begun.named past
  have latest : plan.latest?.isSome = true := PlanEntry.latest?_isSome basis.mem versioned
  have admitted : ∀ after : Plan, next r.spec.planName = some after →
      after.revisions = plan.revisions → after.shownLatest = plan.latest? →
      ∃ plan, Admitted r next plan := by
    intro after left list shows
    have distinct := ended.distinct
    rw [left] at distinct
    have mem : entryOf r ∈ after.revisions := list ▸ basis.mem
    exact ⟨after, left, filter_name_of_mem distinct mem, pointsRight_congr list shows⟩
  rw [showing] at shows
  by_cases same : plan.latest? = plan.shownLatest
  · rw [if_pos same] at shows
    obtain rfl := shows
    exact admitted stored found revisions (shown.trans same.symm)
  · rw [if_neg same] at shows
    obtain ⟨name, after, effect, rfl⟩ := Lone.acknowledged (carries_singleton.1 shows) trivial
    obtain ⟨top, top_eq⟩ := Option.isSome_iff_exists.1 latest
    rw [showed, answered, home] at effect
    generalize there : now name = was at effect
    cases effect with
    | shown list status =>
      rw [found] at there
      cases there
      refine admitted after (Function.update_self ..) (list.trans revisions) ?_
      rw [Plan.shownLatest, status, top_eq]
      rfl

/-- Where the revision is admitted already, an attempt reads and that is all. -/
theorem Admitted.reads (h : Admitted r start plan)
    (asks : JoinAsks r.spec.planName (entryOf r) pre call.request)
    (past : Carries Lone start pre now) : call.request = .getPlan r.spec.planName := by
  have listed : plan.lists (entryOf r) = true := by
    have mem : entryOf r ∈ plan.revisions.filter (·.name = r.name) := by
      rw [h.own]
      exact List.mem_singleton_self _
    exact List.contains_iff_mem.2 (List.mem_filter.1 mem).1
  have read : ∀ {found : Option Plan} {calls : PlanCalls},
      pre = readPlan r.spec.planName found :: calls → found = some plan := by
    rintro found calls rfl
    exact (carries_readPlan.1 past).1.trans h.stored
  obtain ⟨request, answer⟩ := call
  cases asks with
  | read => rfl
  | create => cases read rfl
  | add unlisted =>
    cases read rfl
    cases unlisted.symm.trans listed
  | shows basis other =>
    cases basis with
    | listed =>
      cases read rfl
      exact absurd h.pointsRight.symm other
    | created => cases read rfl
    | added unlisted =>
      cases read rfl
      cases unlisted.symm.trans listed

theorem Lone.of_reads (h : Lone now call next) (reads : call.request = .getPlan name) :
    next = now := by
  obtain rfl | ⟨_, _, effect, -⟩ := h.effect
  · rfl
  · rw [reads] at effect
    cases effect

/-- Whatever is stored, and however far attempts to list the revision have come before: one that
goes through leaves the entries of other revisions as they were at first, and the revision admitted
to its plan. From then on attempts only read. -/
theorem membership_settles {first before after : Plans} {cs : List RevisionCycle}
    {left : RevisionCycle} {run : List (Answered (Supervised RevisionStore))}
    (named : ∀ plan, first r.spec.planName = some plan → plan.name = r.spec.planName)
    (distinct : ((entriesOf (first r.spec.planName)).map PlanEntry.name).Nodup)
    (about : ∀ c ∈ cs, About r c) (tried : Attempts cs first before) (current : About r c)
    (reached : (attempt c).Reaches run (.done (some .proceed, left)))
    (carried : Carries Lone before (run.flatMap Supervised.calls) after) :
    Kept r first after ∧ (∃ plan, Admitted r after plan) ∧
    ∀ again more rest last, About r again → (attempt again).Reaches more rest →
      Carries Lone after (more.flatMap Supervised.calls) last →
      last = after ∧
        ∀ call ∈ more.flatMap Supervised.calls, call.request = .getPlan r.spec.planName := by
  have begun : Kept r first before := (Kept.origin named distinct).attempts about tried
  have ended : Kept r first after := begun.attempt current reached carried
  have through := (does_ensurePlanMembership.returned reached).1 trivial
  obtain ⟨-, versioned, joined⟩ := through
  rw [Revision.version?, current.spec] at versioned
  rw [entryOf, current.name, current.spec] at joined
  obtain ⟨plan, admitted⟩ := Joined.admitted joined versioned begun carried ended
  refine ⟨ended, ⟨plan, admitted⟩, ?_⟩
  intro again more rest last same tries later
  constructor
  · refine later.stays ?_
    intro pre call post next parts past served
    exact served.of_reads (admitted.reads (asks_of_attempt same tries parts) past)
  · intro call called
    obtain ⟨pre, post, parts⟩ := List.append_of_mem called
    rw [parts] at later
    obtain ⟨now, past, -⟩ := carries_append.1 later
    exact admitted.reads (asks_of_attempt same tries parts) past

end Attempts

/-! ## Attempts on a board -/

namespace Board

variable {past : List Plans} {b : Board}

theorem Numbered.recent (h : Numbered past b) : Numbered [] b := by
  intro state mem
  obtain rfl := List.mem_singleton.1 mem
  exact h _ (List.mem_cons_self ..)

theorem Goes.carries {e : Answered (Supervised RevisionStore)} {b' : Board}
    (h : Goes [] b (Supervised.calls e) b') :
    Carries Lone b.plans (Supervised.calls e) b'.plans := by
  have serves := h.serves
  generalize b'.plans = after at serves ⊢
  rcases calls_eq e with silent | ⟨call, only⟩
  · rw [silent] at serves ⊢
    cases serves
    exact rfl
  · rw [only] at serves ⊢
    exact carries_singleton.2 serves

theorem carries_board {α : Type} (p : Program (Supervised RevisionStore) α)
    (numbered : Numbered [] b) : Numbered [] (p.run (fun q b => b.answer q) b).2 ∧
      Carries Lone b.plans ((p.trace (fun q b => b.answer q) b).flatMap Supervised.calls)
        (p.run (fun q b => b.answer q) b).2.plans := by
  have carries : ∀ (q : Supervised.Request RevisionStore) (b : Board), Numbered [] b →
      Numbered [] (b.answer q).2 ∧
        Carries Lone b.plans (Supervised.calls ⟨q, (b.answer q).1⟩) (b.answer q).2.plans := by
    intro q b numbered
    have goes := goes_answer numbered q
    exact ⟨goes.numbered.recent, goes.carries⟩
  exact carries_trace carries p numbered

end Board

def attemptOn (c : RevisionCycle) (b : Board) : List (Answered (Supervised RevisionStore)) ×
    (Option Verdict × RevisionCycle) × Board :=
  ((attempt c).trace (fun q b => b.answer q) b, (attempt c).run (fun q b => b.answer q) b)

theorem reaches_attemptOn (c : RevisionCycle) (b : Board) :
    (attempt c).Reaches (attemptOn c b).1 (.done (attemptOn c b).2.1) :=
  Program.reaches_trace ..

def outdated : Plan :=
  { metadata := {}
    revisions := [⟨"net-0.9.0", "0.9.0"⟩, ⟨"net-1.0.0", "0.8.0"⟩, ⟨"net-0.9.5", "0.9.5"⟩]
    status := some (some ⟨"net-0.9.0", "0.9.0"⟩) }

def admitting : RevisionCycle := .start (ofNet "1.0.0" false) {}

def torn : List (Answered (Supervised RevisionStore)) ×
    (Option Verdict × RevisionCycle) × Board :=
  attemptOn admitting (.ofPlan "net" outdated [false, true])

def mended : List (Answered (Supervised RevisionStore)) ×
    (Option Verdict × RevisionCycle) × Board :=
  attemptOn admitting torn.2.2

theorem membership_settles_torn :
    torn.2.1.1 = some (.stop Board.fault) ∧
    (torn.2.2.plans "net").map (fun plan => (plan.latest?, plan.shownLatest)) =
      some (some ⟨"net-1.0.0", "1.0.0"⟩, some ⟨"net-0.9.0", "0.9.0"⟩) ∧
    (∃ plan, Admitted (ofNet "1.0.0" false) mended.2.2.plans plan) ∧
    entriesOf (mended.2.2.plans "net") =
      [⟨"net-0.9.0", "0.9.0"⟩, ⟨"net-0.9.5", "0.9.5"⟩, ⟨"net-1.0.0", "1.0.0"⟩] ∧
    ∀ call ∈ (attemptOn admitting mended.2.2).1.flatMap Supervised.calls,
      call.request = .getPlan "net" := by
  have about : About (ofNet "1.0.0" false) admitting := ⟨rfl, rfl⟩
  have start : Board.Numbered [] (.ofPlan "net" outdated [false, true]) :=
    Board.numbered_ofPlan.recent
  obtain ⟨numbered, first⟩ := Board.carries_board (attempt admitting) start
  obtain ⟨numbered, second⟩ := Board.carries_board (attempt admitting) numbered
  obtain ⟨-, third⟩ := Board.carries_board (attempt admitting) numbered
  have tried : Attempts [admitting] (Board.ofPlan "net" outdated [false, true]).plans
      torn.2.2.plans :=
    ⟨torn.1, _, _, reaches_attemptOn .., first, rfl⟩
  have proceeds : mended.2.1 = (some .proceed, mended.2.1.2) :=
    Prod.ext (by decide +kernel) rfl
  have reached : (attempt admitting).Reaches mended.1 (.done (some .proceed, mended.2.1.2)) :=
    proceeds ▸ reaches_attemptOn admitting torn.2.2
  have named : ∀ plan, (Board.ofPlan "net" outdated [false, true]).plans "net" = some plan →
      plan.name = "net" := by
    rintro plan ⟨⟩
    rfl
  obtain ⟨-, admitted, again⟩ := membership_settles (r := ofNet "1.0.0" false) named
    (by decide +kernel) (by simpa using about) tried about reached second
  refine ⟨by decide +kernel, by decide +kernel, admitted, by decide +kernel, ?_⟩
  exact (again admitting _ _ _ about (reaches_attemptOn ..) third).2

end InfraOperator.Catalog
