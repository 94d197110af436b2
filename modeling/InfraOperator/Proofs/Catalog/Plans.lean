import InfraOperator.Proofs.Catalog.Joining
import Mathlib.Logic.Function.Basic

/-!
# Histories of the stored plans

Programs take turns in asking a store of plans. What is read is what is stored at that moment. A
write that is acknowledged is carried out, one that fails or is given up may be: a plan is made only
where there is none, a list is written only under the current version of its plan, and a status is
merged into the one that is there. A plan that is changed gets a version it never had before, and
nobody deletes any.
-/

set_option autoImplicit false

namespace InfraOperator.Catalog

abbrev Plans := String → Option Plan

/-- What a write makes of the plan of that name. A status is merged into the one that is there
(`mergePatch_status`), so that one without a latest revision has no effect on what is shown. -/
inductive Effect (name : String) : RevisionCall → Option Plan → Plan → Prop
  | made {plan after : Plan} (named : plan.name = name)
      (revisions : after.revisions = plan.revisions) (status : after.status = none) :
      Effect name (.createPlan plan) none after
  | listed {plan stored after : Plan} (named : plan.name = name)
      (current : plan.metadata.resourceVersion = none ∨
        plan.metadata.resourceVersion = stored.metadata.resourceVersion)
      (revisions : after.revisions = plan.revisions) (status : after.status = stored.status) :
      Effect name (.patchPlanRevisions plan) (some stored) after
  | shown {latest : Option PlanEntry} {stored after : Plan}
      (revisions : after.revisions = stored.revisions)
      (status : after.status = some (latest.or stored.shownLatest)) :
      Effect name (.patchPlanStatus name latest) (some stored) after

theorem Effect.concerns {name : String} {call : RevisionCall} {before : Option Plan} {after : Plan}
    (h : Effect name call before after) : concernsPlan call = true := by
  cases h <;> rfl

section Merging

theorem entries_empty : (∅ : Dict Json).entries = [] := rfl

theorem entry_toJson (entry : PlanEntry) :
    entry.toJson = .obj [("name", .str entry.name), ("revision", .str entry.version)] := by
  have above : ¬ "revision" < "name" := by decide +kernel
  simp [PlanEntry.toJson, Json.object, Json.ofDict, Dict.ofList, Dict.insert, insertEntry, above,
    entries_empty]

theorem mergePatch_entry (shown : Option PlanEntry) (entry : PlanEntry) :
    ((shown.map PlanEntry.toJson).getD .null).mergePatch entry.toJson = entry.toJson := by
  have above : ¬ "revision" < "name" := by decide +kernel
  cases shown with
  | none =>
    simp [entry_toJson, Json.mergePatch, Json.mergeFields, Json.ofDict, Dict.insert, insertEntry,
      above, entries_empty]
  | some old =>
    simp [entry_toJson, Json.mergePatch, Json.mergeFields, Json.ofDict, Dict.ofList, Dict.insert,
      insertEntry, above, entries_empty]

theorem mergeFields_latest {fields : Dict Json} (shown : Option PlanEntry) (entry : PlanEntry)
    (before : fields.entries = Json.field "latest" PlanEntry.toJson shown) :
    Json.ofDict (Json.mergeFields fields [("latest", entry.toJson)]) =
      Plan.statusJson (some entry) := by
  have found : fields.get? "latest" = shown.map PlanEntry.toJson := by
    rw [Dict.get?, before]
    cases shown <;> rfl
  have kept : (fields.insert "latest" entry.toJson).entries = [("latest", entry.toJson)] := by
    show insertEntry "latest" entry.toJson fields.entries = _
    rw [before]
    cases shown <;> rfl
  have patched := mergePatch_entry shown entry
  rw [← found] at patched
  rw [Plan.statusJson, Json.object, Json.field]
  rw [entry_toJson] at patched kept ⊢
  simp only [Json.mergeFields, patched]
  exact congrArg Json.obj kept

theorem statusJson_eq (latest : Option PlanEntry) :
    Plan.statusJson latest = .obj (Json.field "latest" PlanEntry.toJson latest) := by
  cases latest <;> rfl

/-- What is written is merged into the status that is there, or into none. A latest revision that is
absent is left out and no null, which would take away what is shown. -/
theorem mergePatch_status (status : Option (Option PlanEntry)) (latest : Option PlanEntry) :
    ((status.map Plan.statusJson).getD .null).mergePatch (Plan.statusJson latest) =
      Plan.statusJson (latest.or (status.getD none)) := by
  cases latest with
  | none => rcases status with _ | _ | shown <;> rfl
  | some entry =>
    rw [statusJson_eq (some entry), Json.field]
    cases status with
    | none =>
      rw [Option.map_none, Option.getD_none, Json.mergePatch]
      · exact mergeFields_latest none entry rfl
      · exact nofun
    | some shown =>
      rw [Option.map_some, Option.getD_some, statusJson_eq, Json.mergePatch]
      refine mergeFields_latest shown entry ?_
      cases shown <;> rfl

end Merging

/-- The answer is true: what was read is stored, and what was not found is not. -/
def Truthful (now : Plans) : StoreCall RevisionStore → Prop
  | ⟨.getPlan name, some (.ok found)⟩ => found = now name
  | ⟨.patchPlanRevisions plan, some (.error e)⟩ => e.isNotFound = true → now plan.name = none
  | ⟨.patchPlanStatus name _, some (.error e)⟩ => e.isNotFound = true → now name = none
  | _ => True

def Acknowledged : StoreCall RevisionStore → Prop
  | ⟨.createPlan _, some (.ok _)⟩ => True
  | ⟨.patchPlanRevisions _, some (.ok _)⟩ => True
  | ⟨.patchPlanStatus _ _, some (.ok _)⟩ => True
  | _ => False

/-- The plan is stored under that name in a version that it has in none of these states. -/
structure IsNew (states : List Plans) (name : String) (plan : Plan) : Prop where
  named : plan.metadata.name = some name
  versioned : plan.metadata.resourceVersion ≠ none
  differs : ∀ state ∈ states, ∀ old, state name = some old →
    old.metadata.resourceVersion ≠ plan.metadata.resourceVersion

/-- What may be stored after these calls, where this is stored now and that was before. -/
inductive Serves (past : List Plans) (now : Plans) : PlanCalls → Plans → Prop
  | silent : Serves past now [] now
  | kept {call : StoreCall RevisionStore} (truthful : Truthful now call)
      (unacknowledged : ¬ Acknowledged call) : Serves past now [call] now
  | carried {call : StoreCall RevisionStore} {name : String} {after : Plan}
      (truthful : Truthful now call) (effect : Effect name call.request (now name) after)
      (new : now name = some after ∨ IsNew (now :: past) name after) :
      Serves past now [call] (Function.update now name (some after))

/-- What is read is stored, and reading changes nothing. -/
theorem Serves.of_read {past : List Plans} {now after : Plans} {name : String}
    {found : Option Plan} (h : Serves past now [readPlan name found] after) :
    found = now name ∧ after = now := by
  cases h with
  | kept truthful => exact ⟨truthful, rfl⟩
  | carried _ effect => cases effect

/-! ## Histories -/

theorem calls_eq (e : Answered (Supervised RevisionStore)) :
    Supervised.calls e = [] ∨ ∃ call, Supervised.calls e = [call] := by
  obtain ⟨q, answer⟩ := e
  cases q with
  | cancelled => exact .inl rfl
  | plain r => cases r <;> first | exact .inl rfl | exact .inr ⟨_, rfl⟩
  | watched r => cases r <;> first | exact .inl rfl | exact .inr ⟨_, rfl⟩

structure Moment (ι : Type) where
  asker : ι
  entry : Answered (Supervised RevisionStore)
  plans : Plans

section History

variable {ι : Type}

def stored (now : Plans) : List (Moment ι) → Plans
  | [] => now
  | m :: ms => stored m.plans ms

def behind (past : List Plans) (now : Plans) : List (Moment ι) → List Plans
  | [] => past
  | m :: ms => behind (now :: past) m.plans ms

/-- Each request is answered by the store as it stands then. -/
def History (past : List Plans) (now : Plans) : List (Moment ι) → Prop
  | [] => True
  | m :: ms => Serves past now (Supervised.calls m.entry) m.plans ∧ History (now :: past) m.plans ms

variable {past : List Plans} {now first : Plans} {ms more pre post : List (Moment ι)}
  {m : Moment ι}

theorem stored_append : stored now (ms ++ more) = stored (stored now ms) more := by
  induction ms generalizing now with
  | nil => rfl
  | cons m ms ih => exact ih

theorem history_append : History past now (ms ++ more) ↔
    History past now ms ∧ History (behind past now ms) (stored now ms) more := by
  induction ms generalizing past now with
  | nil => exact (and_iff_right trivial).symm
  | cons m ms ih => exact (and_congr_right fun _ => ih).trans (and_assoc).symm

/-- Either the plan of that name never changes, or there is a last moment at which it does. -/
theorem exists_last_change (name : String) (first : Plans) (ms : List (Moment ι)) :
    (∀ m ∈ ms, m.plans name = first name) ∨
    ∃ pre m post, ms = pre ++ m :: post ∧ m.plans name ≠ stored first pre name ∧
      ∀ m' ∈ post, m'.plans name = m.plans name := by
  induction ms generalizing first with
  | nil => exact .inl (List.forall_mem_nil _)
  | cons m ms ih =>
    rcases ih m.plans with still | ⟨pre, m', post, rfl, changed, still⟩
    · by_cases changed : m.plans name = first name
      · refine .inl fun m' mem => ?_
        rcases List.mem_cons.1 mem with rfl | mem
        · exact changed
        · exact (still m' mem).trans changed
      · exact .inr ⟨[], m, ms, rfl, changed, still⟩
    · exact .inr ⟨m :: pre, m', post, rfl, changed, still⟩

theorem stored_of_still {name : String} (still : ∀ m ∈ ms, m.plans name = first name) :
    stored first ms name = first name := by
  induction ms generalizing first with
  | nil => rfl
  | cons m ms ih =>
    have now := still m (List.mem_cons_self ..)
    refine (ih fun m' mem => ?_).trans now
    rw [now]
    exact still m' (List.mem_cons_of_mem _ mem)

theorem stored_of_kept (holds : Plans → Prop) (parts : ms = pre ++ more ++ post)
    (start : holds (stored first pre))
    (kept : ∀ before m after, ms = before ++ m :: after → holds (stored first before) →
      holds m.plans) : holds (stored first (pre ++ more)) := by
  induction more generalizing pre with
  | nil =>
    rw [List.append_nil]
    exact start
  | cons m more ih =>
    have parted : ms = pre ++ m :: (more ++ post) := by simp [parts]
    have next : stored first (pre ++ [m]) = m.plans := stored_append
    rw [← List.singleton_append, ← List.append_assoc]
    refine ih (by simp [parts]) ?_
    rw [next]
    exact kept pre m _ parted start

theorem History.serves (h : History past now ms) (parts : ms = pre ++ m :: post) :
    Serves (behind past now pre) (stored now pre) (Supervised.calls m.entry) m.plans := by
  rw [parts] at h
  exact (history_append.1 h).2.1

/-! ## Versions -/

def Proper (plans : Plans) : Prop :=
  ∀ name plan, plans name = some plan →
    plan.metadata.name = some name ∧ plan.metadata.resourceVersion ≠ none

/-- The version of a plan tells which state of it that is. -/
structure Sound (states : List Plans) : Prop where
  proper : ∀ state ∈ states, Proper state
  unique : ∀ state ∈ states, ∀ state' ∈ states, ∀ name plan plan',
    state name = some plan → state' name = some plan' →
    plan.metadata.resourceVersion = plan'.metadata.resourceVersion → plan = plan'

theorem sound_start (proper : Proper first) : Sound [first] where
  proper state mem := by
    obtain rfl := List.mem_singleton.1 mem
    exact proper
  unique state mem state' mem' name plan plan' found found' _ := by
    obtain rfl := List.mem_singleton.1 mem
    obtain rfl := List.mem_singleton.1 mem'
    exact Option.some.inj (found.symm.trans found')

theorem Sound.cons {states : List Plans} {after : Plans} (h : Sound states)
    (new : ∀ name plan, after name = some plan →
      (∃ state ∈ states, state name = some plan) ∨ IsNew states name plan) :
    Sound (after :: states) := by
  have apart : ∀ state ∈ states, ∀ name plan old, after name = some plan →
      state name = some old →
      old.metadata.resourceVersion = plan.metadata.resourceVersion → plan = old := by
    intro state mem name plan old found before same
    rcases new name plan found with ⟨state', mem', found'⟩ | new
    · exact h.unique state' mem' state mem name plan old found' before same.symm
    · exact absurd same (new.differs state mem old before)
  constructor
  · intro state mem
    rcases List.mem_cons.1 mem with rfl | mem
    · intro name plan found
      rcases new name plan found with ⟨state', mem', found'⟩ | new
      · exact h.proper state' mem' name plan found'
      · exact ⟨new.named, new.versioned⟩
    · exact h.proper state mem
  · intro state mem state' mem' name plan plan' found found' same
    rcases List.mem_cons.1 mem with rfl | earlier
    · rcases List.mem_cons.1 mem' with rfl | earlier'
      · exact Option.some.inj (found.symm.trans found')
      · exact apart state' earlier' name plan plan' found found' same.symm
    · rcases List.mem_cons.1 mem' with rfl | earlier'
      · exact (apart state earlier name plan' plan found' found same).symm
      · exact h.unique state earlier state' earlier' name plan plan' found found' same

theorem Serves.sound {calls : PlanCalls} {after : Plans} (h : Serves past now calls after)
    (before : Sound (now :: past)) : Sound (after :: now :: past) := by
  apply before.cons
  intro name plan found
  have kept : now name = some plan → ∃ state ∈ now :: past, state name = some plan :=
    fun same => ⟨now, List.mem_cons_self .., same⟩
  cases h with
  | silent => exact .inl (kept found)
  | kept => exact .inl (kept found)
  | @carried _ target written _ _ new =>
    by_cases same : name = target
    · subst same
      rw [Function.update_self] at found
      obtain rfl := Option.some.inj found
      exact new.imp kept id
    · rw [Function.update_of_ne same] at found
      exact .inl (kept found)

theorem History.sound (h : History past now ms) (before : Sound (now :: past)) :
    Sound (stored now ms :: behind past now ms) := by
  induction ms generalizing past now with
  | nil => exact before
  | cons m ms ih => exact ih h.2 (h.1.sound before)

theorem behind_append :
    behind past now (ms ++ more) = behind (behind past now ms) (stored now ms) more := by
  induction ms generalizing past now with
  | nil => rfl
  | cons m ms ih => exact ih

theorem mem_behind {state : Plans} (h : state ∈ past) : state ∈ behind past now ms := by
  induction ms generalizing past now with
  | nil => exact h
  | cons m ms ih => exact ih (List.mem_cons_of_mem _ h)

/-- Whatever was stored at some moment is behind. -/
theorem stored_mem_behind (parts : ms = pre ++ m :: post) :
    stored now pre ∈ behind past now ms := by
  subst parts
  rw [behind_append]
  show stored now pre ∈ behind (stored now pre :: behind past now pre) m.plans post
  exact mem_behind (List.mem_cons_self ..)

/-! ## One of the programs -/

variable [DecidableEq ι] {i : ι}

def own (i : ι) (ms : List (Moment ι)) : List (Answered (Supervised RevisionStore)) :=
  (ms.filter (·.asker = i)).map Moment.entry

def ownCalls (i : ι) (ms : List (Moment ι)) : PlanCalls := (own i ms).flatMap Supervised.calls

theorem own_append : own i (ms ++ more) = own i ms ++ own i more := by
  rw [own, List.filter_append, List.map_append]
  rfl

theorem ownCalls_append : ownCalls i (ms ++ more) = ownCalls i ms ++ ownCalls i more := by
  rw [ownCalls, own_append, List.flatMap_append]
  rfl

theorem own_cons_of_eq (same : m.asker = i) : own i (m :: ms) = m.entry :: own i ms := by
  simp [own, same]

theorem own_cons_self : own m.asker (m :: ms) = m.entry :: own m.asker ms := own_cons_of_eq rfl

theorem ownCalls_cons_self :
    ownCalls m.asker (m :: ms) = Supervised.calls m.entry ++ ownCalls m.asker ms := by
  rw [ownCalls, own_cons_self, List.flatMap_cons]
  rfl

theorem own_cons_of_ne (other : m.asker ≠ i) : own i (m :: ms) = own i ms := by
  simp [own, other]

theorem ownCalls_cons_of_ne (other : m.asker ≠ i) : ownCalls i (m :: ms) = ownCalls i ms := by
  rw [ownCalls, own_cons_of_ne other]
  rfl

theorem exists_moment {call : StoreCall RevisionStore} {before after : PlanCalls}
    (h : ownCalls i ms = before ++ call :: after) :
    ∃ pre m post, ms = pre ++ m :: post ∧ m.asker = i ∧ Supervised.calls m.entry = [call] ∧
      ownCalls i pre = before ∧ ownCalls i post = after := by
  induction ms generalizing before with
  | nil => cases before <;> cases h
  | cons m ms ih =>
    by_cases asks : m.asker = i
    · subst asks
      rw [ownCalls_cons_self] at h
      rcases calls_eq m.entry with silent | ⟨made, only⟩
      · rw [silent, List.nil_append] at h
        obtain ⟨pre, m', post, rfl, same, calls, rfl, later⟩ := ih h
        refine ⟨m :: pre, m', post, rfl, same, calls, ?_, later⟩
        rw [ownCalls_cons_self, silent, List.nil_append]
      · rw [only, List.singleton_append] at h
        cases before with
        | nil =>
          obtain ⟨rfl, rfl⟩ := List.cons.inj h
          exact ⟨[], m, ms, rfl, rfl, only, rfl, rfl⟩
        | cons first before =>
          obtain ⟨rfl, rest⟩ := List.cons.inj h
          obtain ⟨pre, m', post, rfl, same, calls, before_eq, later⟩ := ih rest
          refine ⟨m :: pre, m', post, rfl, same, calls, ?_, later⟩
          rw [ownCalls_cons_self, only, before_eq, List.singleton_append]
    · rw [ownCalls_cons_of_ne asks] at h
      obtain ⟨pre, m', post, rfl, same, calls, before_eq, later⟩ := ih h
      exact ⟨m :: pre, m', post, rfl, same, calls, (ownCalls_cons_of_ne asks).trans before_eq,
        later⟩

end History

end InfraOperator.Catalog
