import InfraOperator.Proofs.Contention
import InfraOperator.Proofs.Updates

/-!
# What is attempted to persist a status

An attempt writes the status once and, if that is a conflict, reads the object anew. A status is
persisted in one to three attempts in a row (`StatusStore.Makes`), and what they write, under which
versions, when there is another one and what comes out of them is told by `Persisted`.
-/

set_option autoImplicit false

namespace InfraOperator

variable {S : Interface} {R : Type} [Resource R]

structure Attempt (R : Type) where
  object : R
  written : Outcome Unit
  reread : Option (Outcome (Option R))

namespace Attempt

def Conflicts (a : Attempt R) : Prop := ∃ e, a.written = .error e ∧ e.isConflict = true

def Repeats (a : Attempt R) : Prop :=
  a.Conflicts ∧ ∃ fresh, a.reread = some fresh ∧ ∀ e, fresh = .error e → e.isConflict = true

def outcome (a : Attempt R) : Outcome Unit :=
  match a.written, a.reread with
  | .error _, some (.error e) => .error e
  | written, _ => written

def renewed (version : Option String) (a : Attempt R) : Option String :=
  match a.reread with
  | some (.ok (some fresh)) => versionOf fresh
  | _ => version

omit [Resource R] in
theorem outcome_eq_ok {a : Attempt R} : a.outcome = .ok () ↔ a.written = .ok () := by
  obtain ⟨object, written, reread⟩ := a
  rcases written with e | _
  · rcases reread with _ | e' | fresh
    all_goals exact iff_of_false nofun nofun
  · exact iff_of_true rfl rfl

end Attempt

def heldAfter (version : Option String) (attempts : List (Attempt R)) : Option String :=
  attempts.foldl Attempt.renewed version

namespace StatusStore

def Between : Answered (Surroundings S) → Prop
  | ⟨.log _, _⟩ | ⟨.wait _, _⟩ => True
  | _ => False

inductive Makes (store : StatusStore S R) :
    List (Attempt R) → List (Answered (Surroundings S)) → Prop
  | nothing : Makes store [] []
  | between {q : Answered (Surroundings S)} {attempts : List (Attempt R)}
      {run : List (Answered (Surroundings S))} (idle : Between q)
      (more : Makes store attempts run) : Makes store attempts (q :: run)
  | once {object : R} {written : Outcome Unit} {attempts : List (Attempt R)}
      {own run : List (Answered (Surroundings S))}
      (wrote : (store.write object).Reaches own (.done written))
      (more : Makes store attempts run) :
      Makes store (⟨object, written, none⟩ :: attempts) (own ++ run)
  | reread {object : R} {written : Outcome Unit} {fresh : Outcome (Option R)}
      {attempts : List (Attempt R)} {own reading run : List (Answered (Surroundings S))}
      (wrote : (store.write object).Reaches own (.done written))
      (read : (store.reload object).Reaches reading (.done fresh))
      (more : Makes store attempts run) :
      Makes store (⟨object, written, some fresh⟩ :: attempts) ((own ++ reading) ++ run)

/-- What becomes of attempts in a row with that version at first, when so many more may follow the
first one. -/
structure Attempted (r : R) (left : Nat) (version : Option String) (attempts : List (Attempt R))
    (result : Outcome Unit) : Prop where
  few : 1 ≤ attempts.length ∧ attempts.length ≤ left + 1
  object_eq : ∀ pre a post, attempts = pre ++ a :: post →
    a.object = Resource.withResourceVersion r (heldAfter version pre)
  rereads : ∀ a ∈ attempts, a.reread.isSome = true ↔ a.Conflicts
  again : ∀ pre a post, attempts = pre ++ a :: post →
    (post ≠ [] ↔ pre.length < left ∧ a.Repeats)
  last : ∃ a, attempts.getLast? = some a ∧ a.outcome = result

variable {store : StatusStore S R} {r : R} {version version' : Option String} {left : Nat}
  {run : List (Answered (Surroundings S))} {result : Outcome Unit} {attempts : List (Attempt R)}

/-- An attempt writes the resource under the version that is held, and is repeated if it ends in a
conflict. -/
theorem exists_attempt_of_try (tried : store.Try r version run result version') :
    ∃ a : Attempt R, a.object = Resource.withResourceVersion r version ∧ a.outcome = result ∧
      a.renewed version = version' ∧ (a.reread.isSome = true ↔ a.Conflicts) ∧
      (a.Repeats ↔ ∃ e, result = .error e ∧ e.isConflict = true) ∧
      ∀ attempts more, store.Makes attempts more → store.Makes (a :: attempts) (run ++ more) := by
  cases tried with
  | written wrote =>
    refine ⟨⟨_, .ok (), none⟩, rfl, rfl, rfl, iff_of_false nofun nofun, ?_,
      fun _ _ more => .once wrote more⟩
    exact iff_of_false (fun repeats => nomatch repeats.1) nofun
  | @refused _ e wrote final =>
    have settled : ¬ ∃ e', (.error e : Outcome Unit) = .error e' ∧ e'.isConflict = true := by
      rintro ⟨_, ⟨⟩, conflict⟩
      cases final.symm.trans conflict
    exact ⟨⟨_, .error e, none⟩, rfl, rfl, rfl, iff_of_false nofun settled,
      iff_of_false (fun repeats => settled repeats.1) settled, fun _ _ more => .once wrote more⟩
  | @renewed _ _ e fresh wrote conflict read =>
    refine ⟨⟨_, .error e, some (.ok (some fresh))⟩, rfl, rfl, rfl,
      iff_of_true rfl ⟨e, rfl, conflict⟩, ?_, fun _ _ more => .reread wrote read more⟩
    exact iff_of_true ⟨⟨e, rfl, conflict⟩, _, rfl, nofun⟩ ⟨e, rfl, conflict⟩
  | @gone _ _ e wrote conflict read =>
    refine ⟨⟨_, .error e, some (.ok none)⟩, rfl, rfl, rfl,
      iff_of_true rfl ⟨e, rfl, conflict⟩, ?_, fun _ _ more => .reread wrote read more⟩
    exact iff_of_true ⟨⟨e, rfl, conflict⟩, _, rfl, nofun⟩ ⟨e, rfl, conflict⟩
  | @unread _ _ e e' wrote conflict read =>
    refine ⟨⟨_, .error e, some (.error e')⟩, rfl, rfl, rfl,
      iff_of_true rfl ⟨e, rfl, conflict⟩, ?_, fun _ _ more => .reread wrote read more⟩
    constructor
    · rintro ⟨-, _, ⟨⟩, mild⟩
      exact ⟨e', rfl, mild e' rfl⟩
    · rintro ⟨_, ⟨⟩, mild⟩
      refine ⟨⟨e, rfl, conflict⟩, _, rfl, ?_⟩
      rintro _ ⟨⟩
      exact mild

omit [Resource R] in
theorem parts_of_singleton {a b : Attempt R} {pre post : List (Attempt R)}
    (parts : [a] = pre ++ b :: post) : pre = [] ∧ b = a ∧ post = [] := by
  cases pre with
  | nil =>
    obtain ⟨rfl, rfl⟩ := List.cons.inj parts
    exact ⟨rfl, rfl, rfl⟩
  | cons first pre => simp at parts

theorem attempted_singleton {a : Attempt R}
    (object : a.object = Resource.withResourceVersion r version)
    (rereads : a.reread.isSome = true ↔ a.Conflicts) (final : left = 0 ∨ ¬ a.Repeats) :
    Attempted r left version [a] a.outcome where
  few := ⟨Nat.le_refl 1, Nat.le_add_left 1 left⟩
  object_eq pre b post parts := by
    obtain ⟨rfl, rfl, rfl⟩ := parts_of_singleton parts
    exact object
  rereads b hb := by
    rw [List.mem_singleton.1 hb]
    exact rereads
  again pre b post parts := by
    obtain ⟨rfl, rfl, rfl⟩ := parts_of_singleton parts
    refine iff_of_false (fun more => more rfl) ?_
    rintro ⟨some, repeats⟩
    rcases final with rfl | final
    · exact Nat.lt_irrefl 0 some
    · exact final repeats
  last := ⟨a, rfl, rfl⟩

theorem Attempted.cons {a : Attempt R} (h : Attempted r left (a.renewed version) attempts result)
    (object : a.object = Resource.withResourceVersion r version)
    (rereads : a.reread.isSome = true ↔ a.Conflicts) (repeats : a.Repeats) :
    Attempted r (left + 1) version (a :: attempts) result where
  few := ⟨Nat.le_add_left 1 _, Nat.succ_le_succ h.few.2⟩
  object_eq pre b post parts := by
    cases pre with
    | nil =>
      obtain ⟨rfl, -⟩ := List.cons.inj parts
      exact object
    | cons first pre =>
      obtain ⟨rfl, later⟩ := List.cons.inj parts
      exact h.object_eq pre b post later
  rereads := List.forall_mem_cons.2 ⟨rereads, h.rereads⟩
  again pre b post parts := by
    cases pre with
    | nil =>
      obtain ⟨rfl, rfl⟩ := List.cons.inj parts
      exact iff_of_true (List.ne_nil_of_length_pos h.few.1) ⟨Nat.succ_pos left, repeats⟩
    | cons first pre =>
      obtain ⟨-, later⟩ := List.cons.inj parts
      rw [h.again pre b post later, List.length_cons, Nat.add_lt_add_iff_right]
  last := by
    obtain ⟨b, found, ended⟩ := h.last
    exact ⟨b, by rw [List.getLast?_cons, found]; rfl, ended⟩

theorem exists_attempted_of_tries (tries : store.Tries r left version run result) :
    ∃ attempts, store.Makes attempts run ∧ Attempted r left version attempts result := by
  induction tries with
  | ended once final =>
    obtain ⟨a, object, rfl, -, rereads, repeats, makes⟩ := exists_attempt_of_try once
    refine ⟨[a], by simpa using makes [] [] .nothing, attempted_singleton object rereads (.inr ?_)⟩
    intro conflicting
    obtain ⟨e, failed, conflict⟩ := repeats.1 conflicting
    cases (final e failed).symm.trans conflict
  | exhausted once conflict =>
    obtain ⟨a, object, ended, -, rereads, -, makes⟩ := exists_attempt_of_try once
    rw [← ended]
    refine ⟨[a], makes [] _ (.between trivial .nothing), ?_⟩
    exact attempted_singleton object rereads (.inl rfl)
  | again once conflict more ih =>
    obtain ⟨a, object, ended, rfl, rereads, repeats, makes⟩ := exists_attempt_of_try once
    obtain ⟨attempts, later, attempted⟩ := ih
    refine ⟨a :: attempts, makes _ _ (.between trivial (.between trivial later)), ?_⟩
    exact attempted.cons object rereads (repeats.2 ⟨_, rfl, conflict⟩)

/-- What is persisted of a resource by these attempts, and what comes out of it. -/
structure Persisted (r : R) (deleting : Bool) (attempts : List (Attempt R))
    (persisted : Outcome Unit) : Prop where
  few : 1 ≤ attempts.length ∧ attempts.length ≤ 3
  /-- Nothing but the version of what is written differs from the resource. -/
  same : ∀ a ∈ attempts, Resource.withResourceVersion a.object (versionOf r) = r
  /-- It is the version that was read at first, or that of the last object read anew. -/
  version : ∀ pre a post, attempts = pre ++ a :: post →
    versionOf a.object = heldAfter (versionOf r) pre
  /-- The object is read anew after a conflict. -/
  rereads : ∀ a ∈ attempts, a.reread.isSome = true ↔ a.Conflicts
  /-- Another attempt follows a conflict, unless reading anew fails for another reason or there
  were three. -/
  again : ∀ pre a post, attempts = pre ++ a :: post →
    (post ≠ [] ↔ pre.length < 2 ∧ a.Repeats)
  /-- The last write succeeds, or the object is gone while it is being deleted. -/
  succeeds : persisted = .ok () ↔ ∃ a, attempts.getLast? = some a ∧
    (a.written = .ok () ∨
      deleting = true ∧ ∃ e, a.outcome = .error e ∧ e.isNotFound = true)
  /-- A failure is that of the last attempt. -/
  fails : ∀ e, persisted = .error e → ∃ a, attempts.getLast? = some a ∧ a.outcome = .error e

theorem forgiven_eq_ok {deleting : Bool} :
    forgiven deleting result = .ok () ↔
      result = .ok () ∨ deleting = true ∧ ∃ e, result = .error e ∧ e.isNotFound = true := by
  rcases result with e | _
  · simp [forgiven]
  · exact iff_of_true rfl (.inl rfl)

theorem eq_error_of_forgiven {deleting : Bool} {e : Failure}
    (h : forgiven deleting result = .error e) : result = .error e := by
  rcases result with e' | _
  · rw [forgiven] at h
    split at h
    · cases h
    · exact h
  · cases h

theorem Attempted.persisted [LawfulMetadata R] {deleting : Bool}
    (h : Attempted r 2 (versionOf r) attempts result) :
    Persisted r deleting attempts (forgiven deleting result) := by
  obtain ⟨a, found, ended⟩ := h.last
  constructor
  · exact h.few
  · intro b hb
    obtain ⟨pre, post, parts⟩ := List.append_of_mem hb
    rw [h.object_eq pre b post parts]
    exact withResourceVersion_restored r _
  · intro pre b post parts
    rw [h.object_eq pre b post parts]
    exact versionOf_withResourceVersion r _
  · exact h.rereads
  · exact h.again
  · rw [forgiven_eq_ok, ← ended, Attempt.outcome_eq_ok]
    constructor
    · intro succeeded
      exact ⟨a, found, succeeded⟩
    · rintro ⟨_, same, succeeded⟩
      cases found.symm.trans same
      exact succeeded
  · intro e failed
    exact ⟨a, found, ended.trans (eq_error_of_forgiven failed)⟩

/-- However the calls of a store are answered, persisting a status comes to an end, unless one is
never answered, and consists of one to three attempts, each but the first after a conflict and under
the version that the object had when it was last read. -/
theorem persist_account [LawfulMetadata R] (store : StatusStore S R) (r : R) (deleting : Bool) :
    (∀ run rest, (store.persist r deleting).Reaches run rest →
      ∃ more persisted, (store.persist r deleting).Reaches (run ++ more) (.done persisted)) ∧
    ∀ run persisted, (store.persist r deleting).Reaches run (.done persisted) →
      ∃ attempts, store.Makes attempts run ∧ Persisted r deleting attempts persisted := by
  constructor
  · intro run rest reached
    exact reached.exists_end fun q => Supervised.giveUp (.plain q)
  · intro run persisted reached
    obtain ⟨result, tries, rfl⟩ := exists_tries_of_persist reached
    obtain ⟨attempts, makes, attempted⟩ := exists_attempted_of_tries tries
    exact ⟨attempts, makes, attempted.persisted⟩

end StatusStore

namespace Catalog

def overtaken : (q : Surroundings.Request RevisionStore) → Surroundings.Answer q
  | .store (.patchStatus w) => if versionOf w = some "2" then .ok () else .error .conflict
  | .store (.getRevision _) => .ok (some (revisionOf 2 (some "2")))
  | q => Supervised.giveUp (.plain q)

def overtakenRun : List (Answered (Surroundings RevisionStore)) :=
  (RevisionStore.statuses.persist (revisionOf 1 (some "1")) false).follow overtaken

/-- The second write succeeds, after a conflict that the first one has met. -/
theorem persist_account_overtaken :
    (overtakenRun.filterMap fun call => match call.request with
      | .store (.patchStatus w) => some (versionOf w)
      | _ => none) = [some "1", some "2"] ∧
    ∃ attempts, RevisionStore.statuses.Makes attempts overtakenRun ∧
      StatusStore.Persisted (revisionOf 1 (some "1")) false attempts (.ok ()) := by
  constructor
  · decide +kernel
  · have ended : (RevisionStore.statuses.persist (revisionOf 1 (some "1")) false).finish
        overtaken = .ok () := by decide +kernel
    have reached := Program.reaches_follow overtaken
      (RevisionStore.statuses.persist (revisionOf 1 (some "1")) false)
    rw [ended] at reached
    exact (StatusStore.persist_account RevisionStore.statuses (revisionOf 1 (some "1")) false).2
      _ _ reached

end Catalog

end InfraOperator
