import InfraOperator.Catalog.Controller
import InfraOperator.Proofs.Catalog.Survival
import InfraOperator.Proofs.Tracking

/-!
# Failures in a row

Cycles and checks of one revision fail, its next attempt is put off, and its failures are counted.
Only a cycle that succeeds ends a row of failures: what is counted is how often the revision was put
off since then, unless that is so long ago that it is forgotten. A check that succeeds ends nothing.
-/

set_option autoImplicit false

namespace InfraOperator

namespace Catalog

open Failures (staleAfter countLimit baseDelay maxDelay)

inductive Happening where
  | cycled (outcome : Outcome Action)
  | checked (outcome : Outcome Action)
  /-- The next attempt is put off. -/
  | putOff (e : Failure) (now : Instant) (next : Action)

/-- The failures that are known after this has happened to the revision of that name, the last thing
first. What is put off has failed before. -/
inductive Track (settings : Settings) (name : String) : List Happening → Failures → Prop
  | start {t : Failures} (unknown : t.entries.get? name = none) : Track settings name [] t
  | cycle {hs : List Happening} {t after : Failures} {r : Revision} {outcome : Outcome Action}
      {run : List (Answered (Supervised RevisionStore))} (h : Track settings name hs t)
      (named : r.name = name)
      (reached : (reconcile settings r t).Reaches run (.done (outcome, after))) :
      Track settings name (.cycled outcome :: hs) after
  | check {hs : List Happening} {t : Failures} {r : Revision} {outcome : Outcome Action}
      {run : List (Answered (Supervised RevisionStore))} (h : Track settings name hs t)
      (named : r.name = name)
      (reached : (reconcileExpiration settings r).Reaches run (.done outcome)) :
      Track settings name (.checked outcome :: hs) t
  | putOff {hs : List Happening} {t : Failures} {r : Revision} {e : Failure}
      (h : Track settings name hs t) (named : r.name = name)
      (failed : .cycled (.error e) ∈ hs ∨ .checked (.error e) ∈ hs) (now : Instant) :
      Track settings name (.putOff e now (errorPolicy r e t now).1 :: hs)
        (errorPolicy r e t now).2.1

/-- When the revision was put off since its last cycle that succeeded, the last time first. -/
def streak : List Happening → List Instant
  | [] => []
  | .cycled (.ok _) :: _ => []
  | .putOff _ now _ :: hs => now :: streak hs
  | .cycled (.error _) :: hs | .checked _ :: hs => streak hs

/-- Each time comes so soon after the one before it that that one is not forgotten. -/
def Remembered (times : List Instant) : Prop :=
  times.IsChain fun later earlier => later.since earlier < staleAfter

def entryFor : List Instant → Option Failures.Entry
  | [] => none
  | last :: earlier => some ⟨min (earlier.length + 1) countLimit, last⟩

section Track

variable {settings : Settings} {name : String} {hs : List Happening} {t after : Failures}
  {r : Revision} {times : List Instant} {now : Instant}

/-- A cycle that succeeds forgets the failures of its revision, and one that fails leaves them as
they are. -/
theorem failures_of_reconcile {run : List (Answered (Supervised RevisionStore))}
    {outcome : Outcome Action}
    (reached : (reconcile settings r t).Reaches run (.done (outcome, after))) :
    (∃ action, outcome = .ok action ∧ after = t.reset r.name) ∨
      ∃ e, outcome = .error e ∧ after = t := by
  unfold reconcile at reached
  simp only at reached
  split at reached
  · cases reached
    exact .inl ⟨_, rfl, rfl⟩
  obtain ⟨-, _, cycle, -, -, reached⟩ := Program.reaches_bind reached
  cases built : pipelineFor r.metadata.isDeleting with
  | error e =>
    rw [built] at reached
    cases reached
    exact .inr ⟨e, rfl, rfl⟩
  | ok pipeline =>
    rw [built] at reached
    obtain ⟨-, _, _, -, -, reached⟩ := Program.reaches_bind reached
    obtain ⟨-, _, ⟨result, _⟩, -, -, reached⟩ := Program.reaches_bind reached
    cases result with
    | error e =>
      cases reached
      exact .inr ⟨e, rfl, rfl⟩
    | ok directive =>
      cases reached
      exact .inl ⟨_, rfl, rfl⟩

theorem Remembered.tail (h : Remembered (now :: times)) : Remembered times := by
  cases times with
  | nil => exact .nil
  | cons last earlier => exact (List.isChain_cons_cons.1 h).2

/-- One more failure counts on from those that are remembered. -/
theorem count_forgetStale (known : t.entries.get? name = entryFor times)
    (remembered : Remembered (now :: times)) :
    (t.forgetStale staleAfter now).count name = min times.length countLimit := by
  cases times with
  | nil =>
    refine Failures.count_of_absent ?_
    rw [Failures.forgetStale, Dict.get?_filter, known]
    rfl
  | cons last earlier =>
    obtain ⟨soon, -⟩ := List.isChain_cons_cons.1 remembered
    refine Failures.count_of_get? (e := ⟨min (earlier.length + 1) countLimit, last⟩) ?_
    rw [Failures.forgetStale, Dict.get?_filter, known]
    exact Option.filter_some_pos (decide_eq_true soon)

/-- As long as the row of failures is remembered, it is what is known. -/
theorem Track.known (h : Track settings name hs t) (remembered : Remembered (streak hs)) :
    t.entries.get? name = entryFor (streak hs) := by
  induction h with
  | start unknown => exact unknown
  | cycle h named reached ih =>
    rcases failures_of_reconcile reached with ⟨action, rfl, rfl⟩ | ⟨e, rfl, rfl⟩
    · rw [named]
      exact Failures.get?_reset
    · exact ih remembered
  | check h named reached ih => exact ih remembered
  | putOff h named failed now ih =>
    subst named
    have counted := count_forgetStale (ih remembered.tail) remembered
    refine Failures.get?_record.trans ?_
    rw [failureKey, Failures.objectKey, counted, Failures.min_succ_min]
    rfl

theorem Track.count_eq (h : Track settings name hs t) (remembered : Remembered (streak hs)) :
    t.count name = min (streak hs).length countLimit := by
  have known := h.known remembered
  cases times : streak hs with
  | nil =>
    rw [times] at known
    exact Failures.count_of_absent known
  | cons last earlier =>
    rw [times] at known
    exact Failures.count_of_get? known

/-- A revision is put off for as long as its row of failures asks for. -/
theorem Track.delay (h : Track settings name hs t) (named : r.name = name) (e : Failure)
    (remembered : Remembered (now :: streak hs)) : (errorPolicy r e t now).1 =
      .requeue (backoffDelay (min ((streak hs).length + 1) countLimit) baseDelay maxDelay) := by
  subst named
  have counted := count_forgetStale (h.known remembered.tail) remembered
  change Action.requeue (backoffDelay
    (min ((t.forgetStale staleAfter now).count r.name + 1) countLimit) baseDelay maxDelay) = _
  rw [counted, Failures.min_succ_min]

theorem Track.next_eq (h : Track settings name hs t) {pre post : List Happening} {e : Failure}
    {next : Action} (parts : hs = pre ++ .putOff e now next :: post)
    (remembered : Remembered (now :: streak post)) : next =
      .requeue (backoffDelay (min ((streak post).length + 1) countLimit) baseDelay maxDelay) := by
  induction h generalizing pre with
  | start => simp at parts
  | cycle h named reached ih | check h named reached ih =>
    cases pre with
    | nil => cases parts
    | cons first pre => exact ih (List.cons.inj parts).2
  | putOff h named failed later ih =>
    cases pre with
    | nil =>
      obtain ⟨put, rfl⟩ := List.cons.inj parts
      cases put
      exact h.delay named _ remembered
    | cons first pre => exact ih (List.cons.inj parts).2

/-- What is counted are the failures since the last cycle of the revision that succeeded, checks
included that failed; so after such a cycle none is, and the next failure puts the revision off for
the base delay. A check that succeeds does not count as such a cycle. -/
theorem failures_counted (h : Track settings name hs t) :
    (Remembered (streak hs) → t.count name = min (streak hs).length countLimit) ∧
    (∀ action rest, hs = .cycled (.ok action) :: rest → t.count name = 0 ∧
      ∀ (r : Revision) e now, r.name = name → (errorPolicy r e t now).1 = .requeue baseDelay) ∧
    ∀ pre e now next post, hs = pre ++ .putOff e now next :: post →
      Remembered (now :: streak post) → next =
        .requeue (backoffDelay (min ((streak post).length + 1) countLimit) baseDelay maxDelay) := by
  refine ⟨h.count_eq, ?_, fun pre e now next post parts => h.next_eq parts⟩
  rintro action rest rfl
  refine ⟨h.count_eq .nil, fun r e now named => ?_⟩
  exact h.delay named e (.singleton now)

end Track

def refusing : (q : Supervised.Request RevisionStore) → Supervised.Answer q
  | .watched (.store (.listPlanRevisions _)) => some (.error (.ofCode 500))
  | q => standing [] laterDay q

theorem reaches_refusing : (reconcileExpiration weekly lower).Reaches
    ((reconcileExpiration weekly lower).follow refusing) (.done (.error (.ofCode 500))) := by
  have ended : (reconcileExpiration weekly lower).finish refusing = .error (.ofCode 500) := by
    decide +kernel
  exact ended ▸ Program.reaches_follow ..

theorem reaches_lonely : (reconcileExpiration weekly lower).Reaches
    (cycleOf lower [lower]) (.done (.ok (.requeue weekly.checkInterval))) := by
  have ended : (reconcileExpiration weekly lower).finish (standing [lower] laterDay) =
      .ok (.requeue weekly.checkInterval) := by
    decide +kernel
  exact ended ▸ Program.reaches_follow ..

def putOffAgain : Action × Failures × LogLine :=
  errorPolicy lower (.ofCode 500) (errorPolicy lower (.ofCode 500) .none laterDay).2.1 laterDay

def uneven : List Happening :=
  [.putOff (.ofCode 500) laterDay putOffAgain.1, .checked (.error (.ofCode 500)),
    .checked (.ok (.requeue weekly.checkInterval)),
    .putOff (.ofCode 500) laterDay (errorPolicy lower (.ofCode 500) .none laterDay).1,
    .checked (.error (.ofCode 500))]

theorem track_checked : Track weekly "net-1.0.0" (uneven.drop 2)
    (errorPolicy lower (.ofCode 500) .none laterDay).2.1 := by
  have failed : Track weekly "net-1.0.0" [.checked (.error (.ofCode 500))] .none :=
    .check (.start rfl) rfl reaches_refusing
  have putOff := failed.putOff (r := lower) rfl (.inr (List.mem_singleton_self _)) laterDay
  exact putOff.check rfl reaches_lonely

theorem track_uneven : Track weekly "net-1.0.0" uneven putOffAgain.2.1 := by
  have failed := track_checked.check rfl reaches_refusing
  exact failed.putOff rfl (.inr (List.mem_cons_self ..)) laterDay

/-- The second failure is not taken for a first one. -/
theorem failures_counted_uneven : Track weekly "net-1.0.0" uneven putOffAgain.2.1 ∧
    putOffAgain.2.1.count "net-1.0.0" = 2 ∧ putOffAgain.1 = .requeue (.ofSeconds 10) := by
  obtain ⟨counted, -, delayed⟩ := failures_counted track_uneven
  have remembered : Remembered (streak uneven) := by
    unfold Remembered
    decide
  refine ⟨track_uneven, counted remembered, ?_⟩
  exact (delayed [] _ _ _ _ rfl remembered).trans (by decide)

/-- After a check that succeeds the failures are counted still. -/
theorem check_ends_no_streak : ¬ ∀ (settings : Settings) (maxAge : Span) (name : String)
    (hs : List Happening) (t : Failures) (action : Action),
    settings.expiration = some maxAge → maxAge.isZero = false →
    Track settings name (.cycled (.ok action) :: hs) t ∨
      Track settings name (.checked (.ok action) :: hs) t →
    t.count name = 0 := by
  intro claim
  have forgotten := claim weekly _ "net-1.0.0" _ _ _ rfl rfl (.inr track_checked)
  have counted : (errorPolicy lower (.ofCode 500) .none laterDay).2.1.count "net-1.0.0" = 1 := by
    decide +kernel
  cases counted.symm.trans forgotten

end Catalog

end InfraOperator
