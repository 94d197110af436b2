import InfraOperator.Proofs.Backoff
import Mathlib.Data.List.Induction

/-!
# Failures over a whole run

Failures of many objects are recorded, reset and swept, one operation after the other. What is
counted of one object is its row of failures: those since the run began, since the last reset of the
object, or since the last sweep that found its last failure too long ago. Recording a failure of any
object sweeps first, so that a row may be ended by the very failure that then begins the next one.
-/

set_option autoImplicit false

namespace InfraOperator

namespace Failures

inductive Operation where
  | record (key : String) (now : Instant)
  | reset (key : String)
  | forgetStale (age : Span) (now : Instant)

def Operation.key? : Operation → Option String
  | .record key _ | .reset key => some key
  | .forgetStale _ _ => Option.none

def Operation.apply (t : Failures) : Operation → Failures
  | .record key now => (t.record key now).2
  | .reset key => t.reset key
  | .forgetStale age now => t.forgetStale age now

def after (ops : List Operation) : Failures := ops.foldl Operation.apply none

inductive Moment where
  | swept (age : Span) (now : Instant)
  | failed (key : String) (now : Instant)
  | reset (key : String)

def Operation.moments : Operation → List Moment
  | .record key now => [.swept staleAfter now, .failed key now]
  | .reset key => [.reset key]
  | .forgetStale age now => [.swept age now]

def moments (ops : List Operation) : List Moment := ops.flatMap Operation.moments

def failuresOf (key : String) (all : List Moment) : List Instant :=
  all.filterMap fun
    | .failed k now => if k = key then some now else Option.none
    | _ => Option.none

/-- Whether this ends the object's row of failures, after all that has happened before. -/
def ends (key : String) (past : List Moment) : Moment → Bool
  | .swept age now => (failuresOf key past).getLast?.any fun last => age ≤ now.since last
  | .failed _ _ => false
  | .reset k => k = key

/-- Nothing of what comes next ends the row. -/
def Lasts (key : String) : List Moment → List Moment → Prop
  | _, [] => True
  | past, m :: rest => ends key past m = false ∧ Lasts key (past ++ [m]) rest

/-- What has happened since the row began, at the start or when the one before it ended. -/
def IsRow (key : String) (all row : List Moment) : Prop :=
  ∃ past, all = past ++ row ∧
    (past = [] ∨ ∃ earlier m, past = earlier ++ [m] ∧ ends key earlier m = true) ∧
    Lasts key past row

section Moments

variable {key : String} {past all row : List Moment} {m : Moment}

theorem lasts_append {rest : List Moment} :
    Lasts key past (row ++ rest) ↔ Lasts key past row ∧ Lasts key (past ++ row) rest := by
  induction row generalizing past with
  | nil => simp [Lasts]
  | cons m row ih => simp [Lasts, ih, and_assoc]

theorem failuresOf_append (all later : List Moment) :
    failuresOf key (all ++ later) = failuresOf key all ++ failuresOf key later :=
  List.filterMap_append ..

theorem moments_append (ops later : List Operation) :
    moments (ops ++ later) = moments ops ++ moments later := List.flatMap_append

theorem IsRow.snoc (h : IsRow key all row) (lasts : ends key all m = false) :
    IsRow key (all ++ [m]) (row ++ [m]) := by
  obtain ⟨past, rfl, began, lasted⟩ := h
  exact ⟨past, List.append_assoc .., began, lasts_append.2 ⟨lasted, lasts, trivial⟩⟩

theorem isRow_nil_of_ends (ended : ends key all m = true) : IsRow key (all ++ [m]) [] :=
  ⟨all ++ [m], (List.append_nil _).symm, .inr ⟨all, m, rfl, ended⟩, trivial⟩

end Moments

/-! ## What is known after each moment -/

def Moment.apply (t : Failures) : Moment → Failures
  | .swept age now => t.forgetStale age now
  | .failed key now => ⟨t.entries.insert key ⟨min (t.count key + 1) countLimit, now⟩⟩
  | .reset key => t.reset key

def knownAfter (all : List Moment) : Failures := all.foldl Moment.apply none

def entryOf (times : List Instant) : Option Entry :=
  times.getLast?.map fun last => ⟨min times.length countLimit, last⟩

section Known

variable {t : Failures} {key k : String} {now : Instant} {all row more : List Moment} {m : Moment}
  {ops : List Operation} {times : List Instant}

theorem knownAfter_append (all more : List Moment) :
    knownAfter (all ++ more) = more.foldl Moment.apply (knownAfter all) := List.foldl_append

/-- An operation does what happens in the course of it. -/
theorem knownAfter_moments (ops : List Operation) : knownAfter (moments ops) = after ops := by
  induction ops using List.reverseRecOn with
  | nil => rfl
  | append_singleton ops op ih =>
    have own : moments [op] = op.moments := List.flatMap_singleton ..
    rw [moments_append, own, knownAfter_append, ih, after, after, List.foldl_append]
    cases op <;> rfl

theorem count_of_get? {e : Entry} (found : t.entries.get? key = some e) :
    t.count key = e.count := by
  rw [count, found]

theorem count_of_absent (absent : t.entries.get? key = .none) : t.count key = 0 := by
  rw [count, absent]

theorem get?_reset : (t.reset key).entries.get? key = .none := by
  rw [reset, Dict.get?_erase, if_pos rfl]

theorem get?_record : (t.record key now).2.entries.get? key =
    some ⟨min ((t.forgetStale staleAfter now).count key + 1) countLimit, now⟩ := by
  rw [record, Dict.get?_insert, if_pos rfl]

theorem min_succ_min (n most : Nat) : min (min n most + 1) most = min (n + 1) most := by omega

theorem count_of_entryOf (known : t.entries.get? key = entryOf times) :
    t.count key = min times.length countLimit := by
  cases last : times.getLast? with
  | none =>
    rw [entryOf, last] at known
    rw [count_of_absent known, List.getLast?_eq_none_iff.1 last]
    rfl
  | some at' =>
    rw [entryOf, last] at known
    exact count_of_get? known

theorem last_of_entryOf {e : Entry} (known : entryOf times = some e) :
    times.getLast? = some e.last := by
  obtain ⟨last, found, rfl⟩ := Option.map_eq_some_iff.1 known
  exact found

theorem entryOf_snoc (times : List Instant) (now : Instant) :
    entryOf (times ++ [now]) = some ⟨min (times.length + 1) countLimit, now⟩ := by
  rw [entryOf, List.getLast?_concat, List.length_append]
  rfl

theorem IsRow.getLast? (h : IsRow key all row) {last : Instant}
    (found : (failuresOf key row).getLast? = some last) :
    (failuresOf key all).getLast? = some last := by
  obtain ⟨past, rfl, -, -⟩ := h
  rw [failuresOf_append, List.getLast?_append, found, Option.some_or]

/-- What ends a row makes it forgotten. -/
theorem get?_apply_of_ends (ended : ends key all m = true)
    (known : ∀ e, t.entries.get? key = some e → (failuresOf key all).getLast? = some e.last) :
    (m.apply t).entries.get? key = Option.none := by
  cases m with
  | swept age now =>
    refine (Dict.get?_filter ..).trans ?_
    cases found : t.entries.get? key with
    | none => rfl
    | some e =>
      have old : age ≤ now.since e.last := by simpa [ends, known e found] using ended
      exact Option.filter_some_neg (decide_eq_false (Nat.not_lt.2 old))
  | failed => cases ended
  | reset k =>
    obtain rfl : k = key := of_decide_eq_true ended
    exact get?_reset

/-- What does not end a row may add to it. -/
theorem get?_apply_of_lasts (lasts : ends key all m = false) (row : IsRow key all more)
    (known : t.entries.get? key = entryOf (failuresOf key more)) :
    (m.apply t).entries.get? key = entryOf (failuresOf key (more ++ [m])) := by
  rw [failuresOf_append]
  cases m with
  | swept age now =>
    refine (Dict.get?_filter ..).trans ?_
    change _ = entryOf (failuresOf key more ++ [])
    rw [List.append_nil, known]
    cases found : entryOf (failuresOf key more) with
    | none => rfl
    | some e =>
      have last := row.getLast? (last_of_entryOf found)
      have young : ¬ age ≤ now.since e.last := by simpa [ends, last] using lasts
      exact Option.filter_some_pos (decide_eq_true (Nat.lt_of_not_le young))
  | failed k now =>
    refine (Dict.get?_insert ..).trans ?_
    by_cases own : k = key
    · subst own
      have counted := count_of_entryOf known
      rw [if_pos rfl, counted, min_succ_min, ← entryOf_snoc]
      simp [failuresOf]
    · rw [if_neg (Ne.symm own), known]
      simp [failuresOf, own]
  | reset k =>
    have other : k ≠ key := of_decide_eq_false lasts
    refine (Dict.get?_erase ..).trans ?_
    rw [if_neg (Ne.symm other), known]
    exact congrArg entryOf (List.append_nil _).symm

/-- What is known of an object is its row of failures. -/
theorem exists_row (key : String) (all : List Moment) : ∃ row, IsRow key all row ∧
    (knownAfter all).entries.get? key = entryOf (failuresOf key row) := by
  induction all using List.reverseRecOn with
  | nil => exact ⟨[], ⟨[], rfl, .inl rfl, trivial⟩, rfl⟩
  | append_singleton all m ih =>
    obtain ⟨row, isRow, known⟩ := ih
    rw [knownAfter_append]
    cases ended : ends key all m with
    | true =>
      refine ⟨[], isRow_nil_of_ends ended, get?_apply_of_ends ended ?_⟩
      intro e found
      exact isRow.getLast? (last_of_entryOf (known.symm.trans found))
    | false => exact ⟨row ++ [m], isRow.snoc ended, get?_apply_of_lasts ended isRow known⟩

/-- Nothing but the end of its row makes a count smaller. -/
theorem count_le_of_lasts (lasts : Lasts key all more) :
    (knownAfter all).count key ≤ (knownAfter (all ++ more)).count key := by
  induction more generalizing all with
  | nil =>
    exact Nat.le_of_eq (by rw [List.append_nil])
  | cons m more ih =>
    obtain ⟨row, isRow, known⟩ := exists_row key all
    have next := count_of_entryOf (get?_apply_of_lasts lasts.1 isRow known)
    have grown : (knownAfter all).count key ≤ (m.apply (knownAfter all)).count key := by
      rw [next, count_of_entryOf known, failuresOf_append, List.length_append]
      omega
    rw [List.append_cons]
    refine Nat.le_trans ?_ (ih lasts.2)
    rw [knownAfter_append]
    exact grown

end Known

/-! ## Delays -/

/-- The delay doubles with each failure, however many there are, until it reaches its bound. -/
theorem backoffDelay_eq (n : Nat) : backoffDelay n baseDelay maxDelay =
    min (baseDelay.scale (2 ^ (n - 1))) maxDelay := by
  have exponent : max n 1 - 1 = n - 1 := by omega
  rw [← exponent]
  exact backoffDelay_doubles_iff.2 (.inr (.inr (by decide)))

/-! ## Operations -/

section Operations

variable {key : String} {ops more : List Operation} {op : Operation} {now : Instant}

theorem after_append : after (ops ++ more) = more.foldl Operation.apply (after ops) :=
  List.foldl_append

/-- The failures that are known once one more has been recorded. -/
theorem after_record (ops : List Operation) (key : String) (now : Instant) :
    after (ops ++ [.record key now]) = ((after ops).record key now).2 := by
  rw [after_append]
  rfl

theorem count_record (t : Failures) (key : String) (now : Instant) :
    (t.record key now).2.count key =
      min ((t.forgetStale staleAfter now).count key + 1) countLimit := count_of_get? get?_record

/-- A failure is put off for as long as its place in the row asks for. -/
theorem delay_record (t : Failures) (key : String) (now : Instant) : (t.record key now).1 =
    backoffDelay ((t.record key now).2.count key) baseDelay maxDelay := by
  rw [count_record]
  rfl

/-- As long as the row lasts, its next failure is put off no less than the one before. -/
theorem delay_le_of_lasts {later : Instant}
    (lasts : Lasts key (moments (ops ++ [.record key now]))
      (moments more ++ [.swept staleAfter later])) :
    ((after ops).record key now).1 ≤
      ((after (ops ++ .record key now :: more)).record key later).1 := by
  have swept := count_le_of_lasts lasts
  rw [← List.append_assoc, ← moments_append, knownAfter_append, knownAfter_moments,
    knownAfter_moments, ← List.append_cons, after_record] at swept
  change _ ≤ ((after (ops ++ .record key now :: more)).forgetStale staleAfter later).count key
    at swept
  rw [delay_record, delay_record]
  apply backoffDelay_mono
  rw [count_record] at swept ⊢
  rw [count_record]
  omega

theorem get?_of_lasts {all later : List Moment} (lasts : Lasts key all later)
    (other : ∀ now, .failed key now ∉ later) :
    (knownAfter (all ++ later)).entries.get? key = (knownAfter all).entries.get? key := by
  induction later generalizing all with
  | nil => rw [List.append_nil]
  | cons m later ih =>
    obtain ⟨row, isRow, known⟩ := exists_row key all
    have same := get?_apply_of_lasts lasts.1 isRow known
    have silent : failuresOf key [m] = [] := by
      cases m with
      | failed k now =>
        have apart : k ≠ key := by
          rintro rfl
          exact other now (List.mem_cons_self ..)
        simp [failuresOf, apart]
      | _ => rfl
    rw [failuresOf_append, silent, List.append_nil, ← known] at same
    rw [List.append_cons, ih lasts.2 fun now listed => other now (List.mem_cons_of_mem _ listed),
      knownAfter_append]
    exact same

theorem not_failed_of_ne (other : op.key? ≠ some key) (now : Instant) :
    Moment.failed key now ∉ op.moments := by
  cases op with
  | record k at' =>
    intro listed
    simp only [Operation.moments, List.mem_cons, reduceCtorEq, Moment.failed.injEq, false_or,
      List.not_mem_nil, or_false] at listed
    exact other (congrArg some listed.1.symm)
  | _ => simp [Operation.moments]

/-- What is not about an object ends its row by a sweep, if at all. -/
theorem exists_sweep (other : op.key? ≠ some key) {past : List Moment}
    (ended : ¬ Lasts key past op.moments) :
    ∃ age now, .swept age now ∈ op.moments ∧ ends key past (.swept age now) = true := by
  cases op with
  | record k now =>
    refine ⟨staleAfter, now, List.mem_cons_self .., ?_⟩
    by_contra lasts
    exact ended ⟨Bool.eq_false_iff.2 lasts, rfl, trivial⟩
  | reset k =>
    have apart : k ≠ key := fun same => other (congrArg some same)
    exact absurd ⟨decide_eq_false apart, trivial⟩ ended
  | forgetStale age now =>
    refine ⟨age, now, List.mem_cons_self .., ?_⟩
    by_contra lasts
    exact ended ⟨Bool.eq_false_iff.2 lasts, trivial⟩

/-- What is known of an object is its row of failures, and each failure puts it off for as long as
its place in the row asks for. So while a row lasts the delays never decrease, and whatever is done
about other objects can do no more to it than to end its row by a sweep. -/
theorem failures_account (key : String) (ops : List Operation) :
    (∃ row, IsRow key (moments ops) row ∧
      (after ops).count key = min (failuresOf key row).length countLimit) ∧
    (∀ now, ((after ops).record key now).1 =
      min (baseDelay.scale (2 ^ ((after (ops ++ [.record key now])).count key - 1))) maxDelay) ∧
    (∀ now more later, Lasts key (moments (ops ++ [.record key now]))
        (moments more ++ [.swept staleAfter later]) →
      ((after ops).record key now).1 ≤
        ((after (ops ++ .record key now :: more)).record key later).1) ∧
    ∀ op : Operation, op.key? ≠ some key →
      (after (ops ++ [op])).entries.get? key ≠ (after ops).entries.get? key →
      ∃ age now, .swept age now ∈ op.moments ∧ ends key (moments ops) (.swept age now) = true := by
  refine ⟨?_, ?_, ?_, ?_⟩
  · obtain ⟨row, isRow, known⟩ := exists_row key (moments ops)
    rw [knownAfter_moments] at known
    exact ⟨row, isRow, count_of_entryOf known⟩
  · intro now
    rw [after_record, ← backoffDelay_eq]
    exact delay_record ..
  · intro now more later lasts
    exact delay_le_of_lasts lasts
  · intro op other changed
    apply exists_sweep other
    intro lasts
    have own : moments [op] = op.moments := List.flatMap_singleton ..
    have kept := get?_of_lasts lasts (not_failed_of_ne other)
    rw [← own, ← moments_append, knownAfter_moments, knownAfter_moments] at kept
    exact changed kept

def failedOnce : List Operation := [.record "a" (.ofSeconds 0)]

/-- Another one that fails ten minutes later leaves its row as it is, and one that fails twenty
minutes later ends it. -/
theorem failures_account_twoObjects :
    (Lasts "a" (moments failedOnce)
        (moments [.record "b" (.ofSeconds 600)] ++ [.swept staleAfter (.ofSeconds 700)]) ∧
      ((after []).record "a" (.ofSeconds 0)).1 ≤
        ((after (failedOnce ++ [.record "b" (.ofSeconds 600)])).record "a" (.ofSeconds 700)).1) ∧
    ∃ age now, .swept age now ∈ (Operation.record "b" (.ofSeconds 1200)).moments ∧
      ends "a" (moments failedOnce) (.swept age now) = true := by
  constructor
  · have lasts : Lasts "a" (moments failedOnce)
        (moments [.record "b" (.ofSeconds 600)] ++ [.swept staleAfter (.ofSeconds 700)]) :=
      ⟨by decide, by decide, by decide, trivial⟩
    exact ⟨lasts, (failures_account "a" []).2.2.1 _ _ _ lasts⟩
  · have forgotten :
        (after (failedOnce ++ [.record "b" (.ofSeconds 1200)])).entries.get? "a" ≠
          (after failedOnce).entries.get? "a" := by decide +kernel
    exact (failures_account "a" failedOnce).2.2.2 _ (by decide) forgotten

end Operations

end Failures

end InfraOperator
