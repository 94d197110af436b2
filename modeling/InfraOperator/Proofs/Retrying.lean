import InfraOperator.Proofs.Persisting
import Mathlib.Data.List.Iterate
import Mathlib.Order.Bounds.Defs

/-!
# Loops of retries

A loop of retries by itself is a program that asks for a call of the operation, a factor, a wait or a
line of log; in any monad it is that program with these requests answered there (`interpret_loop`).
Where the calls end and the factors are drawn one after the other as endless sequences say, the loop
makes as many calls as it takes to the first outcome that is final, but no more than it may, and
waits between any two of them, unless it comes to a wait or a delay too long to be held. The delays
grow from the first one, which alone is not bounded.
-/

set_option autoImplicit false

namespace InfraOperator

namespace RetryConfig

/-- The wait after that call can be held, the first one being call 0, and so can the delay of the
wait after the next. -/
def Fits (c : RetryConfig) (jitters : Nat → Jitter) (first : Nat) (delay : Span) (i : Nat) : Prop :=
  (jitters (first + i)).spread (c.grow^[i] delay) < .unheld ∧ c.grow^[i + 1] delay < .unheld

theorem Moderate.fits {c : RetryConfig} (h : c.Moderate) (jitters : Nat → Jitter) (first i : Nat) :
    c.Fits jitters first c.initialDelay i := by
  have delays : ∀ i, (c.grow^[i] c.initialDelay).Moderate := by
    rintro (_ | i)
    · exact h.first
    · rw [Function.iterate_succ_apply']
      exact h.grow _
  exact ⟨(jitters _).spread_lt (delays i), (delays (i + 1)).lt_unheld⟩

end RetryConfig

namespace Retry

variable {ε α : Type}

inductive Request where
  | call
  | draw (delay : Span)
  | wait (span : Span)
  | log (line : LogLine)

def Answer (ε α : Type) : Request → Type
  | .call => Except ε α
  | .draw _ => Jitter
  | .wait _ | .log _ => Unit

abbrev Loop (ε α : Type) : Interface := ⟨Request, Answer ε α⟩

def asking : Hooks (Program (Loop ε α)) where
  draw delay := Program.request (I := Loop ε α) (.draw delay)
  wait span := Program.request (I := Loop ε α) (.wait span)
  log line := Program.request (I := Loop ε α) (.log line)

def calling : Program (Loop ε α) (Except ε α) := Program.request (I := Loop ε α) .call

abbrev attempting (c : RetryConfig) (name : String) (again : ε → Bool) (left attempt : Nat)
    (delay : Span) : Program (Loop ε α) (Retried ε α) :=
  attempts asking c name again calling left attempt delay

def loop (c : RetryConfig) (name : String) (again : ε → Bool) :
    Program (Loop ε α) (Retried ε α) :=
  retryIf asking c name again calling

def Final (again : ε → Bool) : Except ε α → Prop
  | .ok _ => True
  | .error e => again e = false

instance (again : ε → Bool) : DecidablePred (Final (α := α) again)
  | .ok _ => .isTrue trivial
  | .error e => inferInstanceAs (Decidable (again e = false))

theorem final_error_iff {again : ε → Bool} {e : ε} :
    Final (α := α) again (.error e) ↔ ¬ again e = true := by
  simp [Final]

/-! ## In any monad -/

section Attempts

variable {m : Type → Type} [Monad m] (h : Hooks m) (c : RetryConfig) (name : String)
  (again : ε → Bool) (operation : m (Except ε α))

theorem attempts_zero (attempt : Nat) (delay : Span) :
    attempts h c name again operation 0 attempt delay = (do
      let outcome ← operation
      if Final again outcome then return .ended outcome
      h.log (line .warn "giving up after retries" name attempt)
      return .ended outcome) := by
  rw [attempts]
  congr 1
  funext outcome
  cases outcome with
  | ok value => rfl
  | error e =>
    by_cases more : again e = true
    · exact (if_pos more).trans (if_neg fun final => final_error_iff.1 final more).symm
    · exact (if_neg more).trans (if_pos (final_error_iff.2 more)).symm

theorem attempts_succ (left attempt : Nat) (delay : Span) :
    attempts h c name again operation (left + 1) attempt delay = (do
      let outcome ← operation
      if Final again outcome then return .ended outcome
      match ((← h.draw delay).spread delay).held? with
      | none => return .noDelay
      | some wait =>
        h.log (line .debug "retrying" name attempt)
        h.wait wait
        match c.nextDelay? delay with
        | none => return .noDelay
        | some next => attempts h c name again operation left (attempt + 1) next) := by
  rw [attempts]
  congr 1
  funext outcome
  cases outcome with
  | ok value => rfl
  | error e =>
    by_cases more : again e = true
    · exact (if_pos more).trans (if_neg fun final => final_error_iff.1 final more).symm
    · exact (if_neg more).trans (if_pos (final_error_iff.2 more)).symm

end Attempts

section Interpret

variable {m : Type → Type} [Monad m]

def Hooks.answer (h : Hooks m) (operation : m (Except ε α)) :
    (r : Request) → m (Answer ε α r)
  | .call => operation
  | .draw delay => h.draw delay
  | .wait span => h.wait span
  | .log line => h.log line

variable [LawfulMonad m] (h : Hooks m) (operation : m (Except ε α))

theorem interpret_calling : calling.interpret (h.answer operation) = operation := bind_pure _

theorem interpret_draw (delay : Span) :
    ((asking (ε := ε) (α := α)).draw delay).interpret (h.answer operation) = h.draw delay :=
  bind_pure _

theorem interpret_wait (span : Span) :
    ((asking (ε := ε) (α := α)).wait span).interpret (h.answer operation) = h.wait span :=
  bind_pure _

theorem interpret_log (line : LogLine) :
    ((asking (ε := ε) (α := α)).log line).interpret (h.answer operation) = h.log line :=
  bind_pure _

theorem interpret_attempts
    (c : RetryConfig) (name : String) (again : ε → Bool) (left attempt : Nat) (delay : Span) :
    (attempts asking c name again calling left attempt delay).interpret (h.answer operation) =
      attempts h c name again operation left attempt delay := by
  induction left generalizing attempt delay with
  | zero =>
    rw [attempts_zero, attempts_zero, Program.interpret_bind, interpret_calling]
    congr 1
    funext outcome
    by_cases final : Final again outcome
    · simp only [if_pos final]
      rfl
    · simp only [if_neg final, Program.interpret_bind, interpret_log]
      rfl
  | succ left ih =>
    rw [attempts_succ, attempts_succ, Program.interpret_bind, interpret_calling]
    congr 1
    funext outcome
    by_cases final : Final again outcome
    · simp only [if_pos final]
      rfl
    · simp only [if_neg final, Program.interpret_bind, interpret_draw]
      congr 1
      funext jitter
      cases (jitter.spread delay).held? with
      | none => rfl
      | some wait =>
        simp only [Program.interpret_bind, interpret_log, interpret_wait]
        cases c.nextDelay? delay with
        | none => rfl
        | some next => simp only [ih]

/-- A loop in any monad is the loop by itself with its requests answered there. -/
theorem interpret_loop
    (c : RetryConfig) (name : String) (again : ε → Bool) :
    (loop c name again).interpret (I := Loop ε α) (h.answer operation) =
      retryIf h c name again operation :=
  interpret_attempts h operation c name again _ _ _

end Interpret

/-! ## Endless sequences -/

/-- Each call ends and each factor is drawn as the sequences say; the numbers of those before it are
kept. -/
def answering (outcomes : Nat → Except ε α) (jitters : Nat → Jitter) :
    (r : Request) → Nat × Nat → Answer ε α r × (Nat × Nat)
  | .call, s => (outcomes s.1, s.1 + 1, s.2)
  | .draw _, s => (jitters s.2, s.1, s.2 + 1)
  | .wait _, s | .log _, s => ((), s)

def called (outcome : Except ε α) : Answered (Loop ε α) := ⟨.call, outcome⟩

def waited (span : Span) : Answered (Loop ε α) := ⟨.wait span, ()⟩

/-- Calls that end as the sequence says from that one on, with so many waits between them, drawn
from delays that grow from that one. -/
def course (c : RetryConfig) (outcomes : Nat → Except ε α) (jitters : Nat → Jitter) :
    (waits first : Nat) → Span → List (Answered (Loop ε α))
  | 0, n, _ => [called (outcomes n)]
  | waits + 1, n, delay =>
    called (outcomes n) :: waited ((jitters n).spread delay) ::
      course c outcomes jitters waits (n + 1) (c.grow delay)

def doings (run : List (Answered (Loop ε α))) : List (Answered (Loop ε α)) :=
  run.filter fun
    | ⟨.call, _⟩ | ⟨.wait _, _⟩ => true
    | ⟨.draw _, _⟩ | ⟨.log _, _⟩ => false

/-- The program ends with that value after these calls and waits, where calls end and factors are
drawn as the sequences say and so many have been before and in all. -/
def Ends {β : Type} (outcomes : Nat → Except ε α) (jitters : Nat → Jitter)
    (p : Program (Loop ε α) β) (s : Nat × Nat) (did : List (Answered (Loop ε α))) (value : β)
    (s' : Nat × Nat) : Prop :=
  p.run (answering outcomes jitters) s = (value, s') ∧
    doings (p.trace (answering outcomes jitters) s) = did

section Ends

variable {β : Type} {outcomes : Nat → Except ε α} {jitters : Nat → Jitter} {s s' : Nat × Nat}
  {did : List (Answered (Loop ε α))} {value : β}

theorem ends_done : Ends outcomes jitters (.done value) s [] value s := ⟨rfl, rfl⟩

theorem Ends.calling {f : Except ε α → Program (Loop ε α) β}
    (h : Ends outcomes jitters (f (outcomes s.1)) (s.1 + 1, s.2) did value s') :
    Ends outcomes jitters (calling >>= f) s (called (outcomes s.1) :: did) value s' :=
  ⟨h.1, congrArg (called (outcomes s.1) :: ·) h.2⟩

theorem Ends.drawing {delay : Span} {f : Jitter → Program (Loop ε α) β}
    (h : Ends outcomes jitters (f (jitters s.2)) (s.1, s.2 + 1) did value s') :
    Ends outcomes jitters (asking.draw delay >>= f) s did value s' := h

theorem Ends.waiting {span : Span} {f : Unit → Program (Loop ε α) β}
    (h : Ends outcomes jitters (f ()) s did value s') :
    Ends outcomes jitters (asking.wait span >>= f) s (waited span :: did) value s' :=
  ⟨h.1, congrArg (waited span :: ·) h.2⟩

theorem Ends.logging {line : LogLine} {f : Unit → Program (Loop ε α) β}
    (h : Ends outcomes jitters (f ()) s did value s') :
    Ends outcomes jitters (asking.log line >>= f) s did value s' := h

end Ends

theorem isLeast_succ {left least : Nat} {P : Nat → Prop} (later : ¬ P 0)
    (h : IsLeast {i | i = left ∨ P (i + 1)} least) :
    IsLeast {i | i = left + 1 ∨ P i} (least + 1) := by
  constructor
  · rcases h.1 with rfl | found
    · exact .inl rfl
    · exact .inr found
  · rintro (_ | i) (last | found)
    · omega
    · exact absurd found later
    · have := h.2 (.inl (Nat.succ.inj last))
      omega
    · have := h.2 (.inr found)
      omega

section Account

variable {c : RetryConfig} {name : String} {again : ε → Bool} {outcomes : Nat → Except ε α}
  {jitters : Nat → Jitter} {left attempt n i : Nat} {delay : Span}

theorem fits_succ : c.Fits jitters n delay (i + 1) ↔ c.Fits jitters (n + 1) (c.grow delay) i := by
  have place : n + (i + 1) = n + 1 + i := by omega
  rw [RetryConfig.Fits, RetryConfig.Fits, place]
  rfl

/-- After a failure that may be tried again, with a wait and a delay that can be held. -/
theorem ends_of_fits {did : List (Answered (Loop ε α))} {retried : Retried ε α} {s : Nat × Nat}
    (growing : 0 ≤ c.multiplier) (more : ¬ Final again (outcomes n))
    (fits : c.Fits jitters n delay 0)
    (later : Ends outcomes jitters (attempting c name again left (attempt + 1) (c.grow delay))
      (n + 1, n + 1) did retried s) :
    Ends outcomes jitters (attempting c name again (left + 1) attempt delay) (n, n)
      (called (outcomes n) :: waited ((jitters n).spread delay) :: did) retried s := by
  have wait : ((jitters n).spread delay).held? = some ((jitters n).spread delay) :=
    Span.held?_of_lt fits.1
  have next : c.nextDelay? delay = some (c.grow delay) :=
    (RetryConfig.nextDelay?_eq growing delay).trans (Span.held?_of_lt fits.2)
  rw [attempting, attempts_succ]
  apply Ends.calling
  rw [if_neg more]
  apply Ends.drawing
  simp only [wait, next]
  exact later.waiting.logging

/-- Where one of the two cannot be held, nothing more is called. -/
theorem exists_ends_of_not_fits (growing : 0 ≤ c.multiplier) (more : ¬ Final again (outcomes n))
    (long : ¬ c.Fits jitters n delay 0) :
    ∃ last, last <+: [waited ((jitters n).spread delay)] ∧
      Ends outcomes jitters (attempting c name again (left + 1) attempt delay) (n, n)
        (called (outcomes n) :: last) .noDelay (n + 1, n + 1) := by
  rw [attempting, attempts_succ]
  by_cases wait : (jitters n).spread delay < .unheld
  · have next : c.nextDelay? delay = none :=
      (RetryConfig.nextDelay?_eq growing delay).trans
        (Span.held?_of_not_lt fun held => long ⟨wait, held⟩)
    refine ⟨[waited _], List.prefix_refl _, Ends.calling ?_⟩
    rw [if_neg more]
    apply Ends.drawing
    simp only [Span.held?_of_lt wait, next]
    exact Ends.logging (Ends.waiting ends_done)
  · refine ⟨[], List.nil_prefix, Ends.calling ?_⟩
    rw [if_neg more]
    apply Ends.drawing
    simp only [Span.held?_of_not_lt wait]
    exact ends_done

/-- Attempts from any one on are as many as it takes to the first final outcome, but no more than
are left. -/
theorem attempts_account (growing : 0 ≤ c.multiplier) (name : String)
    (again : ε → Bool) (outcomes : Nat → Except ε α) (jitters : Nat → Jitter)
    (left attempt n : Nat) (delay : Span) :
    ∃ j, IsLeast {i | i = left ∨ Final again (outcomes (n + i))} j ∧
      ((∀ i < j, c.Fits jitters n delay i) →
        Ends outcomes jitters (attempting c name again left attempt delay) (n, n)
          (course c outcomes jitters j n delay) (.ended (outcomes (n + j))) (n + j + 1, n + j)) ∧
      ∀ i < j, (∀ i' < i, c.Fits jitters n delay i') → ¬ c.Fits jitters n delay i →
        ∃ last, last <+: [waited ((jitters (n + i)).spread (c.grow^[i] delay))] ∧
          Ends outcomes jitters (attempting c name again left attempt delay) (n, n)
            (course c outcomes jitters i n delay ++ last) .noDelay (n + i + 1, n + i + 1) := by
  induction left generalizing attempt n delay with
  | zero =>
    refine ⟨0, ⟨.inl rfl, fun i _ => Nat.zero_le i⟩, fun _ => ?_, nofun⟩
    rw [attempting, attempts_zero]
    apply Ends.calling
    by_cases final : Final again (outcomes n)
    · rw [if_pos final]
      exact ends_done
    · rw [if_neg final]
      exact Ends.logging ends_done
  | succ left ih =>
    by_cases final : Final again (outcomes n)
    · refine ⟨0, ⟨.inr final, fun i _ => Nat.zero_le i⟩, fun _ => ?_, nofun⟩
      rw [attempting, attempts_succ]
      apply Ends.calling
      rw [if_pos final]
      exact ends_done
    · obtain ⟨j, least, ends, stops⟩ := ih (attempt + 1) (n + 1) (c.grow delay)
      have place : ∀ i, n + 1 + i = n + (i + 1) := fun i => by omega
      simp only [place] at least ends stops
      refine ⟨j + 1, isLeast_succ final least, fun fits => ?_, ?_⟩
      · apply ends_of_fits growing final (fits 0 (Nat.succ_pos j))
        apply ends
        intro i before
        exact fits_succ.1 (fits (i + 1) (Nat.succ_lt_succ before))
      · rintro (_ | i) before fits long
        · exact exists_ends_of_not_fits growing final long
        · have first := fits 0 (Nat.succ_pos i)
          obtain ⟨last, waits, ends⟩ := stops i (Nat.lt_of_succ_lt_succ before)
            (fun i' earlier => fits_succ.1 (fits (i' + 1) (Nat.succ_lt_succ earlier)))
            (mt fits_succ.2 long)
          exact ⟨last, waits, ends_of_fits growing final first ends⟩

end Account

def heard (run : List (Answered (Loop ε α))) : List (Except ε α) :=
  run.filterMap fun
    | ⟨.call, outcome⟩ => some outcome
    | _ => none

def drawn (run : List (Answered (Loop ε α))) : List Jitter :=
  run.filterMap fun
    | ⟨.draw _, jitter⟩ => some jitter
    | _ => none

theorem eq_map_range'_cons {β : Type} {f : Nat → β} {first : β} {rest : List β} {n : Nat} :
    first :: rest = (List.range' n (first :: rest).length).map f ↔
      first = f n ∧ rest = (List.range' (n + 1) rest.length).map f := by
  simp [List.range'_succ]

/-- A whole run is known from sequences that begin as its calls ended and its factors were drawn. -/
theorem eq_trace_of_reaches {β : Type} {outcomes : Nat → Except ε α} {jitters : Nat → Jitter}
    {p : Program (Loop ε α) β} {run : List (Answered (Loop ε α))} {value : β} {s : Nat × Nat}
    (reached : p.Reaches run (.done value))
    (begins : heard run = (List.range' s.1 (heard run).length).map outcomes)
    (spread : drawn run = (List.range' s.2 (drawn run).length).map jitters) :
    run = p.trace (answering outcomes jitters) s ∧
      value = (p.run (answering outcomes jitters) s).1 := by
  induction p generalizing run s with
  | done value' =>
    cases reached
    exact ⟨rfl, rfl⟩
  | ask r next ih =>
    cases reached with
    | @told _ _ answer run _ later =>
      cases r with
      | call =>
        obtain ⟨rfl, rest⟩ := eq_map_range'_cons.1 begins
        obtain ⟨rfl, rfl⟩ := ih _ later (s := (s.1 + 1, s.2)) rest spread
        exact ⟨rfl, rfl⟩
      | draw delay =>
        obtain ⟨rfl, rest⟩ := eq_map_range'_cons.1 spread
        obtain ⟨rfl, rfl⟩ := ih _ later (s := (s.1, s.2 + 1)) begins rest
        exact ⟨rfl, rfl⟩
      | wait span =>
        obtain ⟨rfl, rfl⟩ := ih _ later begins spread
        exact ⟨rfl, rfl⟩
      | log line =>
        obtain ⟨rfl, rfl⟩ := ih _ later begins spread
        exact ⟨rfl, rfl⟩

def thirdTime (n : Nat) : Except String Nat := if n % 3 = 2 then .ok 42 else .error "conflict"

def middling : Nat → Jitter := fun _ => .one

def boundless : RetryConfig := ⟨2, .ofSeconds 10, .greatest, 10000000000000000000⟩

def secondTime : Nat → Except String Nat
  | 0 => .error "conflict"
  | _ => .ok 42

theorem run_boundless : (loop boundless "write" (· = "conflict")).run
    (answering secondTime middling) (0, 0) = (.noDelay, 1, 1) := by
  have more : ¬ Final (· = "conflict") (secondTime 0) := by decide
  have long : ¬ boundless.Fits middling 0 (.ofSeconds 10) 0 := by
    have next : boundless.grow (.ofSeconds 10) = .greatest := by decide +kernel
    rintro ⟨-, held⟩
    rw [Function.iterate_succ_apply, next] at held
    exact absurd held (by decide)
  obtain ⟨_, -, ends⟩ : ∃ last, last <+: _ ∧ Ends secondTime middling
      (attempting boundless "write" (· = "conflict") 1 1 (.ofSeconds 10)) (0, 0) (_ :: last)
      .noDelay (1, 1) := exists_ends_of_not_fits (by decide +kernel) more long
  exact ends.1

def delayOf : Answered (Loop ε α) → List Span
  | ⟨.draw delay, _⟩ => [delay]
  | _ => []

def waits (run : List (Answered (Loop ε α))) : List Span := run.flatMap delayOf

def Grown (c : RetryConfig) (past : List Span) (r : Request) : Prop :=
  ∀ delay, r = .draw delay → delay = c.grow^[past.length] c.initialDelay

section Safe

variable {β : Type} {c : RetryConfig} {past : List Span} {ends : List Span → β → Prop}

theorem safe_calling {f : Except ε α → Program (Loop ε α) β}
    (h : ∀ outcome, (f outcome).Safe delayOf (Grown c) ends past) :
    (calling >>= f).Safe delayOf (Grown c) ends past :=
  (Program.safe_ask_of_silent fun _ => rfl).2 ⟨nofun, h⟩

theorem safe_drawing {delay : Span} {f : Jitter → Program (Loop ε α) β}
    (grown : delay = c.grow^[past.length] c.initialDelay)
    (h : ∀ jitter, (f jitter).Safe delayOf (Grown c) ends (past ++ [delay])) :
    (asking.draw delay >>= f).Safe delayOf (Grown c) ends past := by
  refine ⟨?_, h⟩
  rintro _ ⟨⟩
  exact grown

theorem safe_waiting {span : Span} {f : Unit → Program (Loop ε α) β}
    (h : (f ()).Safe delayOf (Grown c) ends past) :
    (asking.wait span >>= f).Safe delayOf (Grown c) ends past :=
  (Program.safe_ask_of_silent fun _ => rfl).2 ⟨nofun, fun _ => h⟩

theorem safe_logging {line : LogLine} {f : Unit → Program (Loop ε α) β}
    (h : (f ()).Safe delayOf (Grown c) ends past) :
    (asking.log line >>= f).Safe delayOf (Grown c) ends past :=
  (Program.safe_ask_of_silent fun _ => rfl).2 ⟨nofun, fun _ => h⟩

end Safe

theorem safe_attempts {c : RetryConfig} {name : String} {again : ε → Bool}
    (left attempt : Nat) {past : List Span} {delay : Span}
    (grown : delay = c.grow^[past.length] c.initialDelay) :
    (attempts (α := α) asking c name again calling left attempt delay).Safe delayOf (Grown c)
      (fun _ _ => True) past := by
  induction left generalizing attempt past delay with
  | zero =>
    rw [attempts_zero]
    apply safe_calling
    intro outcome
    by_cases final : Final again outcome
    · rw [if_pos final]
      trivial
    · rw [if_neg final]
      exact safe_logging trivial
  | succ left ih =>
    rw [attempts_succ]
    apply safe_calling
    intro outcome
    by_cases final : Final again outcome
    · rw [if_pos final]
      trivial
    · rw [if_neg final]
      apply safe_drawing grown
      intro jitter
      cases (jitter.spread delay).held? with
      | none => trivial
      | some wait =>
        apply safe_logging
        apply safe_waiting
        cases follows : c.nextDelay? delay with
        | none => trivial
        | some next =>
          apply ih
          rw [List.length_append, List.length_singleton, Function.iterate_succ_apply', ← grown]
          exact RetryConfig.eq_grow_of_nextDelay? follows

/-- However far a run gets, its delays have grown from the first one. -/
theorem waits_eq_iterate {c : RetryConfig} {name : String} {again : ε → Bool}
    {run : List (Answered (Loop ε α))} {rest : Program (Loop ε α) (Retried ε α)}
    (reached : (loop c name again).Reaches run rest) :
    waits run = List.iterate c.grow c.initialDelay (waits run).length := by
  have safe : (loop (α := α) c name again).Safe delayOf (Grown c) (fun _ _ => True) [] :=
    safe_attempts _ _ rfl
  refine safe.invariant (fun past => past = List.iterate c.grow c.initialDelay past.length)
    reached rfl ?_
  intro past e known asked
  obtain ⟨r, answer⟩ := e
  cases r with
  | draw delay =>
    obtain rfl := asked delay rfl
    show past ++ [_] = List.iterate c.grow c.initialDelay (past ++ [_]).length
    rw [List.length_append, List.iterate_add, ← known]
    rfl
  | call | wait | log =>
    show past ++ [] = List.iterate c.grow c.initialDelay (past ++ []).length
    rw [List.append_nil]
    exact known

/-- Delays that have grown at least once are bounded. -/
theorem le_maxDelay_of_mem_tail {c : RetryConfig} {first delay : Span} {n : Nat}
    (h : delay ∈ (List.iterate c.grow first n).tail) : delay ≤ c.maxDelay := by
  cases n with
  | zero => cases h
  | succ n =>
    have later : delay ∈ List.iterate c.grow (c.grow first) n := h
    obtain ⟨i, -, rfl⟩ := List.mem_iterate.1 later
    rw [← Function.iterate_succ_apply, Function.iterate_succ_apply']
    exact c.grow_le _

/-- However the calls end and however far a run gets, its delays grow from the first one, each the
one before it times the multiplier and no more than the bound. So all but the first are within the
bound, and all of them exactly where there is none or the first one is. -/
theorem delays_within_iff (c : RetryConfig) (name : String) (again : ε → Bool)
    (run : List (Answered (Loop ε α))) (rest : Program (Loop ε α) (Retried ε α))
    (reached : (loop c name again).Reaches run rest) :
    waits run = List.iterate c.grow c.initialDelay (waits run).length ∧
      (∀ delay ∈ (waits run).tail, delay ≤ c.maxDelay) ∧
      ((∀ delay ∈ waits run, delay ≤ c.maxDelay) ↔
        waits run = [] ∨ c.initialDelay ≤ c.maxDelay) := by
  have grown := waits_eq_iterate reached
  generalize waits run = delays at *
  have later : ∀ delay ∈ delays.tail, delay ≤ c.maxDelay := by
    intro delay mem
    rw [grown] at mem
    exact le_maxDelay_of_mem_tail mem
  refine ⟨grown, later, ?_⟩
  cases delays with
  | nil => simp
  | cons first delays =>
    obtain ⟨rfl, -⟩ := List.cons.inj grown
    simpa using fun _ => later

def contested (c : RetryConfig) : List (Answered (Loop String Nat)) :=
  (loop c "write" (· = "conflict")).trace (answering (fun _ => .error "conflict") middling) (0, 0)

theorem exists_reaches_contested (c : RetryConfig) :
    ∃ rest, (loop c "write" (· = "conflict")).Reaches (contested c) rest :=
  ⟨_, Program.reaches_trace ..⟩

/-- The writes of a status wait within their bound. -/
theorem delays_within_iff_statusWrite :
    (∃ rest, (loop .statusWrite "write" (· = "conflict")).Reaches (contested .statusWrite) rest) ∧
      waits (contested .statusWrite) = [.ofMillis 50, .ofMillis 100] ∧
      ∀ delay ∈ waits (contested .statusWrite), delay ≤ RetryConfig.statusWrite.maxDelay := by
  obtain ⟨rest, reached⟩ := exists_reaches_contested .statusWrite
  refine ⟨⟨rest, reached⟩, by decide +kernel, ?_⟩
  exact (delays_within_iff _ _ _ _ rest reached).2.2.2 (.inr (by decide))

def slowStart : RetryConfig := ⟨2, .ofSeconds 100, .ofSeconds 1, 2⟩

/-- The first delay is waited for as it is, however little the bound allows. -/
theorem first_delay_unbounded :
    waits (contested slowStart) = [.ofSeconds 100] ∧ slowStart.maxDelay = .ofSeconds 1 ∧
      ¬ ∀ (c : RetryConfig) (name : String) (again : String → Bool)
        (run : List (Answered (Loop String Nat)))
        (rest : Program (Loop String Nat) (Retried String Nat)),
        0 ≤ c.multiplier → (loop c name again).Reaches run rest →
          ∀ delay ∈ waits run, delay ≤ c.maxDelay := by
  have waited : waits (contested slowStart) = [.ofSeconds 100] := by decide +kernel
  refine ⟨waited, rfl, fun always => ?_⟩
  obtain ⟨rest, reached⟩ := exists_reaches_contested slowStart
  have first : Span.ofSeconds 100 ∈ waits (contested slowStart) := by simp [waited]
  exact absurd (always _ _ _ _ rest (by decide +kernel) reached _ first) (by decide)

end Retry

end InfraOperator
