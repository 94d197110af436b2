import InfraOperator.Cycle.Surroundings

/-!
# Retries with growing delays

An operation is tried until it succeeds, fails for good, or has used up its attempts. Between two
attempts lies a delay, the first as configured and each later one a multiple of the one before it
but no more than the greatest; what is waited for is the delay times a factor drawn by chance. After
many failures of a whole cycle the delay doubles with each.

Lengths are scaled exactly. That the seconds of a length pass through a double on the way is looked
at only where there is no length that the double could be turned back to.
-/

set_option autoImplicit false

namespace InfraOperator

namespace Span

/-- The first length of whose seconds the nearest double is 2 ^ 64, which is one second too many: the
double before that is less by 2048, and of two doubles as near the even one is taken. -/
def unheld : Span := .ofSeconds 18446744073709550592

def held? (s : Span) : Option Span := if s < unheld then some s else none

end Span

structure Jitter where
  factor : Rat
  least : 1 / 2 ≤ factor
  below : factor < 3 / 2

namespace Jitter

def one : Jitter := ⟨1, by decide +kernel, by decide +kernel⟩

def spread (j : Jitter) (delay : Span) : Span := ⟨((delay.nanos : Rat) * j.factor).floor.toNat⟩

end Jitter

structure RetryConfig where
  /-- Attempts with the first one; none counts as one. -/
  maxAttempts : Nat
  initialDelay : Span
  maxDelay : Span
  multiplier : Rat
  deriving DecidableEq, Repr

namespace RetryConfig

def statusWrite : RetryConfig := ⟨3, .ofMillis 50, .ofMillis 500, 2⟩

/-- Half of the least positive double of seconds, in nanoseconds; what is smaller counts as zero. -/
def negligible : Rat := (Span.perSecond : Rat) / (Nat.pow 2 1075 : Nat)

/-- The delay after one of that length; none where that is negative and not negligible, or too
long. -/
def nextDelay? (c : RetryConfig) (delay : Span) : Option Span :=
  let grown : Rat := (delay.nanos : Rat) * c.multiplier
  if grown ≤ -negligible then none else (min ⟨grown.floor.toNat⟩ c.maxDelay).held?

example : (RetryConfig.mk 3 (.ofMillis 10) (.ofSeconds 1) 10).nextDelay? (.ofMillis 10) =
    some (.ofMillis 100) := by decide +kernel
example : (RetryConfig.mk 3 (.ofMillis 10) (.ofSeconds 1) (-1)).nextDelay? (.ofMillis 10) =
    none := by decide +kernel

end RetryConfig

/-- How a retried operation ends: with its last outcome, or because there is no delay to follow. -/
inductive Retried (ε α : Type) where
  | ended (result : Except ε α)
  | noDelay

namespace Retry

structure Hooks (m : Type → Type) where
  draw : Span → m Jitter
  wait : Span → m Unit
  log : LogLine → m Unit

section

variable {m : Type → Type} [Monad m] {ε α : Type}

def line (level : LogLevel) (message operation : String) (attempt : Nat) : LogLine :=
  ⟨level, message, [("operation", operation), ("attempt", toString attempt)]⟩

/-- Tries from attempt number `attempt` on, with `left` more after it and `delay` ahead. -/
def attempts (h : Hooks m) (c : RetryConfig) (name : String) (again : ε → Bool)
    (operation : m (Except ε α)) : (left attempt : Nat) → Span → m (Retried ε α)
  | 0, attempt, _ => do
    match ← operation with
    | .ok value => return .ended (.ok value)
    | .error e =>
      if again e then
        h.log (line .warn "giving up after retries" name attempt)
      return .ended (.error e)
  | left + 1, attempt, delay => do
    match ← operation with
    | .ok value => return .ended (.ok value)
    | .error e =>
      if again e then
        match ((← h.draw delay).spread delay).held? with
        | none => return .noDelay
        | some wait =>
          h.log (line .debug "retrying" name attempt)
          h.wait wait
          match c.nextDelay? delay with
          | none => return .noDelay
          | some delay => attempts h c name again operation left (attempt + 1) delay
      else return .ended (.error e)

def retryIf (h : Hooks m) (c : RetryConfig) (name : String) (again : ε → Bool)
    (operation : m (Except ε α)) : m (Retried ε α) :=
  attempts h c name again operation (c.maxAttempts - 1) 1 c.initialDelay

end

end Retry

/-- The delay after so many failures in a row: `base`, doubled for each but the first, up to
`most`. Beyond the seventeenth failure it no longer doubles. -/
def backoffDelay (failures : Nat) (base most : Span) : Span :=
  min (base.scale (Nat.pow 2 (min (failures - 1) 16))) most

end InfraOperator
