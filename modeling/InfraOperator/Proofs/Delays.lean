import InfraOperator.Cycle.Retry
import Mathlib.Data.Rat.Floor
import Mathlib.Tactic.Linarith

/-!
# Delays between attempts

A delay that leaves half of itself to spare can be spread out by any factor. Where the first delay
and the bound of the later ones are such, a loop of retries never lacks a delay.
-/

set_option autoImplicit false

namespace InfraOperator

namespace Span

variable {s t : Span}

theorem held?_eq_some_iff : s.held? = some t ↔ s < unheld ∧ s = t := by
  rw [held?]
  split
  · rename_i held
    exact Option.some_inj.trans (and_iff_right held).symm
  · rename_i unheld
    exact iff_of_false nofun fun h => unheld h.1

theorem held?_of_lt (h : s < unheld) : s.held? = some s := held?_eq_some_iff.2 ⟨h, rfl⟩

theorem held?_of_not_lt (h : ¬ s < unheld) : s.held? = none := if_neg h

def Moderate (s : Span) : Prop := s.nanos * 3 ≤ unheld.nanos * 2

instance (s : Span) : Decidable s.Moderate := inferInstanceAs (Decidable (_ ≤ _))

theorem Moderate.mono (h : t.Moderate) (le : s ≤ t) : s.Moderate :=
  Nat.le_trans (Nat.mul_le_mul_right 3 le) h

theorem unheld_pos : 0 < unheld.nanos := by decide

theorem Moderate.lt_unheld (h : s.Moderate) : s < unheld := by
  have positive := unheld_pos
  have half : s.nanos * 3 ≤ unheld.nanos * 2 := h
  show s.nanos < unheld.nanos
  omega

end Span

theorem Jitter.spread_lt {delay : Span} (j : Jitter) (h : delay.Moderate) :
    j.spread delay < Span.unheld := by
  have positive : (0 : Rat) < Span.unheld.nanos := Nat.cast_pos.2 Span.unheld_pos
  have half : (delay.nanos : Rat) * 3 ≤ Span.unheld.nanos * 2 := by exact_mod_cast h
  have short : (delay.nanos : Rat) * j.factor < Span.unheld.nanos := by
    rcases Nat.eq_zero_or_pos delay.nanos with none | some
    · rw [none, Nat.cast_zero, zero_mul]
      exact positive
    · have spread := mul_lt_mul_of_pos_left j.below (Nat.cast_pos.2 some : (0 : Rat) < delay.nanos)
      linarith
  have floored : ((delay.nanos : Rat) * j.factor).floor < Span.unheld.nanos :=
    Rat.floor_lt_iff.2 short
  have whole := Span.unheld_pos
  show Int.toNat _ < Span.unheld.nanos
  omega

namespace RetryConfig

def grow (c : RetryConfig) (delay : Span) : Span :=
  min ⟨((delay.nanos : Rat) * c.multiplier).floor.toNat⟩ c.maxDelay

variable {c : RetryConfig} {delay next : Span}

theorem grow_le (c : RetryConfig) (delay : Span) : c.grow delay ≤ c.maxDelay :=
  Nat.min_le_right ..

theorem eq_grow_of_nextDelay? (follows : c.nextDelay? delay = some next) :
    next = c.grow delay := by
  rw [nextDelay?, Option.ite_none_left_eq_some, Span.held?_eq_some_iff] at follows
  exact follows.2.2.symm

theorem nextDelay?_eq (growing : 0 ≤ c.multiplier) (delay : Span) :
    c.nextDelay? delay = (c.grow delay).held? := by
  have grown : (0 : Rat) ≤ (delay.nanos : Rat) * c.multiplier :=
    mul_nonneg (Nat.cast_nonneg _) growing
  have ahead : ¬ (delay.nanos : Rat) * c.multiplier ≤ -negligible := by
    intro le
    exact absurd (le_trans grown le) (by decide +kernel)
  exact if_neg ahead

/-- The delays can be waited for, however they are spread out, and none of them is the last. -/
structure Moderate (c : RetryConfig) : Prop where
  growing : 0 ≤ c.multiplier
  first : c.initialDelay.Moderate
  later : c.maxDelay.Moderate

theorem moderate_statusWrite : statusWrite.Moderate :=
  ⟨by decide +kernel, by decide, by decide⟩

theorem Moderate.grow (h : c.Moderate) (delay : Span) : (c.grow delay).Moderate :=
  h.later.mono (c.grow_le delay)

theorem Moderate.nextDelay?_eq (h : c.Moderate) (delay : Span) :
    c.nextDelay? delay = some (c.grow delay) :=
  (RetryConfig.nextDelay?_eq h.growing delay).trans
    (Span.held?_of_lt (h.grow delay).lt_unheld)

end RetryConfig

end InfraOperator
