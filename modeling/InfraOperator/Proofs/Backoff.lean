import InfraOperator.Cycle.Failures
import Mathlib.Algebra.Group.Nat.Defs

/-!
# How long failures are put off

The delay doubles with each failure up to the seventeenth and is cut off at its bound. Where sixteen
doublings reach the bound this is the doubling of all failures; a bound above that is never reached.

Words hold a span as seconds of 64 bits and the nanoseconds beyond them. A multiple that they have
no room for is the greatest span they hold, which no bound that they hold lies above.
-/

set_option autoImplicit false

namespace InfraOperator

namespace Span

/-- The multiple in words: the nanoseconds are scaled apart and carried over to the seconds, and the
greatest span stands for one whose seconds have no room. -/
def saturatingScale (s : Span) (n : Nat) : Span :=
  let nanos := s.subsecond * n
  let seconds := s.seconds * n + nanos / perSecond
  if seconds ≤ greatestSeconds then ofParts seconds (nanos % perSecond) else greatest

theorem ext_nanos {s t : Span} (h : s.nanos = t.nanos) : s = t := congrArg mk h

theorem le_iff {s t : Span} : s ≤ t ↔ s.nanos ≤ t.nanos := Iff.rfl

@[simp] theorem nanos_scale (s : Span) (n : Nat) : (s.scale n).nanos = s.nanos * n := rfl

theorem nanos_mul (s : Span) (n : Nat) :
    s.nanos * n = s.seconds * n * perSecond + s.subsecond * n := by
  have parts : s.nanos = s.seconds * perSecond + s.subsecond :=
    congrArg nanos (ofParts_seconds_subsecond s).symm
  rw [parts, Nat.add_mul, Nat.mul_right_comm]

/-- In words a multiple is the exact one, cut off at the greatest span. -/
theorem saturatingScale_eq (s : Span) (n : Nat) :
    s.saturatingScale n = min (s.scale n) greatest := by
  apply ext_nanos
  rw [nanos_min, nanos_scale, nanos_mul]
  unfold saturatingScale
  generalize s.seconds * n = whole, s.subsecond * n = rest
  by_cases room : whole + rest / perSecond ≤ greatestSeconds
  · rw [if_pos room]
    simp only [ofParts, greatest, greatestSeconds, perSecond] at *
    omega
  · rw [if_neg room]
    simp only [ofParts, greatest, greatestSeconds, perSecond] at *
    omega

end Span

/-- Up to the seventeenth failure the delay doubles, from then on it stays as it is. -/
theorem backoffDelay_seventeen (n : Nat) (base most : Span) :
    backoffDelay n base most = min (base.scale (2 ^ (min (max n 1) 17 - 1))) most := by
  have exponent : min (max n 1) 17 - 1 = min (n - 1) 16 := by omega
  rw [exponent]
  rfl

/-- Doubling past the sixteenth time makes a difference to nothing but a positive delay that has
not reached its bound. -/
theorem min_doubled_iff (n base most : Nat) :
    min (base * 2 ^ min (n - 1) 16) most = min (base * 2 ^ (n - 1)) most ↔
      n ≤ 17 ∨ base = 0 ∨ most ≤ base * 2 ^ 16 := by
  by_cases few : n ≤ 17
  · have same : min (n - 1) 16 = n - 1 := by omega
    exact iff_of_true (by rw [same]) (.inl few)
  by_cases nothing : base = 0
  · simp [nothing]
  have last : min (n - 1) 16 = 16 := by omega
  have more : base * 2 ^ 17 ≤ base * 2 ^ (n - 1) :=
    Nat.mul_le_mul_left base (Nat.pow_le_pow_right (by decide) (by omega))
  rw [last]
  generalize base * 2 ^ (n - 1) = doubled at *
  omega

theorem backoffDelay_doubles_iff {n : Nat} {base most : Span} :
    backoffDelay n base most = min (base.scale (2 ^ (max n 1 - 1))) most ↔
      n ≤ 17 ∨ base = .zero ∨ most ≤ base.scale (2 ^ 16) := by
  have exponent : max n 1 - 1 = n - 1 := by omega
  have nothing : base = .zero ↔ base.nanos = 0 := ⟨congrArg Span.nanos, Span.ext_nanos⟩
  rw [exponent, nothing, Span.le_iff, Span.nanos_scale, ← min_doubled_iff]
  exact Iff.intro (congrArg Span.nanos) Span.ext_nanos

theorem backoffDelay_mono {n m : Nat} (h : n ≤ m) (base most : Span) :
    backoffDelay n base most ≤ backoffDelay m base most := by
  have exponent : min (n - 1) 16 ≤ min (m - 1) 16 := by omega
  have grown := Nat.mul_le_mul_left base.nanos (Nat.pow_le_pow_right (n := 2) (by decide) exponent)
  exact Nat.le_min.2 ⟨Nat.le_trans (Nat.min_le_left ..) grown, Nat.min_le_right ..⟩

theorem backoffDelay_le_bound (n : Nat) (base most : Span) : backoffDelay n base most ≤ most :=
  Nat.min_le_right ..

/-- The bound is reached just where sixteen doublings reach it. -/
theorem exists_reached_iff {base most : Span} :
    (∃ enough, ∀ n, enough ≤ n → backoffDelay n base most = most) ↔
      most ≤ base.scale (2 ^ 16) := by
  constructor
  · rintro ⟨enough, reached⟩
    have last := reached (max enough 17) (Nat.le_max_left ..)
    have exponent : min (max (max enough 17) 1) 17 - 1 = 16 := by omega
    rw [backoffDelay_seventeen, exponent] at last
    rw [Span.le_iff, ← congrArg Span.nanos last, Span.nanos_min]
    exact Nat.min_le_left ..
  · intro reached
    refine ⟨17, fun n many => ?_⟩
    have exponent : min (max n 1) 17 - 1 = 16 := by omega
    rw [backoffDelay_seventeen, exponent]
    exact Span.ext_nanos (Nat.min_eq_right reached)

/-- In words that have room for the bound nothing overflows: neither the factor nor the scaled
nanoseconds, and where the scaled seconds would the bound is the delay anyway. -/
theorem backoffDelay_in_words {n : Nat} {base most : Span} (held : most ≤ Span.greatest) :
    2 ^ min (n - 1) 16 < 2 ^ 32 ∧ base.subsecond * 2 ^ min (n - 1) 16 < 2 ^ 64 ∧
      min (base.saturatingScale (2 ^ min (n - 1) 16)) most = backoffDelay n base most := by
  have factor : 2 ^ min (n - 1) 16 ≤ 2 ^ 16 :=
    Nat.pow_le_pow_right (by decide) (Nat.min_le_right ..)
  have part : base.subsecond < 1000000000 := Nat.mod_lt _ (by decide)
  have scaled := Nat.mul_le_mul (Nat.le_of_lt part) factor
  refine ⟨by omega, by omega, ?_⟩
  rw [Span.saturatingScale_eq]
  have within : most.nanos ≤ Span.greatest.nanos := held
  apply Span.ext_nanos
  show min (min _ _) _ = min _ _
  rw [Nat.min_assoc, Nat.min_eq_right within]
  rfl

/-- The delay is the base, doubled for each failure but the first and cut off at the bound, exactly
where no more than seventeen failures are counted, the base is nothing, or sixteen doublings reach
the bound, which is also when it is reached at all. It never decreases from a failure to the next
and never exceeds the bound, and words compute it without overflow. -/
theorem backoffDelay_exact (n : Nat) (base most : Span) :
    backoffDelay n base most = min (base.scale (2 ^ (min (max n 1) 17 - 1))) most ∧
    (backoffDelay n base most = min (base.scale (2 ^ (max n 1 - 1))) most ↔
      n ≤ 17 ∨ base = .zero ∨ most ≤ base.scale (2 ^ 16)) ∧
    (∀ m, n ≤ m → backoffDelay n base most ≤ backoffDelay m base most) ∧
    backoffDelay n base most ≤ most ∧
    ((∃ enough, ∀ m, enough ≤ m → backoffDelay m base most = most) ↔
      most ≤ base.scale (2 ^ 16)) ∧
    (most ≤ Span.greatest →
      2 ^ min (n - 1) 16 < 2 ^ 32 ∧ base.subsecond * 2 ^ min (n - 1) 16 < 2 ^ 64 ∧
        min (base.saturatingScale (2 ^ min (n - 1) 16)) most = backoffDelay n base most) := by
  refine ⟨backoffDelay_seventeen n base most, backoffDelay_doubles_iff, ?_,
    backoffDelay_le_bound n base most, exists_reached_iff, backoffDelay_in_words⟩
  intro m more
  exact backoffDelay_mono more base most

/-- With the base and the bound that failures are tracked with, the delay doubles to the bound and
stays there, however many failures are counted. -/
theorem backoffDelay_exact_tracked :
    (7 : Nat) ≤ Failures.countLimit ∧ Failures.maxDelay ≤ Span.greatest ∧
      backoffDelay Failures.countLimit Failures.baseDelay Failures.maxDelay =
        min (Failures.baseDelay.scale (2 ^ (max Failures.countLimit 1 - 1))) Failures.maxDelay ∧
      backoffDelay 7 Failures.baseDelay Failures.maxDelay ≤
        backoffDelay Failures.countLimit Failures.baseDelay Failures.maxDelay ∧
      min (Failures.baseDelay.saturatingScale 64) Failures.maxDelay =
        backoffDelay 7 Failures.baseDelay Failures.maxDelay := by
  have held : Failures.maxDelay ≤ Span.greatest := by decide
  have seven := backoffDelay_exact 7 Failures.baseDelay Failures.maxDelay
  have limit := backoffDelay_exact Failures.countLimit Failures.baseDelay Failures.maxDelay
  refine ⟨by decide, held, ?_, ?_, ?_⟩
  · exact limit.2.1.2 (.inr (.inr (by decide)))
  · exact seven.2.2.1 Failures.countLimit (by decide)
  · exact (seven.2.2.2.2.2 held).2.2

/-- A base of one nanosecond is no longer doubled at the eighteenth failure, although a second is
far off, and never gets there. -/
theorem doubling_ends :
    backoffDelay 18 ⟨1⟩ (.ofSeconds 1) = ⟨65536⟩ ∧
      min (Span.scale ⟨1⟩ (2 ^ (max 18 1 - 1))) (.ofSeconds 1) = (⟨131072⟩ : Span) ∧
      ¬ ∀ (n : Nat) (base most : Span), n ≤ Failures.countLimit →
        backoffDelay n base most = min (base.scale (2 ^ (max n 1 - 1))) most :=
  ⟨by decide, by decide, fun always =>
    absurd (always 18 ⟨1⟩ (.ofSeconds 1) (by decide)) (by decide)⟩

end InfraOperator
