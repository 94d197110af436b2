/-!
# Spans of time

A span is a number of nanoseconds. Spans add, scale and compare exactly.
-/

set_option autoImplicit false

namespace InfraOperator

structure Span where
  nanos : Nat
  deriving DecidableEq, Repr, Inhabited

namespace Span

def perSecond : Nat := 1000000000

def ofParts (seconds nanos : Nat) : Span := ⟨seconds * perSecond + nanos⟩
def ofSeconds (n : Nat) : Span := ofParts n 0
def ofMillis (n : Nat) : Span := ⟨n * 1000000⟩
def zero : Span := ⟨0⟩
def microsecond : Span := ⟨1000⟩

def greatestSeconds : Nat := 18446744073709551615

def greatest : Span := ofParts greatestSeconds 999999999

def seconds (s : Span) : Nat := s.nanos / perSecond

def subsecond (s : Span) : Nat := s.nanos % perSecond

def isZero (s : Span) : Bool := s.nanos = 0

def scale (s : Span) (n : Nat) : Span := ⟨s.nanos * n⟩

protected def min (s t : Span) : Span := ⟨Nat.min s.nanos t.nanos⟩

instance : Min Span := ⟨Span.min⟩
instance : LE Span := ⟨fun s t => s.nanos ≤ t.nanos⟩
instance : LT Span := ⟨fun s t => s.nanos < t.nanos⟩
instance (s t : Span) : Decidable (s ≤ t) := inferInstanceAs (Decidable (s.nanos ≤ t.nanos))
instance (s t : Span) : Decidable (s < t) := inferInstanceAs (Decidable (s.nanos < t.nanos))

theorem ofParts_seconds_subsecond (s : Span) : ofParts s.seconds s.subsecond = s := by
  simp [ofParts, seconds, subsecond, Nat.div_add_mod']

@[simp] theorem nanos_min (s t : Span) : (min s t).nanos = min s.nanos t.nanos := rfl

end Span

end InfraOperator
