import InfraOperator.Time.Span

/-!
# Instants

An instant is a whole second since 1970 and the nanoseconds after it. A leap second is the second
before it with a thousand million nanoseconds or more, so instants order by their two parts. The
calendar is the proleptic Gregorian one; its days are counted from 1970-01-01.
-/

set_option autoImplicit false

namespace InfraOperator

structure Instant where
  seconds : Int
  nanos : Nat
  deriving DecidableEq, Repr, Inhabited

namespace Instant

def ofSeconds (seconds : Int) : Instant := ⟨seconds, 0⟩

instance : LE Instant :=
  ⟨fun a b => a.seconds < b.seconds ∨ (a.seconds = b.seconds ∧ a.nanos ≤ b.nanos)⟩

instance (a b : Instant) : Decidable (a ≤ b) :=
  inferInstanceAs (Decidable (_ ∨ _))

theorem le_refl (a : Instant) : a ≤ a := .inr ⟨rfl, Nat.le_refl _⟩

theorem le_trans {a b c : Instant} (hab : a ≤ b) (hbc : b ≤ c) : a ≤ c := by
  rcases hab with h | ⟨h, h'⟩ <;> rcases hbc with g | ⟨g, g'⟩
  · exact .inl (by omega)
  · exact .inl (by omega)
  · exact .inl (by omega)
  · exact .inr ⟨by omega, by omega⟩

theorem le_antisymm {a b : Instant} (hab : a ≤ b) (hba : b ≤ a) : a = b := by
  obtain ⟨x, m⟩ := a
  obtain ⟨y, n⟩ := b
  rcases hab with h | ⟨h, h'⟩ <;> rcases hba with g | ⟨g, g'⟩ <;> simp only at h g
  · omega
  · omega
  · omega
  · have : m = n := Nat.le_antisymm h' g'
    simp [h, this]

theorem le_total (a b : Instant) : a ≤ b ∨ b ≤ a := by
  rcases Int.lt_trichotomy a.seconds b.seconds with h | h | h
  · exact .inl (.inl h)
  · rcases Nat.le_total a.nanos b.nanos with g | g
    · exact .inl (.inr ⟨h, g⟩)
    · exact .inr (.inr ⟨h.symm, g⟩)
  · exact .inr (.inl h)

def sinceEpoch (i : Instant) : Int := i.seconds * Span.perSecond + i.nanos

/-- The time from `earlier` on, nothing if that lies ahead. -/
def since (later earlier : Instant) : Span := ⟨(later.sinceEpoch - earlier.sinceEpoch).toNat⟩

def ofNanos (n : Int) : Instant :=
  ⟨n / Span.perSecond, (n % Span.perSecond).toNat⟩

def advance (i : Instant) (s : Span) : Instant := ofNanos (i.sinceEpoch + s.nanos)

def leastSecond : Int := -8334601228800
def greatestSecond : Int := 8210266876799

def ofSeconds? (seconds : Int) : Option Instant :=
  if leastSecond ≤ seconds ∧ seconds ≤ greatestSecond then some (ofSeconds seconds) else none

/-- The instant so many nanoseconds after a whole second, if the calendar reaches it. More than a
second of them is a leap second, which only the last second of a minute may have after it. -/
def ofParts? (seconds : Int) (nanos : Nat) : Option Instant :=
  if nanos < Span.perSecond ∨ (nanos < 2 * Span.perSecond ∧ seconds % 60 = 59) then
    (ofSeconds? seconds).map fun i => { i with nanos }
  else none

end Instant

structure Date where
  year : Int
  month : Nat
  day : Nat
  deriving DecidableEq, Repr

namespace Date

def isLeap (year : Int) : Bool := year % 4 = 0 && (year % 100 ≠ 0 || year % 400 = 0)

def monthLength (year : Int) (month : Nat) : Nat :=
  if month = 2 then if isLeap year then 29 else 28
  else if month = 4 ∨ month = 6 ∨ month = 9 ∨ month = 11 then 30
  else 31

def isValid (d : Date) : Bool :=
  1 ≤ d.month && d.month ≤ 12 && 1 ≤ d.day && d.day ≤ monthLength d.year d.month &&
    -262143 ≤ d.year && d.year ≤ 262142

/-- Days from 1970-01-01, counted in years that begin in March. -/
def toDays (d : Date) : Int :=
  let year := if d.month ≤ 2 then d.year - 1 else d.year
  let era := year / 400
  let yearOfEra := year % 400
  let month : Int := if d.month ≤ 2 then d.month + 9 else d.month - 3
  let dayOfYear := (153 * month + 2) / 5 + d.day - 1
  let dayOfEra := yearOfEra * 365 + yearOfEra / 4 - yearOfEra / 100 + dayOfYear
  era * 146097 + dayOfEra - 719468

def ofDays (days : Int) : Date :=
  let shifted := days + 719468
  let era := shifted / 146097
  let dayOfEra := shifted % 146097
  let yearOfEra := (dayOfEra - dayOfEra / 1460 + dayOfEra / 36524 - dayOfEra / 146096) / 365
  let dayOfYear := dayOfEra - (365 * yearOfEra + yearOfEra / 4 - yearOfEra / 100)
  let month := (5 * dayOfYear + 2) / 153
  let day := dayOfYear - (153 * month + 2) / 5 + 1
  let civilMonth := if month < 10 then month + 3 else month - 9
  ⟨yearOfEra + era * 400 + if civilMonth ≤ 2 then 1 else 0, civilMonth.toNat, day.toNat⟩

example : ofDays 0 = ⟨1970, 1, 1⟩ := by decide
example : toDays ⟨2024, 5, 1⟩ = 19844 := by decide
example : ofDays 19844 = ⟨2024, 5, 1⟩ := by decide

end Date

end InfraOperator
