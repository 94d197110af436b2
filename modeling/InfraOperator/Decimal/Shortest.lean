/-!
# Shortest decimals of binary fractions

A finite double is `mantissa * 2 ^ exponent`. Its shortest decimal has the fewest digits among
those that round to it, and is the nearest of these; an exact tie goes to the even last digit.
-/

set_option autoImplicit false

namespace InfraOperator.Decimal

structure Scientific where
  digits : List Char
  point : Int
  deriving DecidableEq, Repr

/-- A positive double, and whether the gap below it is half of the gap above it. -/
structure Binary where
  mantissa : Nat
  exponent : Int
  narrowBelow : Bool

namespace Binary

def onGrid (b : Binary) (point : Int) (n : Nat) : Nat × Nat :=
  let scale := (n : Int) - point
  let top := b.mantissa * Nat.pow 2 b.exponent.toNat * Nat.pow 10 scale.toNat
  let bottom := Nat.pow 2 (-b.exponent).toNat * Nat.pow 10 (-scale).toNat
  (top, bottom)

def point (b : Binary) : Int :=
  let scaled := b.onGrid 0 400
  ((Nat.toDigits 10 (scaled.1 / scaled.2)).length : Int) - 400

def roundsTo (b : Binary) (top bottom c : Nat) : Bool :=
  let (factor, gap) :=
    if top ≤ c * bottom then (2, c * bottom - top)
    else (if b.narrowBelow then 4 else 2, top - c * bottom)
  let reach := factor * b.mantissa * gap
  if b.mantissa % 2 = 0 then reach ≤ top else reach < top

def neighbour? (b : Binary) (top bottom : Nat) : Option Nat :=
  let low := top / bottom
  let below := top - low * bottom
  let above := (low + 1) * bottom - top
  match b.roundsTo top bottom low, b.roundsTo top bottom (low + 1) with
  | true, true =>
    if below < above ∨ (below = above ∧ low % 2 = 0) then some low else some (low + 1)
  | true, false => some low
  | false, true => some (low + 1)
  | false, false => none

def trimZeros (cs : List Char) : List Char := (cs.reverse.dropWhile (· = '0')).reverse

def onGrids (b : Binary) (point : Int) : List Nat → Scientific
  | [] => ⟨[], 0⟩
  | n :: rest =>
    let (top, bottom) := b.onGrid point n
    match b.neighbour? top bottom with
    | some c =>
      let digits := Nat.toDigits 10 c
      ⟨trimZeros digits, point - n + digits.length⟩
    | none => onGrids b point rest

def shortest (b : Binary) : Scientific :=
  b.onGrids b.point (List.range' 1 17)

end Binary

/-- The double with the given bits, its sign dropped; none for zero, infinities and NaN. -/
def Binary.ofBits? (bits : UInt64) : Option Binary :=
  let fraction : Nat := bits.toNat % Nat.pow 2 52
  let biased : Nat := bits.toNat / Nat.pow 2 52 % Nat.pow 2 11
  if biased = 2047 then none
  else if biased = 0 then
    if fraction = 0 then none else some ⟨fraction, -1074, false⟩
  else some ⟨Nat.pow 2 52 + fraction, (biased : Int) - 1075, fraction = 0 && biased ≠ 1⟩

def Binary.value (b : Binary) : Rat :=
  (b.mantissa * Nat.pow 2 b.exponent.toNat : Nat) / (Nat.pow 2 (-b.exponent).toNat : Nat)

/-- The value of the double with the given bits; infinities and NaN count as zero. -/
def valueOfBits (bits : UInt64) : Rat :=
  match Binary.ofBits? bits with
  | some b => if bits.toNat < Nat.pow 2 63 then b.value else -b.value
  | none => 0

example : (Binary.mk 1 (-1074) false).shortest = ⟨['5'], -323⟩ := by decide +kernel
example : (Binary.mk (2 ^ 52) (-52) true).shortest = ⟨['1'], 1⟩ := by decide +kernel

end InfraOperator.Decimal
