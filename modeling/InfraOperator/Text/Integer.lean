/-!
# Integers in decimal

A decimal integer is an optional sign and at least one digit, leading zeros allowed, and has to
lie within the bounds of the word it is read into. `readInt?` also takes a minus sign and
`readNat?` does not.
-/

set_option autoImplicit false

namespace InfraOperator

structure Bounds where
  least : Int
  greatest : Int

namespace Bounds

def int32 : Bounds := ⟨-2147483648, 2147483647⟩
def int64 : Bounds := ⟨-9223372036854775808, 9223372036854775807⟩
def nat16 : Bounds := ⟨0, 65535⟩
def nat32 : Bounds := ⟨0, 4294967295⟩
def nat64 : Bounds := ⟨0, 18446744073709551615⟩

def holds (b : Bounds) (i : Int) : Bool := b.least ≤ i && i ≤ b.greatest

def check (b : Bounds) (i : Int) : Option Int := if b.holds i then some i else none

end Bounds

namespace Text

def digitValue (c : Char) : Nat := c.toNat - '0'.toNat

def digitsValue (cs : List Char) : Nat := cs.foldl (fun n c => 10 * n + digitValue c) 0

def readDigits? (cs : List Char) : Option Nat :=
  if cs.isEmpty then none
  else if cs.all Char.isDigit then some (digitsValue cs)
  else none

def readInt? (b : Bounds) (text : String) : Option Int :=
  match text.toList with
  | '-' :: cs => (readDigits? cs).bind fun n => b.check (-(n : Int))
  | '+' :: cs => (readDigits? cs).bind fun n => b.check n
  | cs => (readDigits? cs).bind fun n => b.check n

def readNat? (b : Bounds) (text : String) : Option Nat :=
  match text.toList with
  | '+' :: cs => (readDigits? cs).bind fun n => if b.holds n then some n else none
  | cs => (readDigits? cs).bind fun n => if b.holds n then some n else none

end Text

end InfraOperator
