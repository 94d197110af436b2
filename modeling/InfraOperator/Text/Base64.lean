/-!
# Base64

The standard alphabet with padding. Reading is canonical: the padding has to be there and the
bits it leaves over have to be zero, so `decode` accepts only what `encode` writes.
-/

set_option autoImplicit false

namespace InfraOperator

abbrev Bytes := List UInt8

namespace Bytes

def ofText (text : String) : Bytes := text.toUTF8.toList

def toText? (bytes : Bytes) : Option String := String.fromUTF8? ⟨bytes.toArray⟩

end Bytes

namespace Text.Base64

def symbol (n : Nat) : Char :=
  if n < 26 then Char.ofNat (n + 65)
  else if n < 52 then Char.ofNat (n + 71)
  else if n < 62 then Char.ofNat (n - 4)
  else if n = 62 then '+'
  else '/'

def value? (c : Char) : Option Nat :=
  let n := c.toNat
  if 65 ≤ n ∧ n ≤ 90 then some (n - 65)
  else if 97 ≤ n ∧ n ≤ 122 then some (n - 71)
  else if 48 ≤ n ∧ n ≤ 57 then some (n + 4)
  else if n = 43 then some 62
  else if n = 47 then some 63
  else none

def encodeChars : Bytes → List Char
  | [] => []
  | [a] =>
    [symbol (a.toNat / 4), symbol (a.toNat % 4 * 16), '=', '=']
  | [a, b] =>
    [symbol (a.toNat / 4), symbol (a.toNat % 4 * 16 + b.toNat / 16),
      symbol (b.toNat % 16 * 4), '=']
  | a :: b :: c :: rest =>
    symbol (a.toNat / 4) :: symbol (a.toNat % 4 * 16 + b.toNat / 16) ::
      symbol (b.toNat % 16 * 4 + c.toNat / 64) :: symbol (c.toNat % 64) :: encodeChars rest

def byte (n : Nat) : UInt8 := UInt8.ofNat n

def decodeChars : List Char → Option Bytes
  | [] => some []
  | [p, q, '=', '='] => do
    let p ← value? p
    let q ← value? q
    if q % 16 = 0 then some [byte (p * 4 + q / 16)] else none
  | [p, q, r, '='] => do
    let p ← value? p
    let q ← value? q
    let r ← value? r
    if r % 4 = 0 then some [byte (p * 4 + q / 16), byte (q % 16 * 16 + r / 4)] else none
  | p :: q :: r :: s :: rest => do
    let p ← value? p
    let q ← value? q
    let r ← value? r
    let s ← value? s
    let tail ← decodeChars rest
    some (byte (p * 4 + q / 16) :: byte (q % 16 * 16 + r / 4) :: byte (r % 4 * 64 + s) :: tail)
  | _ => none

def encode (bytes : Bytes) : String := String.ofList (encodeChars bytes)

def decode (text : String) : Option Bytes := decodeChars text.toList

example : encodeChars [97, 110, 121] = ['Y', 'W', '5', '5'] := by decide
example : decodeChars ['Q', 'Q', '=', '='] = some [65] := by decide
example : decodeChars ['Q', 'R', '=', '='] = none := by decide
example : decodeChars ['Q', 'Q'] = none := by decide

end Text.Base64

end InfraOperator
