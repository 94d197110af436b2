import InfraOperator.Json.Document
import InfraOperator.Text.Integer

/-!
# Reading JSON

A text is read to its end or not at all. A number is read from its first digits that fit a 64-bit
word: these are rounded to a double and scaled by powers of ten up to the 308th. Containers that
nest 128 deep, numbers beyond all doubles and halves of surrogate pairs are blots.
-/

set_option autoImplicit false

namespace InfraOperator.Json

def isSpace (c : Char) : Bool := c == ' ' || c == '\n' || c == '\t' || c == '\r'

def skipSpace (cs : List Char) : List Char := cs.dropWhile isSpace

def powerOfTen (k : Nat) : Float := Float.ofScientific 1 false k

def scaleDouble : (fuel : Nat) → Float → Int → Option Float
  | 0, _, _ => none
  | fuel + 1, f, exponent =>
    if exponent.natAbs ≤ 308 then
      if 0 ≤ exponent then
        let scaled := f * powerOfTen exponent.natAbs
        if scaled.isInf then none else some scaled
      else some (f / powerOfTen exponent.natAbs)
    else if f == 0.0 then some f
    else if 0 ≤ exponent then none
    else scaleDouble fuel (f / powerOfTen 308) (exponent + 308)

def doubleOf (negative : Bool) (significand : Nat) (exponent : Int) : Document :=
  let scaled :=
    if significand = 0 then some 0.0
    else if exponent < -700 then some 0.0
    else scaleDouble 4 significand.toUInt64.toFloat exponent
  match scaled with
  | some f => .double (if negative then -f else f).toBits
  | none => .blot

def wordLimit : Nat := 18446744073709551615

/-- Appends digits to `n` while it fits a word; the digits that were left out. -/
def wordDigits (n : Nat) : List Char → Nat × List Char
  | [] => (n, [])
  | c :: rest =>
    let next := 10 * n + Text.digitValue c
    if next ≤ wordLimit then wordDigits next rest else (n, c :: rest)

def readExponent (cs : List Char) : Option (Int × List Char) :=
  let (negative, cs) := match cs with
    | '+' :: cs => (false, cs)
    | '-' :: cs => (true, cs)
    | cs => (false, cs)
  let digits := cs.takeWhile Char.isDigit
  if digits.isEmpty then none
  else
    let value : Int := Text.digitsValue digits
    some (if negative then -value else value, cs.dropWhile Char.isDigit)

def readNumber (cs : List Char) : Option (Document × List Char) := do
  let (negative, cs) := match cs with
    | '-' :: cs => (true, cs)
    | cs => (false, cs)
  let whole := cs.takeWhile Char.isDigit
  let rest := cs.dropWhile Char.isDigit
  if whole.isEmpty then none
  else if whole.head? = some '0' ∧ whole.length ≠ 1 then none
  else
    let (fraction, rest) ← match rest with
      | '.' :: rest =>
        let digits := rest.takeWhile Char.isDigit
        if digits.isEmpty then none else some (some digits, rest.dropWhile Char.isDigit)
      | rest => some (none, rest)
    let (exponent, rest) ← match rest with
      | 'e' :: rest | 'E' :: rest => (readExponent rest).map fun (e, rest) => (some e, rest)
      | rest => some (none, rest)
    match fraction, exponent with
    | none, none =>
      let value := Text.digitsValue whole
      if value ≤ wordLimit ∧ negative = false then some (.int value, rest)
      else if negative ∧ value ≠ 0 ∧ value ≤ 9223372036854775808 then
        some (.int (-(value : Int)), rest)
      else
        let (significand, dropped) := wordDigits 0 whole
        some (doubleOf negative significand dropped.length, rest)
    | _, _ =>
      let digits := fraction.getD []
      let (upper, droppedWhole) := wordDigits 0 whole
      let (significand, dropped) := wordDigits upper digits
      let kept : Int := digits.length - dropped.length
      let scale : Int := droppedWhole.length - kept + exponent.getD 0
      some (doubleOf negative significand scale, rest)

def hexValue? (c : Char) : Option Nat :=
  if c.isDigit then some (c.toNat - 48)
  else if 'a' ≤ c ∧ c ≤ 'f' then some (c.toNat - 87)
  else if 'A' ≤ c ∧ c ≤ 'F' then some (c.toNat - 55)
  else none

def readHex4 : List Char → Option (Nat × List Char)
  | a :: b :: c :: d :: rest => do
    let a ← hexValue? a
    let b ← hexValue? b
    let c ← hexValue? c
    let d ← hexValue? d
    some (((a * 16 + b) * 16 + c) * 16 + d, rest)
  | _ => none

/-- The character after a `\u`, of which two may make up one. A half of a pair that stands alone
is no character, and what follows it is still to be read. -/
def readUnit (cs : List Char) : Option (Option Char × List Char) := do
  let (high, rest) ← readHex4 cs
  if 0xDC00 ≤ high ∧ high ≤ 0xDFFF then return (none, rest)
  else if 0xD800 ≤ high ∧ high ≤ 0xDBFF then
    match rest with
    | '\\' :: 'u' :: tail =>
      let (low, tail) ← readHex4 tail
      if 0xDC00 ≤ low ∧ low ≤ 0xDFFF then
        return (some (Char.ofNat (0x10000 + (high - 0xD800) * 0x400 + (low - 0xDC00))), tail)
      else return (none, rest)
    | _ => return (none, rest)
  else return (some (Char.ofNat high), rest)

def simpleEscape? : Char → Option Char
  | '"' => some '"'
  | '\\' => some '\\'
  | '/' => some '/'
  | 'b' => some '\x08'
  | 'f' => some '\x0c'
  | 'n' => some '\n'
  | 'r' => some '\r'
  | 't' => some '\t'
  | _ => none

/-- The rest of a string after its opening quote. The characters read so far are `done`, last one
first, or none once there is one that is no character. -/
def readString : (fuel : Nat) → (done : Option (List Char)) → List Char →
    Option (Option String × List Char)
  | 0, _, _ => none
  | fuel + 1, done, cs =>
    match cs with
    | '"' :: rest => some (done.map fun done => String.ofList done.reverse, rest)
    | '\\' :: 'u' :: rest => do
      let (c, rest) ← readUnit rest
      readString fuel (done.bind fun done => c.map fun c => c :: done) rest
    | '\\' :: c :: rest => do
      let c ← simpleEscape? c
      readString fuel (done.map (c :: ·)) rest
    | c :: rest => if c.toNat < 0x20 then none else readString fuel (done.map (c :: ·)) rest
    | [] => none

def readQuoted (cs : List Char) : Option (Option String × List Char) :=
  readString (cs.length + 1) (some []) cs

def textOrBlot : Option String → Document
  | some s => .str s
  | none => .blot

def readWord (word : List Char) (value : Document) (cs : List Char) :
    Option (Document × List Char) :=
  if word.isPrefixOf cs then some (value, cs.drop word.length) else none

def nested (depth : Nat) (d : Document) : Document := if depth = 0 then .blot else d

def objectOrBlot : Option (List (String × Document)) → Document
  | some fields => .obj fields.reverse
  | none => .blot

mutual

def readValue : (fuel depth : Nat) → List Char → Option (Document × List Char)
  | 0, _, _ => none
  | fuel + 1, depth, cs =>
    match skipSpace cs with
    | '\x7b' :: rest =>
      match skipSpace rest with
      | '\x7d' :: rest => some (nested depth (.obj []), rest)
      | rest => (readFields fuel (depth - 1) (some []) rest).map fun r => (nested depth r.1, r.2)
    | '[' :: rest =>
      match skipSpace rest with
      | ']' :: rest => some (nested depth (.arr []), rest)
      | rest => (readItems fuel (depth - 1) [] rest).map fun r => (nested depth r.1, r.2)
    | '"' :: rest => (readQuoted rest).map fun r => (textOrBlot r.1, r.2)
    | 't' :: rest => readWord ['r', 'u', 'e'] (.bool true) rest
    | 'f' :: rest => readWord ['a', 'l', 's', 'e'] (.bool false) rest
    | 'n' :: rest => readWord ['u', 'l', 'l'] .null rest
    | cs => readNumber cs

def readItems : (fuel depth : Nat) → (done : List Document) → List Char →
    Option (Document × List Char)
  | 0, _, _, _ => none
  | fuel + 1, depth, done, cs =>
    match readValue fuel depth cs with
    | none => none
    | some (item, rest) =>
      match skipSpace rest with
      | ',' :: rest => readItems fuel depth (item :: done) rest
      | ']' :: rest => some (.arr (item :: done).reverse, rest)
      | _ => none

def readFields : (fuel depth : Nat) → (done : Option (List (String × Document))) → List Char →
    Option (Document × List Char)
  | 0, _, _, _ => none
  | fuel + 1, depth, done, cs =>
    match skipSpace cs with
    | '"' :: rest =>
      match readQuoted rest with
      | none => none
      | some (key, rest) =>
        match skipSpace rest with
        | ':' :: rest =>
          match readValue fuel depth rest with
          | none => none
          | some (value, rest) =>
            let done := done.bind fun done => key.map fun key => (key, value) :: done
            match skipSpace rest with
            | ',' :: rest => readFields fuel depth done rest
            | '\x7d' :: rest => some (objectOrBlot done, rest)
            | _ => none
        | _ => none
    | _ => none

end

def depthLimit : Nat := 127

end InfraOperator.Json

namespace InfraOperator

def Document.parse? (text : String) : Option Document :=
  let cs := text.toList
  match Json.readValue (2 * cs.length + 2) Json.depthLimit cs with
  | some (d, rest) => if (Json.skipSpace rest).isEmpty then some d else none
  | none => none

def Json.parse? (text : String) : Option Json := (Document.parse? text).bind Document.value?

end InfraOperator
