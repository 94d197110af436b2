import InfraOperator.Time.Instant
import InfraOperator.Text.Blank
import InfraOperator.Text.Integer

/-!
# Instants as text

`print` writes an instant in UTC with a fraction of 0, 3, 6 or 9 digits, the fewest that are
exact; `printSeconds` and `printMicros` write 0 and 6. `readStrict?` accepts the RFC 3339 form with
two-digit fields. `read?` accepts more of the same fields: fields of one digit, blanks between
them, a signed year and a loose offset.
-/

set_option autoImplicit false

namespace InfraOperator.Rfc3339

abbrev Scan := StateT (List Char) Option

def digits (least most : Nat) : Scan Nat := fun cs =>
  let taken := (cs.takeWhile Char.isDigit).take most
  if taken.length < least then none
  else some (Text.digitsValue taken, cs.drop taken.length)

def char (c : Char) : Scan Unit
  | d :: rest => if c = d then some ((), rest) else none
  | [] => none

def skipBlanks : Scan Unit := fun cs => some ((), Text.trimStart cs)

/-- The optional fraction of a second, in nanoseconds; digits past the ninth are dropped. -/
def fraction : Scan Nat
  | '.' :: cs =>
    let all := cs.takeWhile Char.isDigit
    let taken := all.take 9
    if taken.isEmpty then none
    else some (Text.digitsValue taken * Nat.pow 10 (9 - taken.length), cs.drop all.length)
  | cs => some (0, cs)

def separator : Scan Unit
  | c :: rest => if c = 'T' ∨ c = 't' ∨ c = ' ' then some ((), rest) else none
  | [] => none

def offsetAmount (between : Scan Unit) : Scan Int := do
  let hours ← digits 2 2
  between
  let minutes ← digits 2 2
  if 59 < minutes then failure else return hours * 3600 + minutes * 60

def offset (between : Scan Unit) : Scan Int
  | [] => none
  | c :: rest =>
    if c = 'Z' ∨ c = 'z' then some (0, rest)
    else if c = '+' then offsetAmount between rest
    else if c = '-' ∨ c = '\u2212' then Neg.neg <$> offsetAmount between |>.run rest
    else none

structure Fields where
  date : Date
  hour : Nat
  minute : Nat
  second : Nat
  nanos : Nat
  offset : Int

/-- The instant the fields name; the sixtieth second is the leap second after the 59th. -/
def Fields.toInstant? (f : Fields) : Option Instant :=
  if f.date.isValid ∧ f.hour ≤ 23 ∧ f.minute ≤ 59 ∧ f.second ≤ 60 ∧ -86400 < f.offset ∧
      f.offset < 86400 then
    let second := if f.second = 60 then 59 else f.second
    let nanos := if f.second = 60 then f.nanos + Span.perSecond else f.nanos
    let localSeconds : Int := f.date.toDays * 86400 + f.hour * 3600 + f.minute * 60 + second
    let seconds := localSeconds - f.offset
    if Instant.leastSecond ≤ seconds ∧ seconds ≤ Instant.greatestSecond then
      some ⟨seconds, nanos⟩
    else none
  else none

def strictFields : Scan Fields := do
  let year ← digits 4 4
  char '-'
  let month ← digits 2 2
  char '-'
  let day ← digits 2 2
  separator
  let hour ← digits 2 2
  char ':'
  let minute ← digits 2 2
  char ':'
  let second ← digits 2 2
  let nanos ← fraction
  let offset ← offset (char ':')
  return ⟨⟨year, month, day⟩, hour, minute, second, nanos, offset⟩

def readStrict? (cs : List Char) : Option Instant := do
  let (fields, rest) ← strictFields.run cs
  if rest.isEmpty then fields.toInstant? else none

def signedYear : Scan Int
  | '-' :: rest => (fun (y : Nat) => -(y : Int)) <$> digits 1 rest.length |>.run rest
  | '+' :: rest => (fun (y : Nat) => (y : Int)) <$> digits 1 rest.length |>.run rest
  | cs => (fun (y : Nat) => (y : Int)) <$> digits 1 4 |>.run cs

def looseDigits : Scan Nat := do
  skipBlanks
  digits 1 2

def looseChar (c : Char) : Scan Unit := do
  skipBlanks
  char c

def colonsAndBlanks : Scan Unit := fun cs =>
  some ((), cs.dropWhile fun c => c = ':' || Text.isBlank c)

def isUtc : List Char → Bool
  | [u, t, c] => u.toUpper = 'U' && t.toUpper = 'T' && c.toUpper = 'C'
  | _ => false

def looseOffset : Scan Int := fun cs =>
  if isUtc (cs.take 3) then some (0, cs.drop 3) else offset colonsAndBlanks cs

def looseFields : Scan Fields := do
  skipBlanks
  let year ← signedYear
  looseChar '-'
  let month ← looseDigits
  looseChar '-'
  let day ← looseDigits
  separator
  let hour ← looseDigits
  looseChar ':'
  let minute ← looseDigits
  looseChar ':'
  let second ← looseDigits
  let nanos ← fraction
  skipBlanks
  let offset ← looseOffset
  skipBlanks
  return ⟨⟨year, month, day⟩, hour, minute, second, nanos, offset⟩

def read? (text : String) : Option Instant := do
  let (fields, rest) ← looseFields.run text.toList
  if rest.isEmpty then fields.toInstant? else none

def padded (width n : Nat) : String :=
  let text := toString n
  "".pushn '0' (width - text.length) ++ text

def yearText (year : Int) : String :=
  if 0 ≤ year ∧ year ≤ 9999 then padded 4 year.toNat
  else (if year < 0 then "-" else "+") ++ padded 4 year.natAbs

def fractionText (nanos : Nat) : String :=
  if nanos = 0 then ""
  else if nanos % 1000000 = 0 then "." ++ padded 3 (nanos / 1000000)
  else if nanos % 1000 = 0 then "." ++ padded 6 (nanos / 1000)
  else "." ++ padded 9 nanos

def printWith (fractionText : Nat → String) (i : Instant) : String :=
  let date := Date.ofDays (i.seconds / 86400)
  let ofDay := (i.seconds % 86400).toNat
  let leap := Span.perSecond ≤ i.nanos
  let second := ofDay % 60 + if leap then 1 else 0
  let nanos := if leap then i.nanos - Span.perSecond else i.nanos
  yearText date.year ++ "-" ++ padded 2 date.month ++ "-" ++ padded 2 date.day ++ "T" ++
    padded 2 (ofDay / 3600) ++ ":" ++ padded 2 (ofDay / 60 % 60) ++ ":" ++ padded 2 second ++
    fractionText nanos ++ "Z"

def print (i : Instant) : String := printWith fractionText i

def printSeconds (i : Instant) : String := printWith (fun _ => "") i

def printMicros (i : Instant) : String := printWith (fun nanos => "." ++ padded 6 (nanos / 1000)) i

end InfraOperator.Rfc3339
