import InfraOperator.Json.Basic
import InfraOperator.Decimal.Shortest

/-!
# Writing JSON

Strings escape quotes, backslashes and control characters only. Doubles are written with their
shortest digits: positionally from `1e-5` up to below `1e16`, always with a fraction, and with a
signed exponent otherwise. `pretty` indents by two spaces and keeps empty containers on one line.
-/

set_option autoImplicit false

namespace InfraOperator.Json

def hexDigit (n : Nat) : Char := if n < 10 then Char.ofNat (n + 48) else Char.ofNat (n + 87)

def escapeChar (c : Char) : List Char :=
  if c = '"' then ['\\', '"']
  else if c = '\\' then ['\\', '\\']
  else if c = '\x08' then ['\\', 'b']
  else if c = '\x0c' then ['\\', 'f']
  else if c = '\n' then ['\\', 'n']
  else if c = '\r' then ['\\', 'r']
  else if c = '\t' then ['\\', 't']
  else if c.toNat < 0x20 then
    ['\\', 'u', '0', '0', hexDigit (c.toNat / 16), hexDigit (c.toNat % 16)]
  else [c]

def stringText (s : String) : String :=
  String.ofList ('"' :: s.toList.flatMap escapeChar ++ ['"'])

def zeros (n : Nat) : List Char := List.replicate n '0'

def scientificText (s : Decimal.Scientific) : List Char :=
  let count : Int := s.digits.length
  if 0 < s.point ∧ s.point ≤ 16 then
    if count ≤ s.point then
      s.digits ++ zeros (s.point - count).toNat ++ ['.', '0']
    else s.digits.take s.point.toNat ++ '.' :: s.digits.drop s.point.toNat
  else if -5 < s.point ∧ s.point ≤ 0 then
    '0' :: '.' :: zeros (-s.point).toNat ++ s.digits
  else
    let exponent := s.point - 1
    let mantissa := match s.digits with
      | [d] => [d]
      | d :: rest => d :: '.' :: rest
      | [] => []
    let sign := if exponent < 0 then '-' else '+'
    mantissa ++ 'e' :: sign :: (toString exponent.natAbs).toList

def doubleText (bits : UInt64) : String :=
  let sign := if bits.toNat / Nat.pow 2 63 = 1 then ['-'] else []
  let body := match Decimal.Binary.ofBits? bits with
    | some b => scientificText b.shortest
    | none => ['0', '.', '0']
  String.ofList (sign ++ body)

mutual

def compact : Json → String
  | .null => "null"
  | .bool true => "true"
  | .bool false => "false"
  | .int i => toString i
  | .double bits => doubleText bits
  | .str s => stringText s
  | .arr items => "[" ++ ",".intercalate (compactItems items) ++ "]"
  | .obj fields => "\x7b" ++ ",".intercalate (compactFields fields) ++ "\x7d"

def compactItems : List Json → List String
  | [] => []
  | item :: rest => compact item :: compactItems rest

def compactFields : List (String × Json) → List String
  | [] => []
  | (key, value) :: rest => (stringText key ++ ":" ++ compact value) :: compactFields rest

end

def indentLines (opening closing indent : String) (lines : List String) : String :=
  if lines.isEmpty then opening ++ closing
  else
    let inner := "\n" ++ indent ++ "  "
    opening ++ inner ++ ("," ++ inner).intercalate lines ++ "\n" ++ indent ++ closing

mutual

def prettyAt (indent : String) : Json → String
  | .arr items => indentLines "[" "]" indent (prettyItems (indent ++ "  ") items)
  | .obj fields => indentLines "\x7b" "\x7d" indent (prettyFields (indent ++ "  ") fields)
  | .null => "null"
  | .bool true => "true"
  | .bool false => "false"
  | .int i => toString i
  | .double bits => doubleText bits
  | .str s => stringText s

def prettyItems (indent : String) : List Json → List String
  | [] => []
  | item :: rest => prettyAt indent item :: prettyItems indent rest

def prettyFields (indent : String) : List (String × Json) → List String
  | [] => []
  | (key, value) :: rest =>
    (stringText key ++ ": " ++ prettyAt indent value) :: prettyFields indent rest

end

def pretty (j : Json) : String := prettyAt "" j

end InfraOperator.Json
