import InfraOperator.Text.Visible

/-!
# Quoted text

A text between double quotes in which quotes, backslashes and everything invisible are escaped.
-/

set_option autoImplicit false

namespace InfraOperator.Text

def hexDigits (n : Nat) : List Char := Nat.toDigits 16 n

def escapeChar (c : Char) : List Char :=
  if c = '\x00' then ['\\', '0']
  else if c = '\t' then ['\\', 't']
  else if c = '\r' then ['\\', 'r']
  else if c = '\n' then ['\\', 'n']
  else if c = '\\' then ['\\', '\\']
  else if c = '"' then ['\\', '"']
  else if isVisible c then [c]
  else ['\\', 'u', '\x7b'] ++ hexDigits c.toNat ++ ['\x7d']

def quoted (text : String) : String :=
  String.ofList ('"' :: text.toList.flatMap escapeChar ++ ['"'])

def quotedList (texts : List String) : String :=
  "[" ++ ", ".intercalate (texts.map quoted) ++ "]"

def quotedOption : Option String → String
  | some text => "Some(" ++ quoted text ++ ")"
  | none => "None"

end InfraOperator.Text
