import InfraOperator.Text.Integer

/-!
# Semantic versions

Three numbers, then pre-release and build identifiers between dots. Versions are ordered by their
numbers, a pre-release below its release, then by their build identifiers, none coming first.
Identifiers of digits are ordered by value and then by their leading zeros, below all others.
-/

set_option autoImplicit false

namespace InfraOperator

/-- A part between dots: digits behind some leading zeros, or anything else. -/
inductive Identifier where
  | numeric (value zeros : Nat)
  | text (s : String)
  deriving DecidableEq, Repr

namespace Identifier

def isLetter (c : Char) : Bool := c.isDigit || c.isAlpha || c = '-'

def ofChars? (cs : List Char) : Option Identifier :=
  if cs.isEmpty then none
  else if cs.all Char.isDigit then
    some (.numeric (Text.digitsValue cs) (cs.takeWhile (· = '0')).length)
  else if cs.all isLetter then some (.text (String.ofList cs))
  else none

def isPlain : Identifier → Bool
  | .numeric value zeros => zeros = 0 || (value = 0 && zeros = 1)
  | .text _ => true

def toText : Identifier → String
  | .numeric value zeros => "".pushn '0' zeros ++ if value = 0 then "" else toString value
  | .text s => s

protected def compare : Identifier → Identifier → Ordering
  | .numeric a i, .numeric b j => (compare a b).then (compare i j)
  | .numeric _ _, .text _ => .lt
  | .text _, .numeric _ _ => .gt
  | .text a, .text b => compare a b

def compareAll : List Identifier → List Identifier → Ordering
  | [], [] => .eq
  | [], _ :: _ => .lt
  | _ :: _, [] => .gt
  | a :: as, b :: bs => (a.compare b).then (compareAll as bs)

/-- As `compareAll`, but having none is above having any. -/
def comparePre : List Identifier → List Identifier → Ordering
  | [], [] => .eq
  | [], _ :: _ => .gt
  | _ :: _, [] => .lt
  | as, bs => compareAll as bs

end Identifier

structure Version where
  major : Nat
  minor : Nat
  patch : Nat
  pre : List Identifier
  build : List Identifier
  deriving DecidableEq, Repr

namespace Version

def splitAt (sep : Char) : List Char → List (List Char)
  | [] => [[]]
  | c :: rest =>
    match splitAt sep rest with
    | part :: parts => if c = sep then [] :: part :: parts else (c :: part) :: parts
    | [] => [[c]]

def readNumber? (cs : List Char) : Option Nat := do
  let value ← Text.readDigits? cs
  if cs.head? = some '0' ∧ cs.length ≠ 1 then none
  else if Bounds.nat64.holds value then some value else none

def cut (sep : Char) (cs : List Char) : List Char × Option (List Char) :=
  match cs.dropWhile (· ≠ sep) with
  | [] => (cs, none)
  | _ :: after => (cs.takeWhile (· ≠ sep), some after)

def readIdentifiers? : Option (List Char) → Option (List Identifier)
  | none => some []
  | some cs => (splitAt '.' cs).mapM Identifier.ofChars?

def parseChars? (cs : List Char) : Option Version := do
  let (front, build) := cut '+' cs
  let (numbers, pre) := cut '-' front
  let pre ← readIdentifiers? pre
  let build ← readIdentifiers? build
  if pre.all Identifier.isPlain then
    match splitAt '.' numbers with
    | [major, minor, patch] =>
      return ⟨← readNumber? major, ← readNumber? minor, ← readNumber? patch, pre, build⟩
    | _ => none
  else none

def parse? (text : String) : Option Version := parseChars? text.toList

def identifiersText (ids : List Identifier) : String := ".".intercalate (ids.map Identifier.toText)

protected def compare (a b : Version) : Ordering :=
  (compare a.major b.major).then <| (compare a.minor b.minor).then <|
    (compare a.patch b.patch).then <| (Identifier.comparePre a.pre b.pre).then <|
      Identifier.compareAll a.build b.build

instance : Ord Version := ⟨Version.compare⟩

/-- The last of the greatest entries under a key. -/
def lastGreatest? {α : Type} : List (Version × α) → Option (Version × α)
  | [] => none
  | entry :: rest =>
    match lastGreatest? rest with
    | some best => if compare entry.1 best.1 = .gt then some entry else some best
    | none => some entry

end Version

end InfraOperator
