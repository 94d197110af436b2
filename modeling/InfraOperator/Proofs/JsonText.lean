import InfraOperator.Json.Printer
import InfraOperator.Json.Reader
import InfraOperator.Proofs.Numerals

/-!
# JSON read back from its text

What is printed is read back as the same value (`Json.parse?_compact`), provided that it has no
doubles, that its integers are ones the reader keeps, and that it does not nest deeper than the
reader goes. Each part of a text is read back whatever follows it.
-/

set_option autoImplicit false

namespace InfraOperator.Json

/-! ## Strings -/

theorem hexValue?_hexDigit : ∀ n < 16, hexValue? (hexDigit n) = some n := by decide

theorem readUnit_control {c : Char} (h : c.toNat < 32) (rest : List Char) :
    readUnit ('0' :: '0' :: hexDigit (c.toNat / 16) :: hexDigit (c.toNat % 16) :: rest) =
      some (some c, rest) := by
  have zero : hexValue? '0' = some 0 := rfl
  have high := hexValue?_hexDigit (c.toNat / 16) (by omega)
  have low := hexValue?_hexDigit (c.toNat % 16) (by omega)
  have code : ((0 * 16 + 0) * 16 + c.toNat / 16) * 16 + c.toNat % 16 = c.toNat := by omega
  have hex : readHex4 ('0' :: '0' :: hexDigit (c.toNat / 16) :: hexDigit (c.toNat % 16) :: rest) =
      some (c.toNat, rest) := by
    simp only [readHex4, zero, high, low, Option.bind_eq_bind, Option.bind_some, code]
  have notLow : ¬ (0xDC00 ≤ c.toNat ∧ c.toNat ≤ 0xDFFF) := by omega
  have notHigh : ¬ (0xD800 ≤ c.toNat ∧ c.toNat ≤ 0xDBFF) := by omega
  simp only [readUnit, hex, Option.bind_eq_bind, Option.bind_some, if_neg notLow, if_neg notHigh,
    Char.ofNat_toNat, Option.pure_def]

theorem readString_escapeChar (fuel : Nat) (done : List Char) (c : Char) (rest : List Char) :
    readString (fuel + 1) (some done) (escapeChar c ++ rest) =
      readString fuel (some (c :: done)) rest := by
  unfold escapeChar
  iterate 7
    split
    · subst_vars
      rfl
  split
  · rename_i control
    simp only [List.cons_append, List.nil_append, readString, readUnit_control control,
      Option.bind_eq_bind, Option.bind_some, Option.map_some]
  · rename_i quote backslash _ _ _ _ _ plain
    rw [List.cons_append, List.nil_append, readString]
    · rw [if_neg plain, Option.map_some]
    · exact quote
    · exact fun _ h _ => backslash h
    · exact fun _ _ h _ => backslash h

theorem readString_escaped {cs : List Char} {fuel : Nat} (enough : cs.length < fuel)
    (done rest : List Char) :
    readString fuel (some done) (cs.flatMap escapeChar ++ '"' :: rest) =
      some (some (String.ofList (done.reverse ++ cs)), rest) := by
  induction cs generalizing fuel done with
  | nil =>
    obtain ⟨fuel, rfl⟩ : ∃ k, fuel = k + 1 := ⟨fuel - 1, by simp at enough; omega⟩
    simp [readString]
  | cons c cs ih =>
    rw [List.length_cons] at enough
    obtain ⟨fuel, rfl⟩ : ∃ k, fuel = k + 1 := ⟨fuel - 1, by omega⟩
    rw [List.flatMap_cons, List.append_assoc, readString_escapeChar, ih (by omega)]
    simp

theorem length_escaped (cs : List Char) : cs.length ≤ (cs.flatMap escapeChar).length := by
  induction cs with
  | nil => exact Nat.le_refl _
  | cons c cs ih =>
    have some_char : 0 < (escapeChar c).length := by
      unfold escapeChar
      repeat' split
      all_goals exact Nat.succ_pos _
    rw [List.flatMap_cons, List.length_append, List.length_cons]
    omega

theorem toList_stringText (s : String) :
    (stringText s).toList = '"' :: (s.toList.flatMap escapeChar ++ ['"']) := by
  simp [stringText]

theorem readQuoted_stringText (s : String) (rest : List Char) :
    readQuoted (s.toList.flatMap escapeChar ++ '"' :: rest) = some (some s, rest) := by
  have longer := length_escaped s.toList
  have enough : s.toList.length < (s.toList.flatMap escapeChar ++ '"' :: rest).length + 1 := by
    rw [List.length_append]
    omega
  rw [readQuoted, readString_escaped enough]
  simp

/-! ## Numbers -/

theorem head?_toDigits {n : Nat} (positive : 0 < n) : (Nat.toDigits 10 n).head? ≠ some '0' := by
  induction n using Nat.strongRecOn with
  | ind n ih =>
    by_cases small : n < 10
    · rw [Nat.toDigits_of_lt_base small]
      have nonzero : ∀ k < 10, 0 < k → [Nat.digitChar k].head? ≠ some '0' := by decide
      exact nonzero n small positive
    · have nonempty : Nat.toDigits 10 (n / 10) ≠ [] := Nat.toDigits_ne_nil
      rw [Nat.toDigits_of_base_le (by decide) (by omega), List.head?_append]
      have before := ih (n / 10) (by omega) (by omega)
      cases written : Nat.toDigits 10 (n / 10) with
      | nil => exact absurd written nonempty
      | cons c cs => simpa [written] using before

def EndsNumber (rest : List Char) : Prop :=
  ∀ c ∈ rest.head?, c.isDigit = false ∧ c ≠ '.' ∧ c ≠ 'e' ∧ c ≠ 'E'

theorem EndsNumber.endsDigits {rest : List Char} (h : EndsNumber rest) : Text.EndsDigits rest :=
  fun c hc => (h c hc).1

theorem toDigits_leading (n : Nat) :
    ¬ ((Nat.toDigits 10 n).head? = some '0' ∧ (Nat.toDigits 10 n).length ≠ 1) := by
  rintro ⟨zero, long⟩
  by_cases positive : 0 < n
  · exact head?_toDigits positive zero
  · obtain rfl : n = 0 := by omega
    exact long rfl

def wholeOf (negative : Bool) (n : Nat) : Int := if negative then -n else n

/-- The integers that are kept as such: those of the 64-bit words, signed and not. -/
def InWords (i : Int) : Prop := -9223372036854775808 ≤ i ∧ i ≤ 18446744073709551615

theorem readNumber_toDigits (negative : Bool) {rest : List Char} {n : Nat}
    (nonzero : negative = true → n ≠ 0) (fits : InWords (wholeOf negative n))
    (ends : EndsNumber rest) :
    readNumber ((if negative then ['-'] else []) ++ (Nat.toDigits 10 n ++ rest)) =
      some (.int (wholeOf negative n), rest) := by
  have taken := Text.takeWhile_digits (Text.isDigit_of_mem (n := n)) ends.endsDigits
  have dropped := Text.dropWhile_digits (Text.isDigit_of_mem (n := n)) ends.endsDigits
  have value := Text.digitsValue_toDigits n
  have nonempty : (Nat.toDigits 10 n).isEmpty = false := by simp [Nat.toDigits_ne_nil]
  have leading := toDigits_leading n
  have unsigned := Text.toDigits_append_ne_minus n rest
  unfold InWords at fits
  generalize Nat.toDigits 10 n = ds at *
  unfold readNumber
  split
  rename_i sign cs signed
  obtain ⟨rfl, rfl⟩ : sign = negative ∧ cs = ds ++ rest := by
    cases negative with
    | true =>
      cases signed
      exact ⟨rfl, rfl⟩
    | false =>
      split at signed
      · rename_i same
        exact absurd same (unsigned _)
      · cases signed
        exact ⟨rfl, rfl⟩
  simp only [taken, dropped, nonempty, value]
  rw [if_neg Bool.false_ne_true, if_neg leading]
  split
  · exact absurd rfl (ends '.' rfl).2.1
  · simp only [Option.bind_eq_bind, Option.bind_some]
    split
    · exact absurd rfl (ends 'e' rfl).2.2.1
    · exact absurd rfl (ends 'E' rfl).2.2.2
    · cases sign with
      | true =>
        have nonzero := nonzero rfl
        simp only [wholeOf, if_true] at fits ⊢
        rw [if_neg (by simp), if_pos ⟨trivial, nonzero, by omega⟩]
      | false =>
        simp only [wholeOf, if_neg Bool.false_ne_true] at fits ⊢
        unfold wordLimit
        rw [if_pos ⟨by omega, trivial⟩]

theorem toList_toString (i : Int) : ∃ negative n, i = wholeOf negative n ∧
    (negative = true → n ≠ 0) ∧
    (toString i).toList = (if negative then ['-'] else []) ++ Nat.toDigits 10 n := by
  cases i with
  | ofNat n => exact ⟨false, n, rfl, fun no => absurd no Bool.false_ne_true, Nat.toList_repr⟩
  | negSucc n =>
    exact ⟨true, n + 1, rfl, fun _ => Nat.succ_ne_zero n, Text.toList_minus_repr (n + 1)⟩

theorem readNumber_toString {rest : List Char} {i : Int} (fits : InWords i)
    (ends : EndsNumber rest) :
    readNumber ((toString i).toList ++ rest) = some (.int i, rest) := by
  obtain ⟨negative, n, rfl, nonzero, written⟩ := toList_toString i
  rw [written, List.append_assoc]
  exact readNumber_toDigits negative nonzero fits ends

/-! ## Values -/

mutual

/-- The value can be read where so many containers may be nested: it has no doubles, and only the
integers that are kept. -/
def Legible (depth : Nat) : Json → Prop
  | .null | .bool _ | .str _ => True
  | .int i => InWords i
  | .double _ => False
  | .arr items => 0 < depth ∧ LegibleItems (depth - 1) items
  | .obj fields => 0 < depth ∧ LegibleFields (depth - 1) fields

def LegibleItems (depth : Nat) : List Json → Prop
  | [] => True
  | j :: rest => Legible depth j ∧ LegibleItems depth rest

def LegibleFields (depth : Nat) : List (String × Json) → Prop
  | [] => True
  | (_, j) :: rest => Legible depth j ∧ LegibleFields depth rest

end

def itemChars : List Json → List Char
  | [] => []
  | [j] => (compact j).toList ++ [']']
  | j :: k :: rest => (compact j).toList ++ ',' :: itemChars (k :: rest)

def fieldChars (key : String) (value : Json) : List Char :=
  (stringText key).toList ++ ':' :: (compact value).toList

def fieldsChars : List (String × Json) → List Char
  | [] => []
  | [(key, value)] => fieldChars key value ++ ['\x7d']
  | (key, value) :: e :: rest => fieldChars key value ++ ',' :: fieldsChars (e :: rest)

theorem toList_compact_arr (j : Json) (rest : List Json) :
    (compact (.arr (j :: rest))).toList = '[' :: itemChars (j :: rest) := by
  have items : ∀ j rest, (",".intercalate (compactItems (j :: rest))).toList ++ [']'] =
      itemChars (j :: rest) := by
    intro j rest
    induction rest generalizing j with
    | nil => simp [compactItems, itemChars]
    | cons k rest ih =>
      rw [itemChars, ← ih k]
      simp [compactItems, String.intercalate_cons_cons]
  rw [compact, String.toList_append, String.toList_append, List.append_assoc]
  exact congrArg ('[' :: ·) (items j rest)

theorem toList_compact_obj (e : String × Json) (rest : List (String × Json)) :
    (compact (.obj (e :: rest))).toList = '\x7b' :: fieldsChars (e :: rest) := by
  have fields : ∀ e rest, (",".intercalate (compactFields (e :: rest))).toList ++ ['\x7d'] =
      fieldsChars (e :: rest) := by
    intro e rest
    induction rest generalizing e with
    | nil => simp [compactFields, fieldsChars, fieldChars]
    | cons f rest ih =>
      rw [fieldsChars, ← ih f]
      simp [compactFields, fieldChars, String.intercalate_cons_cons]
  rw [compact, String.toList_append, String.toList_append, List.append_assoc]
  exact congrArg ('\x7b' :: ·) (fields e rest)

theorem head_toString (i : Int) : ∃ c cs, (toString i).toList = c :: cs ∧
    (c.isDigit = true ∨ c = '-') := by
  obtain ⟨negative, n, -, -, written⟩ := toList_toString i
  cases negative with
  | true => exact ⟨'-', _, written, .inr rfl⟩
  | false =>
    obtain ⟨c, cs, digits, digit⟩ := Text.exists_first_digit n
    exact ⟨c, cs, by rw [written, digits]; rfl, .inl digit⟩

theorem head_compact {j : Json} {depth : Nat} (h : j.Legible depth) :
    ∃ c cs, (compact j).toList = c :: cs ∧ isSpace c = false ∧ c ≠ ']' := by
  cases j with
  | null => exact ⟨_, _, rfl, rfl, by decide⟩
  | bool b =>
    cases b with
    | true => exact ⟨_, _, rfl, rfl, by decide⟩
    | false => exact ⟨_, _, rfl, rfl, by decide⟩
  | int i =>
    obtain ⟨c, cs, written, digit | rfl⟩ := head_toString i
    · refine ⟨c, cs, written, ?_, ?_⟩
      · cases space : isSpace c with
        | false => rfl
        | true =>
          simp only [isSpace, Bool.or_eq_true, beq_iff_eq] at space
          rcases space with ((rfl | rfl) | rfl) | rfl <;> cases digit
      · rintro rfl
        cases digit
    · exact ⟨_, _, written, rfl, by decide⟩
  | double bits => exact h.elim
  | str s => exact ⟨_, _, toList_stringText s, rfl, by decide⟩
  | arr items =>
    cases items with
    | nil => exact ⟨_, _, rfl, rfl, by decide⟩
    | cons j rest => exact ⟨_, _, toList_compact_arr j rest, rfl, by decide⟩
  | obj fields =>
    cases fields with
    | nil => exact ⟨_, _, rfl, rfl, by decide⟩
    | cons e rest => exact ⟨_, _, toList_compact_obj e rest, rfl, by decide⟩

theorem skipSpace_cons {c : Char} {cs : List Char} (h : isSpace c = false) :
    skipSpace (c :: cs) = c :: cs := by
  rw [skipSpace, List.dropWhile_cons_of_neg (by simp [h])]

theorem readValue_int {i : Int} {fuel depth : Nat} {rest : List Char} (fits : InWords i)
    (ends : EndsNumber rest) :
    readValue (fuel + 1) depth ((toString i).toList ++ rest) = some (.int i, rest) := by
  have read := readNumber_toString fits ends
  obtain ⟨c, cs, written, first⟩ := head_toString i
  have other : ∀ d : Char, d.isDigit = false → d ≠ '-' → c ≠ d := by
    rintro d noDigit noMinus rfl
    rcases first with digit | minus
    · exact Bool.false_ne_true (noDigit.symm.trans digit)
    · exact noMinus minus
  have ordinary : isSpace c = false := by
    have := other ' ' rfl (by decide)
    have := other '\n' rfl (by decide)
    have := other '\t' rfl (by decide)
    have := other '\r' rfl (by decide)
    simp [isSpace, *]
  rw [written, List.cons_append] at read ⊢
  rw [readValue, skipSpace_cons ordinary]
  split
  iterate 6
    · rename_i same
      exact absurd (List.cons.inj same).1 (other _ rfl (by decide))
  · exact read

theorem readValue_str (s : String) (fuel depth : Nat) (rest : List Char) :
    readValue (fuel + 1) depth ((stringText s).toList ++ rest) = some (.str s, rest) := by
  rw [toList_stringText, List.cons_append, List.append_assoc, readValue, skipSpace_cons rfl]
  show (readQuoted (s.toList.flatMap escapeChar ++ ('"' :: rest))).map _ = _
  rw [readQuoted_stringText]
  rfl

theorem nested_of_pos {depth : Nat} (h : 0 < depth) (d : Document) : nested depth d = d :=
  if_neg (Nat.ne_of_gt h)

theorem skipSpace_itemChars {j : Json} {depth : Nat} (legible : j.Legible depth)
    (items : List Json) (rest : List Char) : ∃ c cs, itemChars (j :: items) ++ rest = c :: cs ∧
      isSpace c = false ∧ c ≠ ']' := by
  obtain ⟨c, cs, written, ordinary, open_⟩ := head_compact legible
  cases items with
  | nil => exact ⟨c, _, by rw [itemChars, written]; rfl, ordinary, open_⟩
  | cons k items => exact ⟨c, _, by rw [itemChars, written]; rfl, ordinary, open_⟩

theorem readValue_bracket (fuel depth : Nat) (cs : List Char) :
    readValue (fuel + 1) depth ('[' :: cs) = match skipSpace cs with
      | ']' :: rest => some (nested depth (.arr []), rest)
      | rest => (readItems fuel (depth - 1) [] rest).map fun r => (nested depth r.1, r.2) := rfl

theorem readValue_arr {j : Json} {items : List Json} {depth fuel : Nat}
    (legible : j.Legible (depth - 1)) (rest : List Char) :
    readValue (fuel + 1) depth ('[' :: (itemChars (j :: items) ++ rest)) =
      (readItems fuel (depth - 1) [] (itemChars (j :: items) ++ rest)).map
        fun r => (nested depth r.1, r.2) := by
  obtain ⟨c, cs, written, ordinary, open_⟩ := skipSpace_itemChars legible items rest
  rw [readValue_bracket, written, skipSpace_cons ordinary]
  split
  · rename_i same
    exact absurd (List.cons.inj same).1 open_
  · rfl

section Items

variable {fuel depth : Nat} {done : List Document} {cs rest : List Char} {item : Document}

theorem readItems_last (read : readValue fuel depth cs = some (item, ']' :: rest)) :
    readItems (fuel + 1) depth done cs = some (.arr (item :: done).reverse, rest) := by
  rw [readItems, read]
  rfl

theorem readItems_next (read : readValue fuel depth cs = some (item, ',' :: rest)) :
    readItems (fuel + 1) depth done cs = readItems fuel depth (item :: done) rest := by
  rw [readItems, read]
  rfl

end Items

theorem readValue_null (fuel depth : Nat) (rest : List Char) :
    readValue (fuel + 1) depth ('n' :: 'u' :: 'l' :: 'l' :: rest) = some (.null, rest) := rfl

theorem readValue_true (fuel depth : Nat) (rest : List Char) :
    readValue (fuel + 1) depth ('t' :: 'r' :: 'u' :: 'e' :: rest) = some (.bool true, rest) := rfl

theorem readValue_false (fuel depth : Nat) (rest : List Char) :
    readValue (fuel + 1) depth ('f' :: 'a' :: 'l' :: 's' :: 'e' :: rest) =
      some (.bool false, rest) := rfl

theorem readValue_noItems {depth : Nat} (room : 0 < depth) (fuel : Nat) (rest : List Char) :
    readValue (fuel + 1) depth ('[' :: ']' :: rest) = some (.arr [], rest) := by
  show some (nested depth (.arr []), rest) = _
  rw [nested_of_pos room]

/-! ## Objects -/

theorem readValue_noFields {depth : Nat} (room : 0 < depth) (fuel : Nat) (rest : List Char) :
    readValue (fuel + 1) depth ('\x7b' :: '\x7d' :: rest) = some (.obj [], rest) := by
  show some (nested depth (.obj []), rest) = _
  rw [nested_of_pos room]

theorem fieldsChars_quote (e : String × Json) (fields : List (String × Json)) (rest : List Char) :
    ∃ cs, fieldsChars (e :: fields) ++ rest = '"' :: cs := by
  obtain ⟨key, value⟩ := e
  cases fields with
  | nil => exact ⟨_, by rw [fieldsChars, fieldChars, toList_stringText]; rfl⟩
  | cons f fields => exact ⟨_, by rw [fieldsChars, fieldChars, toList_stringText]; rfl⟩

theorem readValue_obj {e : String × Json} {fields : List (String × Json)} {depth fuel : Nat}
    (rest : List Char) :
    readValue (fuel + 1) depth ('\x7b' :: (fieldsChars (e :: fields) ++ rest)) =
      (readFields fuel (depth - 1) (some []) (fieldsChars (e :: fields) ++ rest)).map
        fun r => (nested depth r.1, r.2) := by
  obtain ⟨cs, written⟩ := fieldsChars_quote e fields rest
  rw [written]
  rfl

section Fields

variable {fuel depth : Nat} {done : List (String × Document)} {cs rest : List Char} {key : String}
  {value : Document}

theorem readFields_quote (cs : List Char) : readFields (fuel + 1) depth (some done) ('"' :: cs) =
    match readQuoted cs with
    | none => none
    | some (key, rest) =>
      match skipSpace rest with
      | ':' :: rest =>
        match readValue fuel depth rest with
        | none => none
        | some (value, rest) =>
          let done := (some done).bind fun done => key.map fun key => (key, value) :: done
          match skipSpace rest with
          | ',' :: rest => readFields fuel depth done rest
          | '\x7d' :: rest => some (objectOrBlot done, rest)
          | _ => none
      | _ => none := rfl

theorem readFields_key : readFields (fuel + 1) depth (some done)
    ((stringText key).toList ++ ':' :: cs) =
      match readValue fuel depth cs with
      | none => none
      | some (value, rest) =>
        match skipSpace rest with
        | ',' :: rest => readFields fuel depth (some ((key, value) :: done)) rest
        | '\x7d' :: rest => some (objectOrBlot (some ((key, value) :: done)), rest)
        | _ => none := by
  rw [toList_stringText, List.cons_append, List.append_assoc, List.singleton_append,
    readFields_quote, readQuoted_stringText]
  rfl

theorem readFields_last (read : readValue fuel depth cs = some (value, '\x7d' :: rest)) :
    readFields (fuel + 1) depth (some done) ((stringText key).toList ++ ':' :: cs) =
      some (.obj ((key, value) :: done).reverse, rest) := by
  rw [readFields_key, read]
  rfl

theorem readFields_next (read : readValue fuel depth cs = some (value, ',' :: rest)) :
    readFields (fuel + 1) depth (some done) ((stringText key).toList ++ ':' :: cs) =
      readFields fuel depth (some ((key, value) :: done)) rest := by
  rw [readFields_key, read]
  rfl

end Fields

theorem exists_fuel {j : Json} {depth fuel : Nat} (h : j.Legible depth)
    (enough : 2 * (compact j).toList.length ≤ fuel) : ∃ k, fuel = k + 1 := by
  obtain ⟨c, cs, written, -⟩ := head_compact h
  rw [written, List.length_cons] at enough
  exact ⟨fuel - 1, by omega⟩

mutual

/-- A legible value is read back from its text, whatever follows it that does not go on with a
number. Reading a value takes one of the fuel and going on to the next item another, and each has a
character of its own, so that twice the length of the text is enough. -/
theorem readValue_compact : (j : Json) → ∀ (fuel depth : Nat) (rest : List Char),
    j.Legible depth → EndsNumber rest → 2 * (compact j).toList.length ≤ fuel →
    readValue fuel depth ((compact j).toList ++ rest) = some (.ofJson j, rest)
  | .null => by
    intro fuel depth rest legible _ enough
    obtain ⟨fuel, rfl⟩ := exists_fuel legible enough
    exact readValue_null fuel depth rest
  | .bool true => by
    intro fuel depth rest legible _ enough
    obtain ⟨fuel, rfl⟩ := exists_fuel legible enough
    exact readValue_true fuel depth rest
  | .bool false => by
    intro fuel depth rest legible _ enough
    obtain ⟨fuel, rfl⟩ := exists_fuel legible enough
    exact readValue_false fuel depth rest
  | .int i => by
    intro fuel depth rest legible ends enough
    obtain ⟨fuel, rfl⟩ := exists_fuel legible enough
    exact readValue_int legible ends
  | .double bits => by
    intro fuel depth rest legible
    exact legible.elim
  | .str s => by
    intro fuel depth rest legible _ enough
    obtain ⟨fuel, rfl⟩ := exists_fuel legible enough
    exact readValue_str s fuel depth rest
  | .arr [] => by
    intro fuel depth rest legible _ enough
    obtain ⟨fuel, rfl⟩ := exists_fuel legible enough
    exact readValue_noItems legible.1 fuel rest
  | .arr (j :: items) => by
    intro fuel depth rest legible _ enough
    obtain ⟨fuel, rfl⟩ := exists_fuel legible enough
    obtain ⟨room, legible⟩ := legible
    rw [toList_compact_arr] at enough ⊢
    rw [List.length_cons] at enough
    rw [List.cons_append, readValue_arr legible.1, readItems_compact (j :: items) fuel (depth - 1)
      [] rest (List.cons_ne_nil _ _) legible (by omega), Option.map_some, nested_of_pos room]
    rfl
  | .obj [] => by
    intro fuel depth rest legible _ enough
    obtain ⟨fuel, rfl⟩ := exists_fuel legible enough
    exact readValue_noFields legible.1 fuel rest
  | .obj (e :: fields) => by
    intro fuel depth rest legible _ enough
    obtain ⟨fuel, rfl⟩ := exists_fuel legible enough
    obtain ⟨room, legible⟩ := legible
    rw [toList_compact_obj] at enough ⊢
    rw [List.length_cons] at enough
    rw [List.cons_append, readValue_obj, readFields_compact (e :: fields) fuel (depth - 1) [] rest
      (List.cons_ne_nil _ _) legible (by omega), Option.map_some, nested_of_pos room]
    rfl

theorem readItems_compact : (items : List Json) → ∀ (fuel depth : Nat) (done : List Document)
    (rest : List Char), items ≠ [] → LegibleItems depth items →
    2 * (itemChars items).length < fuel →
    readItems fuel depth done (itemChars items ++ rest) =
      some (.arr (done.reverse ++ Document.ofItems items), rest)
  | [] => by
    intro fuel depth done rest nonempty
    exact absurd rfl nonempty
  | [j] => by
    intro fuel depth done rest _ legible enough
    obtain ⟨fuel, rfl⟩ : ∃ k, fuel = k + 1 := ⟨fuel - 1, by omega⟩
    rw [itemChars, List.length_append] at enough
    have ends : EndsNumber (']' :: rest) := by
      rintro c ⟨⟩
      decide
    have read := readValue_compact j fuel depth _ legible.1 ends (by omega)
    rw [itemChars, List.append_assoc, List.singleton_append, readItems_last read]
    simp [Document.ofItems]
  | j :: k :: items => by
    intro fuel depth done rest _ legible enough
    obtain ⟨fuel, rfl⟩ : ∃ k, fuel = k + 1 := ⟨fuel - 1, by omega⟩
    rw [itemChars, List.length_append, List.length_cons] at enough
    have ends : EndsNumber (',' :: (itemChars (k :: items) ++ rest)) := by
      rintro c ⟨⟩
      decide
    have read := readValue_compact j fuel depth _ legible.1 ends (by omega)
    rw [itemChars, List.append_assoc, List.cons_append, readItems_next read,
      readItems_compact (k :: items) fuel depth _ rest (List.cons_ne_nil _ _) legible.2 (by omega)]
    simp [Document.ofItems]

theorem readFields_compact : (fields : List (String × Json)) → ∀ (fuel depth : Nat)
    (done : List (String × Document)) (rest : List Char), fields ≠ [] →
    LegibleFields depth fields → 2 * (fieldsChars fields).length < fuel →
    readFields fuel depth (some done) (fieldsChars fields ++ rest) =
      some (.obj (done.reverse ++ Document.ofFields fields), rest)
  | [] => by
    intro fuel depth done rest nonempty
    exact absurd rfl nonempty
  | [(key, value)] => by
    intro fuel depth done rest _ legible enough
    obtain ⟨fuel, rfl⟩ : ∃ k, fuel = k + 1 := ⟨fuel - 1, by omega⟩
    simp only [fieldsChars, fieldChars, List.length_append, List.length_cons] at enough
    have ends : EndsNumber ('\x7d' :: rest) := by
      rintro c ⟨⟩
      decide
    have read := readValue_compact value fuel depth _ legible.1 ends (by omega)
    rw [fieldsChars, fieldChars, List.append_assoc, List.append_assoc, List.cons_append,
      List.singleton_append, readFields_last read]
    simp [Document.ofFields]
  | (key, value) :: e :: fields => by
    intro fuel depth done rest _ legible enough
    obtain ⟨fuel, rfl⟩ : ∃ k, fuel = k + 1 := ⟨fuel - 1, by omega⟩
    simp only [fieldsChars, fieldChars, List.length_append, List.length_cons] at enough
    have ends : EndsNumber (',' :: (fieldsChars (e :: fields) ++ rest)) := by
      rintro c ⟨⟩
      decide
    have read := readValue_compact value fuel depth _ legible.1 ends (by omega)
    rw [fieldsChars, fieldChars, List.append_assoc, List.append_assoc, List.cons_append,
      List.cons_append, readFields_next read, readFields_compact (e :: fields) fuel depth _ rest
        (List.cons_ne_nil _ _) legible.2 (by omega)]
    simp [Document.ofFields]

end

end InfraOperator.Json

namespace InfraOperator

theorem Document.parse?_eq (text : String) {cs : List Char} (written : text.toList = cs) :
    parse? text = (Json.readValue (2 * cs.length + 2) Json.depthLimit cs).bind fun r =>
      if (Json.skipSpace r.2).isEmpty then some r.1 else none := by
  rw [parse?, written]
  cases Json.readValue (2 * cs.length + 2) Json.depthLimit cs <;> rfl

/-- A legible value is read back from its text. -/
theorem Json.parse?_compact {j : Json} (h : j.Legible Json.depthLimit) :
    Document.parse? j.compact = some (.ofJson j) := by
  have ends : Json.EndsNumber [] := nofun
  have read := Json.readValue_compact j (2 * j.compact.toList.length + 2) Json.depthLimit [] h ends
    (by omega)
  rw [List.append_nil] at read
  simp only [Document.parse?, read]
  rfl

end InfraOperator
