import InfraOperator.Proofs.JsonText
import InfraOperator.Proofs.Merging

/-!
# What a document says

The value of a document stays as it is when it is written as a document and taken again
(`Document.value?_ofJson`). A document that was parsed has no integers but those that are kept and
nests no deeper than the reader goes, so that its value, if no number of it is a double, can be
printed and parsed once more (`Document.legible_of_value?`).
-/

set_option autoImplicit false

namespace InfraOperator

namespace Json

mutual

def Integral : Json → Prop
  | .null | .bool _ | .str _ | .int _ => True
  | .double _ => False
  | .arr items => IntegralItems items
  | .obj fields => IntegralFields fields

def IntegralItems : List Json → Prop
  | [] => True
  | j :: rest => Integral j ∧ IntegralItems rest

def IntegralFields : List (String × Json) → Prop
  | [] => True
  | (_, j) :: rest => Integral j ∧ IntegralFields rest

end

theorem integralFields_iff {fields : List (String × Json)} :
    IntegralFields fields ↔ ∀ e ∈ fields, e.2.Integral := by
  induction fields with
  | nil => simp [IntegralFields]
  | cons e rest ih => simp [IntegralFields, ih]

theorem legibleFields_iff {depth : Nat} {fields : List (String × Json)} :
    LegibleFields depth fields ↔ ∀ e ∈ fields, e.2.Legible depth := by
  induction fields with
  | nil => simp [LegibleFields]
  | cons e rest ih => simp [LegibleFields, ih]

theorem legibleItems_iff {depth : Nat} {items : List Json} :
    LegibleItems depth items ↔ ∀ j ∈ items, j.Legible depth := by
  induction items with
  | nil => simp [LegibleItems]
  | cons j rest ih => simp [LegibleItems, ih]

mutual

theorem Legible.mono : ∀ {j : Json} {depth more : Nat}, j.Legible depth → depth ≤ more →
    j.Legible more
  | .null, _, _, _, _ | .bool _, _, _, _, _ | .str _, _, _, _, _ => trivial
  | .int _, _, _, legible, _ => legible
  | .double _, _, _, legible, _ => legible.elim
  | .arr _, _, _, legible, le => ⟨by have := legible.1; omega, legible.2.mono (by omega)⟩
  | .obj _, _, _, legible, le => ⟨by have := legible.1; omega, legible.2.mono (by omega)⟩

theorem LegibleItems.mono : ∀ {items : List Json} {depth more : Nat}, LegibleItems depth items →
    depth ≤ more → LegibleItems more items
  | [], _, _, _, _ => trivial
  | _ :: _, _, _, legible, le => ⟨legible.1.mono le, legible.2.mono le⟩

theorem LegibleFields.mono : ∀ {fields : List (String × Json)} {depth more : Nat},
    LegibleFields depth fields → depth ≤ more → LegibleFields more fields
  | [], _, _, _, _ => trivial
  | (_, _) :: _, _, _, legible, le => ⟨legible.1.mono le, legible.2.mono le⟩

end

end Json

namespace Dict

theorem mem_foldl_insert {α : Type} {e : String × α} {entries : List (String × α)} {d : Dict α}
    (h : e ∈ (entries.foldl (fun d e => d.insert e.1 e.2) d).entries) :
    e ∈ d.entries ∨ e ∈ entries := by
  induction entries generalizing d with
  | nil => exact .inl h
  | cons f rest ih =>
    rcases ih h with there | later
    · rcases mem_insertEntry there with rfl | there
      · exact .inr List.mem_cons_self
      · exact .inl there
    · exact .inr (List.mem_cons_of_mem _ later)

theorem mem_of_mem_ofList {α : Type} {e : String × α} {entries : List (String × α)}
    (h : e ∈ (ofList entries).entries) : e ∈ entries :=
  (mem_foldl_insert h).resolve_left List.not_mem_nil

end Dict

namespace Document

theorem eq_null_of_value? {d : Document} (h : d.value? = some .null) : d = .null := by
  cases d with
  | null => rfl
  | arr items =>
    obtain ⟨_, -, no⟩ := Option.map_eq_some_iff.1 h
    cases no
  | obj fields =>
    obtain ⟨_, -, no⟩ := Option.map_eq_some_iff.1 h
    cases no
  | _ => cases h

mutual

/-- A value is that of what is written of it. -/
theorem value?_ofJson : ∀ {d : Document} {j : Json}, d.value? = some j →
    (ofJson j).value? = some j
  | .null, _, rfl | .bool _, _, rfl | .int _, _, rfl | .double _, _, rfl | .str _, _, rfl => rfl
  | .arr items, j, h => by
    obtain ⟨values, read, rfl⟩ := Option.map_eq_some_iff.1 h
    exact congrArg (Option.map Json.arr) (itemValues?_ofItems values (itemValues?_mem read))
  | .obj fields, j, h => by
    obtain ⟨values, read, rfl⟩ := Option.map_eq_some_iff.1 h
    have kept : fieldValues? (ofFields (Dict.ofList values).entries) =
        some (Dict.ofList values).entries :=
      fieldValues?_ofFields _ fun e he => fieldValues?_mem read e (Dict.mem_of_mem_ofList he)
    refine (congrArg (Option.map Json.object) kept).trans ?_
    rw [Option.map_some, Json.object, Dict.ofList_entries]
    rfl

theorem itemValues?_mem : ∀ {items : List Document} {values : List Json},
    itemValues? items = some values → ∀ j ∈ values, (ofJson j).value? = some j
  | [], _, rfl, _, mem => absurd mem List.not_mem_nil
  | d :: items, values, h, j, mem => by
    simp only [itemValues?, bind, Option.bind_eq_some_iff, pure, Option.some.injEq] at h
    obtain ⟨value, first, rest, later, rfl⟩ := h
    rcases List.mem_cons.1 mem with rfl | mem
    · exact value?_ofJson first
    · exact itemValues?_mem later j mem

theorem fieldValues?_mem : ∀ {fields : List (String × Document)} {values : List (String × Json)},
    fieldValues? fields = some values → ∀ e ∈ values, (ofJson e.2).value? = some e.2
  | [], _, rfl, _, mem => absurd mem List.not_mem_nil
  | (key, d) :: fields, values, h, e, mem => by
    simp only [fieldValues?, bind, Option.bind_eq_some_iff, pure, Option.some.injEq] at h
    obtain ⟨value, first, rest, later, rfl⟩ := h
    rcases List.mem_cons.1 mem with rfl | mem
    · exact value?_ofJson first
    · exact fieldValues?_mem later e mem

end

mutual

def Legible (depth : Nat) : Document → Prop
  | .null | .bool _ | .str _ | .double _ | .blot => True
  | .int i => Json.InWords i
  | .arr items => 0 < depth ∧ LegibleItems (depth - 1) items
  | .obj fields => 0 < depth ∧ LegibleFields (depth - 1) fields

def LegibleItems (depth : Nat) : List Document → Prop
  | [] => True
  | d :: rest => Legible depth d ∧ LegibleItems depth rest

def LegibleFields (depth : Nat) : List (String × Document) → Prop
  | [] => True
  | (_, d) :: rest => Legible depth d ∧ LegibleFields depth rest

end

theorem legible_doubleOf (negative : Bool) (significand : Nat) (exponent : Int) (depth : Nat) :
    (Json.doubleOf negative significand exponent).Legible depth := by
  unfold Json.doubleOf
  dsimp only
  generalize (if significand = 0 then some 0.0 else _ : Option Float) = scaled
  cases scaled <;> trivial

theorem legible_readNumber {cs rest : List Char} {d : Document} {depth : Nat}
    (h : Json.readNumber cs = some (d, rest)) : d.Legible depth := by
  unfold Json.readNumber at h
  split at h
  rename_i negative ds signed
  extract_lets whole rest' value afterFraction at h
  clear_value rest'
  split at h
  · cases h
  split at h
  · cases h
  have legible : ∀ x, afterFraction x = some (d, rest) → d.Legible depth := by
    rintro ⟨fraction, rest''⟩ h
    dsimp -zeta only [afterFraction] at h
    extract_lets digits kept afterExponent at h
    have legible : ∀ x, afterExponent x = some (d, rest) → d.Legible depth := by
      intro x h
      dsimp only [afterExponent] at h
      split at h
      · by_cases positive : value ≤ Json.wordLimit ∧ negative = false
        · rw [if_pos positive] at h
          obtain ⟨fits, -⟩ := positive
          unfold Json.wordLimit at fits
          cases h
          exact ⟨by omega, by omega⟩
        · rw [if_neg positive] at h
          split at h
          · next fits =>
            cases h
            exact ⟨by omega, by omega⟩
          · cases h
            exact legible_doubleOf _ _ _ _
      · cases h
        exact legible_doubleOf _ _ _ _
    split at h
    · obtain ⟨x, -, h⟩ := Option.bind_eq_some_iff.1 h
      exact legible x h
    · obtain ⟨x, -, h⟩ := Option.bind_eq_some_iff.1 h
      exact legible x h
    · exact legible _ h
  split at h
  · extract_lets digits at h
    split at h
    · cases h
    · exact legible (some digits, _) h
  · exact legible (none, _) h

theorem legibleItems_iff {depth : Nat} {items : List Document} :
    LegibleItems depth items ↔ ∀ d ∈ items, d.Legible depth := by
  induction items with
  | nil => simp [LegibleItems]
  | cons d rest ih => simp [LegibleItems, ih]

theorem legibleFields_iff {depth : Nat} {fields : List (String × Document)} :
    LegibleFields depth fields ↔ ∀ e ∈ fields, e.2.Legible depth := by
  induction fields with
  | nil => simp [LegibleFields]
  | cons e rest ih => simp [LegibleFields, ih]

theorem legible_nested {depth : Nat} {d : Document} (h : 0 < depth → d.Legible depth) :
    (Json.nested depth d).Legible depth := by
  unfold Json.nested
  split
  · trivial
  · exact h (by omega)

/-- What reading with so much fuel gives: a value is legible, and so is what is in the containers
that are read item by item and field by field. -/
structure Reads (fuel : Nat) : Prop where
  value : ∀ {depth cs d rest}, Json.readValue fuel depth cs = some (d, rest) → d.Legible depth
  items : ∀ {depth done cs d rest}, (∀ d ∈ done, Legible depth d) →
    Json.readItems fuel depth done cs = some (d, rest) →
    ∃ items, d = .arr items ∧ LegibleItems depth items
  fields : ∀ {depth done cs d rest}, (∀ fields, done = some fields → LegibleFields depth fields) →
    Json.readFields fuel depth done cs = some (d, rest) →
    d = .blot ∨ ∃ fields, d = .obj fields ∧ LegibleFields depth fields

theorem reads (fuel : Nat) : Reads fuel := by
  induction fuel with
  | zero => exact ⟨nofun, fun _ => nofun, fun _ => nofun⟩
  | succ fuel ih =>
    refine ⟨?_, ?_, ?_⟩
    · intro depth cs d rest h
      rw [Json.readValue] at h
      split at h
      · split at h
        · cases h
          exact legible_nested fun room => ⟨room, trivial⟩
        · obtain ⟨⟨d, rest'⟩, read, same⟩ := Option.map_eq_some_iff.1 h
          cases same
          have noFields : ∀ fields, some [] = some fields → LegibleFields (depth - 1) fields := by
            rintro fields ⟨⟩
            trivial
          refine legible_nested fun room => ?_
          rcases ih.fields noFields read with
            rfl | ⟨fields, rfl, legible⟩
          · trivial
          · exact ⟨room, legible⟩
      · split at h
        · cases h
          exact legible_nested fun room => ⟨room, trivial⟩
        · obtain ⟨⟨d, rest'⟩, read, same⟩ := Option.map_eq_some_iff.1 h
          cases same
          obtain ⟨items, rfl, legible⟩ := ih.items (fun _ h => absurd h List.not_mem_nil) read
          exact legible_nested fun room => ⟨room, legible⟩
      · obtain ⟨⟨text, rest'⟩, -, same⟩ := Option.map_eq_some_iff.1 h
        cases same
        cases text <;> trivial
      · unfold Json.readWord at h
        split at h <;> cases h
        trivial
      · unfold Json.readWord at h
        split at h <;> cases h
        trivial
      · unfold Json.readWord at h
        split at h <;> cases h
        trivial
      · exact legible_readNumber h
    · intro depth done cs d rest legible h
      rw [Json.readItems] at h
      split at h
      · cases h
      · rename_i item after read
        have all : ∀ d ∈ item :: done, Legible depth d := by
          intro d hd
          rcases List.mem_cons.1 hd with rfl | hd
          · exact ih.value read
          · exact legible d hd
        split at h
        · exact ih.items all h
        · cases h
          exact ⟨_, rfl, legibleItems_iff.2 fun d hd => all d (List.mem_reverse.1 hd)⟩
        · cases h
    · intro depth done cs d rest legible h
      rw [Json.readFields] at h
      split at h
      · split at h
        · cases h
        · split at h
          · split at h
            · cases h
            · rename_i value after read
              extract_lets done' at h
              have all : ∀ fields, done' = some fields → LegibleFields depth fields := by
                intro fields hf
                obtain ⟨before, known, hf⟩ := Option.bind_eq_some_iff.1 hf
                obtain ⟨key, -, rfl⟩ := Option.map_eq_some_iff.1 hf
                exact ⟨ih.value read, legible before known⟩
              clear_value done'
              split at h
              · exact ih.fields all h
              · cases h
                cases done' with
                | none => exact .inl rfl
                | some fields =>
                  refine .inr ⟨_, rfl, legibleFields_iff.2 fun e he => ?_⟩
                  exact legibleFields_iff.1 (all fields rfl) e (List.mem_reverse.1 he)
              · cases h
          · cases h
      · cases h

/-- What was read from a text can be read where as many containers may be nested. -/
theorem legible_of_parse? {text : String} {d : Document} (h : parse? text = some d) :
    d.Legible Json.depthLimit := by
  dsimp only [parse?] at h
  split at h
  · rename_i read
    split at h
    · cases h
      exact (reads _).value read
    · cases h
  · cases h

mutual

/-- The value of what was parsed can be printed and parsed, if no number of it is a double. -/
theorem legible_of_value? : ∀ {d : Document} {j : Json} {depth : Nat}, d.Legible depth →
    d.value? = some j → j.Integral → j.Legible depth
  | .null, _, _, _, rfl, _ | .bool _, _, _, _, rfl, _ | .str _, _, _, _, rfl, _ => trivial
  | .int _, _, _, legible, rfl, _ => legible
  | .double _, _, _, _, rfl, integral => integral.elim
  | .arr items, j, depth, legible, h, integral => by
    obtain ⟨values, read, rfl⟩ := Option.map_eq_some_iff.1 h
    exact ⟨legible.1, legibleItems_of_itemValues? legible.2 read integral⟩
  | .obj fields, j, depth, legible, h, integral => by
    obtain ⟨values, read, rfl⟩ := Option.map_eq_some_iff.1 h
    refine ⟨legible.1, Json.legibleFields_iff.2 fun e he => ?_⟩
    exact legible_of_fieldValues? legible.2 read e (Dict.mem_of_mem_ofList he)
      (Json.integralFields_iff.1 integral e he)

theorem legibleItems_of_itemValues? : ∀ {items : List Document} {values : List Json} {depth : Nat},
    LegibleItems depth items → itemValues? items = some values → Json.IntegralItems values →
    Json.LegibleItems depth values
  | [], _, _, _, rfl, _ => trivial
  | d :: items, values, depth, legible, h, integral => by
    simp only [itemValues?, bind, Option.bind_eq_some_iff, pure, Option.some.injEq] at h
    obtain ⟨value, first, rest, later, rfl⟩ := h
    exact ⟨legible_of_value? legible.1 first integral.1,
      legibleItems_of_itemValues? legible.2 later integral.2⟩

/-- Of several equal keys the value has only the last, so each is considered by itself. -/
theorem legible_of_fieldValues? : ∀ {fields : List (String × Document)}
    {values : List (String × Json)} {depth : Nat}, LegibleFields depth fields →
    fieldValues? fields = some values → ∀ e ∈ values, e.2.Integral → e.2.Legible depth
  | [], _, _, _, rfl, _, mem, _ => absurd mem List.not_mem_nil
  | (key, d) :: fields, values, depth, legible, h, e, mem, integral => by
    simp only [fieldValues?, bind, Option.bind_eq_some_iff, pure, Option.some.injEq] at h
    obtain ⟨value, first, rest, later, rfl⟩ := h
    rcases List.mem_cons.1 mem with rfl | mem
    · exact legible_of_value? legible.1 first integral
    · exact legible_of_fieldValues? legible.2 later e mem integral

end

end Document

end InfraOperator
