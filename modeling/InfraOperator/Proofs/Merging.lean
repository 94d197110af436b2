import InfraOperator.Object.Secret

/-!
# Merging

What is merged into a dictionary wins over what is there, and keys that it does not have stay. A
merge patch of an object whose fields are all given does the same to JSON, so that patching the
data of a secret merges dictionaries (`mergePatch_data`). A key is taken away by a null only.
-/

set_option autoImplicit false

namespace InfraOperator

namespace Dict

variable {α β : Type} {d e : Dict α}

theorem merge_self (d : Dict α) : d.merge d = d :=
  ext_get? fun key => by rw [get?_merge, Option.or_self]

theorem empty_merge (d : Dict α) : (∅ : Dict α).merge d = d :=
  ext_get? fun key => by rw [get?_merge, get?_empty, Option.or_none]

/-- What was merged already changes nothing. -/
theorem merge_merge (d e : Dict α) : (d.merge e).merge e = d.merge e :=
  ext_get? fun key => by rw [get?_merge, get?_merge, ← Option.or_assoc, Option.or_self]

/-- Merging comes to what is merged if that has all the keys there are. -/
theorem merge_eq_right_iff :
    d.merge e = e ↔ ∀ key, d.contains key = true → e.contains key = true := by
  constructor
  · intro same key has
    rw [contains, ← same, get?_merge, Option.isSome_or]
    exact Bool.or_eq_true_iff.2 (.inr has)
  · intro covers
    refine ext_get? fun key => ?_
    rw [get?_merge]
    cases there : e.get? key with
    | some value => rfl
    | none =>
      have absent : ¬ d.contains key = true := by
        intro has
        have covered := covers key has
        rw [contains, there] at covered
        cases covered
      rw [Option.none_or]
      exact Option.not_isSome_iff_eq_none.1 absent

theorem ofList_entries (d : Dict α) : ofList d.entries = d :=
  empty_merge d

def mapValues (f : α → β) (d : Dict α) : Dict β :=
  ⟨d.entries.map fun e => (e.1, f e.2), by
    rw [KeysAscend, List.pairwise_map]
    exact d.ascend⟩

theorem get?_mapValues (f : α → β) (d : Dict α) (key : String) :
    (d.mapValues f).get? key = (d.get? key).map f := by
  change (d.entries.map fun e => (e.1, f e.2)).lookup key = (d.entries.lookup key).map f
  induction d.entries with
  | nil => rfl
  | cons head rest ih =>
    rw [List.map_cons, List.lookup_cons, List.lookup_cons]
    cases key == head.1
    · exact ih
    · rfl

end Dict

namespace Json

/-- What a merge patch without nulls leaves under a key. -/
theorem get?_mergeFields {patch : List (String × Json)} (ascend : KeysAscend patch)
    (given : ∀ e ∈ patch, e.2 ≠ .null) (fields : Dict Json) (key : String) :
    (mergeFields fields patch).get? key =
      ((patch.lookup key).map ((fields.get? key).getD .null).mergePatch).or
        (fields.get? key) := by
  induction patch generalizing fields with
  | nil =>
    rw [mergeFields]
    rfl
  | cons head rest ih =>
    obtain ⟨name, value⟩ := head
    obtain ⟨above, ascend⟩ := List.pairwise_cons.1 ascend
    obtain ⟨present, given⟩ := List.forall_mem_cons.1 given
    rw [mergeFields, ih ascend given, Dict.get?_insert, List.lookup_cons]
    · by_cases same : key = name
      · subst same
        rw [Dict.lookup_eq_none_of_lt above]
        simp
      · have other : (key == name) = false := by simpa using same
        rw [if_neg same, other]
    · exact present

/-- Dictionaries of bytes are merged as dictionaries, where there is one. -/
theorem mergePatch_bytes (old : Option (Dict Bytes)) (new : Dict Bytes) :
    ((old.map (Write.dict Write.bytes)).getD .null).mergePatch (Write.dict Write.bytes new) =
      Write.dict Write.bytes ((old.getD ∅).merge new) := by
  have given : ∀ e ∈ (new.mapValues Write.bytes).entries, e.2 ≠ .null := by
    intro e mem
    obtain ⟨_, -, rfl⟩ := List.mem_map.1 mem
    exact nofun
  have merged : ∀ old : Dict Bytes,
      mergeFields (old.mapValues Write.bytes) (new.mapValues Write.bytes).entries =
        (old.merge new).mapValues Write.bytes := by
    intro old
    refine Dict.ext_get? fun key => ?_
    rw [get?_mergeFields (new.mapValues Write.bytes).ascend given]
    change ((((new.mapValues Write.bytes).get? key).map _).or _) = _
    rw [Dict.get?_mapValues, Dict.get?_mapValues, Dict.get?_mapValues, Dict.get?_merge]
    cases new.get? key with
    | none => rfl
    | some value => simp [Write.bytes, mergePatch]
  cases old with
  | none =>
    rw [Option.map_none, Option.getD_none, Write.dict, mergePatch]
    · exact congrArg ofDict (merged ∅)
    · exact nofun
  | some old =>
    rw [Option.map_some, Option.getD_some, Write.dict, Write.dict, mergePatch]
    have same : Dict.ofList (old.mapValues Write.bytes).entries = old.mapValues Write.bytes :=
      Dict.ofList_entries _
    change ofDict (mergeFields (Dict.ofList (old.mapValues Write.bytes).entries) _) = _
    rw [same]
    exact congrArg ofDict (merged old)

theorem lookup_field {α : Type} (key name : String) (encode : α → Json) (value : Option α) :
    (field name encode value).lookup key = if key = name then value.map encode else none := by
  cases value with
  | none => simp [field]
  | some value =>
    by_cases same : key = name
    · simp [field, same]
    · have other : (key == name) = false := by simpa using same
      simp [field, List.lookup_cons, other, same]

theorem reverse_field {α : Type} (name : String) (encode : α → Json) (value : Option α) :
    (field name encode value).reverse = field name encode value := by
  cases value <;> rfl

end Json

namespace Secret

variable (s : Secret)

def fields : List (String × Json) :=
  [("apiVersion", .str "v1"), ("kind", .str "Secret")] ++
  Json.field "data" (Write.dict Write.bytes) s.data ++
  Json.field "immutable" Write.bool s.immutable ++
  [("metadata", s.metadata.toJson)] ++
  Json.field "stringData" Write.labels s.stringData ++
  Json.field "type" Write.text s.type

theorem get?_data : (Dict.ofList s.fields).get? "data" = s.data.map (Write.dict Write.bytes) := by
  simp only [fields, Dict.get?_ofList, List.reverse_append, List.lookup_append,
    Json.reverse_field, Json.lookup_field]
  simp [List.lookup_cons]

theorem get?_of_ne_data (data : Option (Dict Bytes)) {key : String} (other : key ≠ "data") :
    (Dict.ofList { s with data : Secret }.fields).get? key =
      (Dict.ofList s.fields).get? key := by
  simp only [fields, Dict.get?_ofList, List.reverse_append, List.lookup_append,
    Json.reverse_field, Json.lookup_field, if_neg other]

theorem mergePatch_data (data : Dict Bytes) :
    s.toJson.mergePatch (.obj [("data", Write.dict Write.bytes data)]) =
      { s with data := some ((s.data.getD ∅).merge data) : Secret }.toJson := by
  have patched := Json.mergePatch_bytes s.data data
  have there : s.toJson = .obj (Dict.ofList s.fields).entries := rfl
  rw [there, Json.mergePatch]
  change Json.ofDict (Json.mergeFields (Dict.ofList (Dict.ofList s.fields).entries) _) = _
  rw [Dict.ofList_entries, Json.mergeFields, Json.mergeFields, get?_data, patched]
  · have stored := get?_data { s with data := some ((s.data.getD ∅).merge data) }
    refine congrArg Json.ofDict (Dict.ext_get? fun key => ?_)
    rw [Dict.get?_insert]
    split
    · next same =>
      subst same
      exact stored.symm
    · next other => exact (get?_of_ne_data s _ other).symm
  · exact nofun

end Secret

end InfraOperator
