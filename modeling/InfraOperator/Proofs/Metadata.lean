import InfraOperator.Api.Client
import InfraOperator.Proofs.Merging
import InfraOperator.Resource.Configuration
import InfraOperator.Resource.Revision

/-!
# What the metadata of an object says

An object is kept as a JSON value. Its finalizers and its version are what a client reads of it
(`ReadsMetadata.agrees`), and a patch of the finalizers replaces them all, whatever the object
(`finalizers_mergePatch`).
-/

set_option autoImplicit false

namespace InfraOperator

namespace Json

def text? : Json → Option String
  | .str s => some s
  | _ => none

def metadata? (j : Json) (key : String) : Option Json := (j.get? "metadata").bind (·.get? key)

def textsOf : Option Json → List String
  | some (.arr items) => items.filterMap text?
  | _ => []

def finalizers (j : Json) : List String := textsOf (j.metadata? "finalizers")

def version? (j : Json) : Option String := (j.metadata? "resourceVersion").bind text?

theorem textsOf_texts (texts : List String) : textsOf (some (Write.texts texts)) = texts := by
  simp [textsOf, Write.texts, Write.list, List.filterMap_map, Function.comp_def, Write.text, text?]

theorem get?_ofDict (d : Dict Json) (key : String) : (ofDict d).get? key = d.get? key := rfl

theorem exists_obj_of_version? {j : Json} (versioned : j.version?.isSome) :
    ∃ fields, j = .obj fields := by
  cases j with
  | obj fields => exact ⟨fields, rfl⟩
  | _ => cases versioned

end Json

/-! ## Fields of a document -/

theorem map_eq_of_mapM {α β : Type} {f : α → Option β} {as : List α} {bs : List β}
    (h : as.mapM f = some bs) : as.map f = bs.map some := by
  induction as generalizing bs with
  | nil =>
    obtain rfl : bs = [] := by simpa using h.symm
    rfl
  | cons a as ih =>
    rw [List.mapM_cons] at h
    simp only [bind, Option.bind_eq_some_iff, pure, Option.some.injEq] at h
    obtain ⟨b, first, rest, later, rfl⟩ := h
    rw [List.map_cons, List.map_cons, first, ih later]

theorem getLast?_cases {α β : Type} {f : α → Option β} {as : List α} {bs : List β}
    (h : as.map f = bs.map some) :
    (as.getLast? = none ∧ bs.getLast? = none) ∨
      ∃ a b, as.getLast? = some a ∧ f a = some b ∧ bs.getLast? = some b := by
  have last := congrArg List.getLast? h
  rw [List.getLast?_map, List.getLast?_map] at last
  generalize as.getLast? = a at last ⊢
  generalize bs.getLast? = b at last ⊢
  cases a <;> cases b <;> simp_all

theorem lookup_reverse_eq_getLast? {α : Type} (pairs : List (String × α)) (key : String) :
    pairs.reverse.lookup key = ((pairs.filter (·.1 = key)).map Prod.snd).getLast? := by
  induction pairs with
  | nil => rfl
  | cons e rest ih =>
    rw [List.reverse_cons, List.lookup_append, ih, List.lookup_cons, List.lookup_nil]
    by_cases same : key = e.1
    · rw [List.filter_cons_of_pos (by simpa using same.symm), List.map_cons, List.getLast?_cons]
      simp [same]
    · have other : (key == e.1) = false := by simpa using same
      rw [List.filter_cons_of_neg (by simpa using Ne.symm same), other]
      simp

namespace Document

variable {fields : Fields} {pairs : List (String × Json)} {j : Json}

theorem map_value?_named (h : fieldValues? fields = some pairs) (key : String) :
    (fields.named key).map value? = ((pairs.filter (·.1 = key)).map Prod.snd).map some := by
  induction fields generalizing pairs with
  | nil =>
    obtain rfl : pairs = [] := by simpa [fieldValues?] using h.symm
    rfl
  | cons e rest ih =>
    obtain ⟨k, d⟩ := e
    simp only [fieldValues?, bind, Option.bind_eq_some_iff, pure, Option.some.injEq] at h
    obtain ⟨value, first, later, rest, rfl⟩ := h
    have named := ih rest
    by_cases same : k = key
    · simpa [Fields.named, same, first] using named
    · simpa [Fields.named, same] using named

theorem get?_cases (h : (Document.obj fields).value? = some j) (key : String) :
    ((fields.named key).getLast? = none ∧ j.get? key = none) ∨
      ∃ d k, (fields.named key).getLast? = some d ∧ d.value? = some k ∧ j.get? key = some k := by
  simp only [value?, Option.map_eq_some_iff] at h
  obtain ⟨pairs, values, rfl⟩ := h
  have found : (Json.object pairs).get? key =
      ((pairs.filter (·.1 = key)).map Prod.snd).getLast? := by
    rw [← lookup_reverse_eq_getLast?]
    exact Dict.get?_ofList pairs key
  rw [found]
  exact getLast?_cases (map_value?_named values key)

end Document

namespace Fields

variable {α : Type} {fields : Fields} {j : Json} {name : String} {read : Reader α}

theorem last?_cases {x : Option α} (value : (Document.obj fields).value? = some j)
    (h : fields.last? name read = some x) :
    (j.get? name = none ∧ x = none) ∨
      ∃ d k a, d.value? = some k ∧ j.get? name = some k ∧ read d = some a ∧ x = some a := by
  simp only [last?, Option.map_eq_some_iff] at h
  obtain ⟨values, read_all, rfl⟩ := h
  rcases getLast?_cases (map_eq_of_mapM read_all) with ⟨none, left⟩ | ⟨d, a, last, reads, is⟩ <;>
    rcases Document.get?_cases value name with ⟨none', there⟩ | ⟨d', k, last', value', there⟩
  · exact .inl ⟨there, left⟩
  · cases none.symm.trans last'
  · cases last.symm.trans none'
  · obtain rfl : d = d' := Option.some.inj (last.symm.trans last')
    exact .inr ⟨d, k, a, value', there, reads, is⟩

/-- A field that may be missing is read off its value, and a null like nothing. -/
theorem optional_cases {x : Option α} (value : (Document.obj fields).value? = some j)
    (h : fields.optional name read = some x) :
    (x = none ∧ (j.get? name = none ∨ j.get? name = some .null)) ∨
      ∃ d k a, d.value? = some k ∧ j.get? name = some k ∧ read d = some a ∧ x = some a := by
  simp only [optional, Option.map_eq_some_iff] at h
  obtain ⟨y, last, rfl⟩ := h
  rcases last?_cases value last with ⟨there, rfl⟩ | ⟨d, k, a, value, there, reads, rfl⟩
  · exact .inl ⟨rfl, .inl there⟩
  · split at reads
    · cases reads
      cases value
      exact .inl ⟨rfl, .inr there⟩
    · obtain ⟨a', read_eq, rfl⟩ := Option.map_eq_some_iff.1 reads
      exact .inr ⟨d, k, a', value, there, read_eq, rfl⟩

theorem required_cases {a : α} (value : (Document.obj fields).value? = some j)
    (h : fields.required name read = some a) :
    ∃ d k, d.value? = some k ∧ j.get? name = some k ∧ read d = some a := by
  obtain ⟨x, last, rfl⟩ := Option.bind_eq_some_iff.1 h
  rcases last?_cases value last with ⟨-, none⟩ | ⟨d, k, a', value, there, reads, is⟩
  · cases none
  · cases is
    exact ⟨d, k, value, there, reads⟩

end Fields

/-! ## What is read of the metadata -/

theorem value?_of_text {d : Document} {k : Json} {s : String} (value : d.value? = some k)
    (h : Read.text d = some s) : k = .str s := by
  cases d with
  | str s' =>
    cases h
    exact (Option.some.inj value).symm
  | _ => cases h

theorem itemValues?_of_texts {items : List Document} {ks : List Json} {texts : List String}
    (values : Document.itemValues? items = some ks) (h : items.mapM Read.text = some texts) :
    ks = texts.map Write.text := by
  induction items generalizing ks texts with
  | nil =>
    obtain rfl : ks = [] := by simpa [Document.itemValues?] using values.symm
    obtain rfl : texts = [] := by simpa using h.symm
    rfl
  | cons item items ih =>
    rw [List.mapM_cons] at h
    simp only [Document.itemValues?, bind, Option.bind_eq_some_iff, pure, Option.some.injEq]
      at values h
    obtain ⟨k, value, ks, values, rfl⟩ := values
    obtain ⟨text, read, texts, reads, rfl⟩ := h
    rw [value?_of_text value read, ih values reads]
    rfl

theorem value?_of_texts {d : Document} {k : Json} {texts : List String}
    (value : d.value? = some k) (h : Read.texts d = some texts) : k = Write.texts texts := by
  cases d with
  | arr items =>
    obtain ⟨ks, values, rfl⟩ := Option.map_eq_some_iff.1 value
    exact congrArg Json.arr (itemValues?_of_texts values h)
  | _ => cases h

namespace ObjectMeta

variable {d : Document} {k : Json} {m : ObjectMeta}

theorem fields_of_read (h : read d = some m) : ∃ fields, d = .obj fields ∧
    Fields.optional fields "resourceVersion" Read.text = some m.resourceVersion ∧
    Fields.optional fields "finalizers" Read.texts = some m.finalizers := by
  unfold read at h
  obtain ⟨fields, object, h⟩ := Option.bind_eq_some_iff.1 h
  iterate 5 obtain ⟨_, -, h⟩ := Option.bind_eq_some_iff.1 h
  obtain ⟨version, versioned, h⟩ := Option.bind_eq_some_iff.1 h
  iterate 2 obtain ⟨_, -, h⟩ := Option.bind_eq_some_iff.1 h
  obtain ⟨finalizers, held, h⟩ := Option.bind_eq_some_iff.1 h
  iterate 6 obtain ⟨_, -, h⟩ := Option.bind_eq_some_iff.1 h
  cases h
  refine ⟨fields, ?_, versioned, held⟩
  cases d with
  | obj fields' =>
    cases object
    rfl
  | _ => cases object

/-- What is read of the metadata is what its value says. -/
theorem read_agrees (value : d.value? = some k) (h : read d = some m) :
    m.resourceVersion = (k.get? "resourceVersion").bind Json.text? ∧
      m.finalizers.getD [] = Json.textsOf (k.get? "finalizers") := by
  obtain ⟨fields, rfl, version, finalizers⟩ := fields_of_read h
  constructor
  · rcases Fields.optional_cases value version with ⟨none, there | there⟩ | ⟨d, j, text, is, there,
      reads, version⟩
    · rw [none, there]
      rfl
    · rw [none, there]
      rfl
    · rw [version, there, value?_of_text is reads]
      rfl
  · rcases Fields.optional_cases value finalizers with ⟨none, there | there⟩ | ⟨d, j, texts, is,
      there, reads, finalizers⟩
    · rw [none, there]
      rfl
    · rw [none, there]
      rfl
    · rw [finalizers, there, value?_of_texts is reads, Json.textsOf_texts]
      rfl

end ObjectMeta

/-! ## Objects -/

def ReadsMetadata {α : Type} (read : Reader α) (metadata : α → ObjectMeta) : Prop :=
  ∀ fields x, read (.obj fields) = some x →
    Fields.required fields "metadata" ObjectMeta.read = some (metadata x)

theorem readObject_obj {fields fields' : Fields} (h : readObject (.obj fields) = some fields') :
    fields' = fields := by
  simp only [readObject, Read.record, Option.ite_none_right_eq_some, Option.some.injEq] at h
  exact h.2.symm

theorem Configuration.readsMetadata : ReadsMetadata read metadata := by
  intro fields c h
  simp only [read, bind, Option.bind_eq_some_iff, pure, Option.some.injEq] at h
  obtain ⟨fields', object, m, metadata, _, -, _, -, rfl⟩ := h
  rwa [readObject_obj object] at metadata

theorem Revision.readsMetadata : ReadsMetadata read metadata := by
  intro fields r h
  simp only [read, bind, Option.bind_eq_some_iff, pure, Option.some.injEq] at h
  obtain ⟨fields', object, m, metadata, _, -, _, -, rfl⟩ := h
  rwa [readObject_obj object] at metadata

theorem ReadsMetadata.agrees {α : Type} {read : Reader α} {metadata : α → ObjectMeta}
    (reads : ReadsMetadata read metadata) {d : Document} {j : Json} {x : α}
    (value : d.value? = some j) (versioned : j.version?.isSome) (h : read d = some x) :
    (metadata x).resourceVersion = j.version? ∧
      (metadata x).finalizers.getD [] = j.finalizers := by
  obtain ⟨_, rfl⟩ := Json.exists_obj_of_version? versioned
  cases d with
  | obj fields =>
    obtain ⟨d, k, is, there, metadata⟩ := Fields.required_cases value (reads fields x h)
    have agrees := ObjectMeta.read_agrees is metadata
    simpa only [Json.version?, Json.finalizers, Json.metadata?, there, Option.bind_some] using agrees
  | _ => simp [Document.value?] at value

/-! ## Patches of the finalizers -/

theorem finalizerPatch_eq (m : ObjectMeta) (finalizers : List String) :
    finalizerPatch m finalizers = .obj [("metadata", .obj [("finalizers", Write.texts finalizers),
      ("resourceVersion", Write.option .str m.resourceVersion)])] := by
  have above : ¬ "resourceVersion" < "finalizers" := by decide +kernel
  have empty : (∅ : Dict Json).entries = [] := rfl
  simp [finalizerPatch, Json.object, Json.ofDict, Dict.ofList, Dict.insert, insertEntry, above,
    empty]

/-- The patch is made under the version that was read. -/
theorem version?_finalizerPatch (m : ObjectMeta) (finalizers : List String) :
    (finalizerPatch m finalizers).version? = m.resourceVersion := by
  rw [finalizerPatch_eq]
  cases version : m.resourceVersion <;>
    simp [Json.version?, Json.metadata?, Json.get?, List.lookup_cons, Write.option, Json.text?]

theorem mergePatch_obj (j : Json) (patch : List (String × Json)) :
    ∃ fields, j.mergePatch (.obj patch) = .ofDict (Json.mergeFields fields patch) := by
  unfold Json.mergePatch
  exact ⟨_, rfl⟩

theorem finalizers_mergePatch (j : Json) (m : ObjectMeta) (finalizers : List String) :
    (j.mergePatch (finalizerPatch m finalizers)).finalizers = finalizers := by
  rw [finalizerPatch_eq]
  generalize Write.option Json.str m.resourceVersion = version
  obtain ⟨fields, whole⟩ := mergePatch_obj j
    [("metadata", .obj [("finalizers", Write.texts finalizers), ("resourceVersion", version)])]
  obtain ⟨fields', inner⟩ := mergePatch_obj ((fields.get? "metadata").getD .null)
    [("finalizers", Write.texts finalizers), ("resourceVersion", version)]
  have metadata : (Json.ofDict (Json.mergeFields fields [("metadata",
      .obj [("finalizers", Write.texts finalizers), ("resourceVersion", version)])])).get?
        "metadata" =
      some (.ofDict (Json.mergeFields fields' [("finalizers", Write.texts finalizers),
        ("resourceVersion", version)])) := by
    rw [Json.mergeFields, Json.mergeFields, Json.get?_ofDict, Dict.get?_insert, if_pos rfl, inner]
    simp
  have listed : (Json.mergeFields fields' [("finalizers", Write.texts finalizers),
      ("resourceVersion", version)]).get? "finalizers" = some (Write.texts finalizers) := by
    rw [Json.mergeFields]
    · cases version <;>
        simp [Json.mergeFields, Dict.get?_insert, Dict.get?_erase, Json.mergePatch, Write.texts,
          Write.list]
    · simp [Write.texts, Write.list]
  rw [Json.finalizers, Json.metadata?, whole, metadata, Option.bind_some, Json.get?_ofDict, listed,
    Json.textsOf_texts]

end InfraOperator
