import InfraOperator.Proofs.Documents
import InfraOperator.Proofs.Metadata
import InfraOperator.Proofs.Timestamps

/-!
# Records read again

The fields of an object that was written are those it was made of (`Fields.named_written`), so that
a field is read again from what was written for it. A reader and a writer settle (`Settles`) when
whatever was read is read again from what is written of it; this goes from the values of fields to
lists and to records. A field that may be missing or null needs in addition that nothing that is
there is written as a null.
-/

set_option autoImplicit false

namespace InfraOperator

namespace Document

theorem map_fst_ofFields (fields : List (String × Json)) :
    (ofFields fields).map Prod.fst = fields.map Prod.fst := by
  induction fields with
  | nil => rfl
  | cons e rest ih => exact congrArg (e.1 :: ·) ih

theorem ofJson_ne_null {j : Json} (h : j ≠ .null) : ofJson j ≠ .null := by
  cases j with
  | null => exact absurd rfl h
  | _ => nofun

end Document

namespace Json

def fieldOf? (entries : List (String × Json)) (name : String) : Option Json :=
  entries.reverse.lookup name

variable (entries more : List (String × Json)) (name : String)

@[simp] theorem fieldOf?_nil : fieldOf? [] name = none := rfl

@[simp] theorem fieldOf?_append :
    fieldOf? (entries ++ more) name = (fieldOf? more name).or (fieldOf? entries name) := by
  rw [fieldOf?, List.reverse_append, List.lookup_append]
  rfl

@[simp] theorem fieldOf?_cons (e : String × Json) : fieldOf? (e :: entries) name =
    (fieldOf? entries name).or (if name = e.1 then some e.2 else none) := by
  have alone : fieldOf? [e] name = if name = e.1 then some e.2 else none := by
    rw [fieldOf?, List.reverse_singleton, List.lookup_cons, List.lookup_nil]
    by_cases same : name = e.1
    · simp [same]
    · have other : (name == e.1) = false := by simpa using same
      rw [other, if_neg same]
  rw [← alone]
  exact fieldOf?_append [e] entries name

@[simp] theorem fieldOf?_ite (c : Prop) [Decidable c] :
    fieldOf? (if c then [] else entries) name = if c then none else fieldOf? entries name := by
  split <;> rfl

@[simp] theorem fieldOf?_field {α : Type} (key : String) (encode : α → Json) (value : Option α) :
    fieldOf? (field key encode value) name = if name = key then value.map encode else none := by
  rw [fieldOf?, reverse_field, lookup_field]

theorem get?_object : (object entries).get? name = fieldOf? entries name :=
  Dict.get?_ofList entries name

theorem object_ne_null (entries : List (String × Json)) : object entries ≠ .null := nofun

theorem legible_object {entries : List (String × Json)} {depth : Nat} (deep : 0 < depth)
    (each : LegibleFields (depth - 1) entries) : (object entries).Legible depth :=
  ⟨deep, legibleFields_iff.2 fun e he => legibleFields_iff.1 each e (Dict.mem_of_mem_ofList he)⟩

namespace LegibleFields

variable {depth : Nat} {entries more : List (String × Json)}

theorem append (first : LegibleFields depth entries) (second : LegibleFields depth more) :
    LegibleFields depth (entries ++ more) :=
  legibleFields_iff.2 (List.forall_mem_append.2
    ⟨legibleFields_iff.1 first, legibleFields_iff.1 second⟩)

theorem ite {c : Prop} [Decidable c] (each : LegibleFields depth entries) :
    LegibleFields depth (if c then [] else entries) := by
  split
  · trivial
  · exact each

theorem field {α : Type} {name : String} {encode : α → Json} {value : Option α}
    (each : ∀ a ∈ value, (encode a).Legible depth) :
    LegibleFields depth (field name encode value) := by
  cases value with
  | none => trivial
  | some a => exact ⟨each a rfl, trivial⟩

end LegibleFields

end Json

theorem exists_of_mapM {α β : Type} {f : α → Option β} {as : List α} {bs : List β} {b : β}
    (h : as.mapM f = some bs) (there : b ∈ bs) : ∃ a ∈ as, f a = some b := by
  have taken : some b ∈ as.map f := by
    rw [map_eq_of_mapM h]
    exact List.mem_map_of_mem there
  exact List.mem_map.1 taken

namespace Fields

variable {α : Type} {fields : Fields} {name : String} {read : Reader α} {a default : α}

/-! ## What a field was read from -/

theorem exists_of_last? (h : fields.last? name read = some (some a)) :
    ∃ d ∈ fields.named name, read d = some a := by
  obtain ⟨values, reads, last⟩ := Option.map_eq_some_iff.1 h
  exact exists_of_mapM reads (List.mem_of_getLast? last)

theorem exists_of_required (h : fields.required name read = some a) :
    ∃ d ∈ fields.named name, read d = some a := by
  obtain ⟨x, last, rfl⟩ := Option.bind_eq_some_iff.1 h
  exact exists_of_last? last

theorem exists_of_optional (h : fields.optional name read = some (some a)) :
    ∃ d ∈ fields.named name, d ≠ .null ∧ read d = some a := by
  obtain ⟨x, last, is⟩ := Option.map_eq_some_iff.1 h
  obtain rfl : x = some (some a) := by
    cases x with
    | none => cases is
    | some x => exact congrArg some is
  obtain ⟨d, there, reads⟩ := exists_of_last? last
  split at reads
  · cases reads
  · rename_i present
    obtain ⟨a', reads, same⟩ := Option.map_eq_some_iff.1 reads
    cases same
    exact ⟨d, there, present, reads⟩

theorem of_defaulting (h : fields.defaulting name read default = some a) :
    a = default ∨ ∃ d ∈ fields.named name, read d = some a := by
  obtain ⟨x, last, rfl⟩ := Option.map_eq_some_iff.1 h
  cases x with
  | none => exact .inl rfl
  | some a => exact .inr (exists_of_last? last)

theorem legible_named {names : List String} {d e : Document} {depth : Nat}
    (record : Read.record names d = some fields) (legible : d.Legible depth)
    (there : e ∈ fields.named name) : e.Legible (depth - 1) := by
  obtain ⟨field, listed, rfl⟩ := List.mem_map.1 there
  have there := (List.mem_filter.1 listed).1
  unfold Read.record at record
  split at record
  · split at record
    · cases record
      exact Document.legibleFields_iff.1 legible.2 _ there
    · cases record
  · split at record
    · cases record
      exact Document.legibleItems_iff.1 legible.2 _ (List.of_mem_zip there).2
    · cases record
  · cases record

/-! ## Fields of an object that was written -/

def written (entries : List (String × Json)) : Fields :=
  Document.ofFields (Dict.ofList entries).entries

theorem named_ofFields {entries : List (String × Json)} (ascend : KeysAscend entries)
    (name : String) : named (Document.ofFields entries) name =
      ((entries.lookup name).map Document.ofJson).toList := by
  induction entries with
  | nil => rfl
  | cons e rest ih =>
    obtain ⟨above, ascend⟩ := List.pairwise_cons.1 ascend
    have ih := ih ascend
    obtain ⟨key, j⟩ := e
    rw [List.lookup_cons]
    by_cases same : name = key
    · subst same
      rw [Dict.lookup_eq_none_of_lt above] at ih
      simp only [named] at ih ⊢
      simp [Document.ofFields, ih]
    · have other : (name == key) = false := by simpa using same
      rw [other, ← ih]
      simp [named, Document.ofFields, Ne.symm same]

theorem named_written (entries : List (String × Json)) (name : String) :
    (written entries).named name = ((Json.fieldOf? entries name).map Document.ofJson).toList := by
  rw [written, named_ofFields (Dict.ofList entries).ascend, Json.fieldOf?, ← Dict.get?_ofList]
  rfl

theorem record_object (names : List String) (entries : List (String × Json)) :
    Read.record names (.ofJson (.object entries)) = some (written entries) := by
  have keys : ((written entries).map Prod.fst).Nodup := by
    rw [written, Document.map_fst_ofFields]
    refine List.pairwise_map.2 ((Dict.ofList entries).ascend.imp fun lt same => ?_)
    exact String.lt_irrefl _ (same ▸ lt)
  exact if_pos (keys.filter _)

section Written

variable {entries : List (String × Json)} {j : Json}

theorem last?_written (found : Json.fieldOf? entries name = some j) :
    (written entries).last? name read = (read (.ofJson j)).map some :=
  last?_of_named_singleton _ _ _ (by rw [named_written, found]; rfl)

theorem last?_not_written (absent : Json.fieldOf? entries name = none) :
    (written entries).last? name read = some none :=
  last?_of_named_nil _ _ _ (by rw [named_written, absent]; rfl)

theorem required_written (found : Json.fieldOf? entries name = some j) :
    (written entries).required name read = read (.ofJson j) := by
  rw [required, last?_written found]
  cases read (.ofJson j) <;> rfl

theorem defaulting_written (found : Json.fieldOf? entries name = some j) :
    (written entries).defaulting name read default = read (.ofJson j) := by
  rw [defaulting, last?_written found]
  cases read (.ofJson j) <;> rfl

theorem defaulting_not_written (absent : Json.fieldOf? entries name = none) :
    (written entries).defaulting name read default = some default := by
  rw [defaulting, last?_not_written absent]
  rfl

theorem optional_written (found : Json.fieldOf? entries name = some j) (present : j ≠ .null) :
    (written entries).optional name read = (read (.ofJson j)).map some := by
  have present := Document.ofJson_ne_null present
  rw [optional, last?_written found]
  split
  · contradiction
  · cases read (.ofJson j) <;> rfl

theorem optional_not_written (absent : Json.fieldOf? entries name = none) :
    (written entries).optional name read = some none := by
  rw [optional, last?_not_written absent]
  rfl

end Written

end Fields

/-! ## Readers and writers -/

/-- The value is read again from what is written of it, and that is no null and can be printed and
parsed where so many containers may be nested. -/
structure Settled {α : Type} (height : Nat) (read : Reader α) (write : α → Json) (a : α) :
    Prop where
  again : read (.ofJson (write a)) = some a
  present : write a ≠ .null
  legible : (write a).Legible height

def Settles {α : Type} (height : Nat) (read : Reader α) (write : α → Json) : Prop :=
  ∀ d a, read d = some a → Settled height read write a

theorem Settles.mono {α : Type} {height more : Nat} {read : Reader α} {write : α → Json}
    (s : Settles height read write) (le : height ≤ more) : Settles more read write :=
  fun d a h => ⟨(s d a h).again, (s d a h).present, (s d a h).legible.mono le⟩

section Fields

variable {α : Type} {height : Nat} {read : Reader α} {write : α → Json} {fields : Fields}
  {name : String} {a default : α} {entries : List (String × Json)}

/-! What was read from a field is settled. -/

theorem Settles.required (s : Settles height read write)
    (h : fields.required name read = some a) : Settled height read write a := by
  obtain ⟨d, -, reads⟩ := Fields.exists_of_required h
  exact s _ _ reads

theorem Settles.optional {o : Option α} (s : Settles height read write)
    (h : fields.optional name read = some o) : ∀ a ∈ o, Settled height read write a := by
  rintro a rfl
  obtain ⟨d, -, -, reads⟩ := Fields.exists_of_optional h
  exact s _ _ reads

theorem Settles.defaulting (s : Settles height read write) (known : ∃ d, read d = some default)
    (h : fields.defaulting name read default = some a) : Settled height read write a := by
  rcases Fields.of_defaulting h with rfl | ⟨d, -, reads⟩
  · obtain ⟨d, reads⟩ := known
    exact s _ _ reads
  · exact s _ _ reads

/-! A settled value is read again from its field. -/

theorem Settled.required (s : Settled height read write a)
    (found : Json.fieldOf? entries name = some (write a)) :
    (Fields.written entries).required name read = some a := by
  rw [Fields.required_written found, s.again]

theorem Settled.defaulting (s : Settled height read write a)
    (found : Json.fieldOf? entries name = some (write a)) :
    (Fields.written entries).defaulting name read default = some a := by
  rw [Fields.defaulting_written found, s.again]

/-- A field may be left out when it has its default. -/
theorem Settled.unless {skipped : Bool} (s : Settled height read write a)
    (found : Json.fieldOf? entries name = if skipped then none else some (write a))
    (skips : skipped = true → a = default) :
    (Fields.written entries).defaulting name read default = some a := by
  cases skipped with
  | true => rw [Fields.defaulting_not_written found, skips rfl]
  | false => exact s.defaulting found

theorem Settled.optional {o : Option α} (s : ∀ a ∈ o, Settled height read write a)
    (found : Json.fieldOf? entries name = o.map write) :
    (Fields.written entries).optional name read = some o := by
  cases o with
  | none => exact Fields.optional_not_written found
  | some a =>
    rw [Fields.optional_written found (s a rfl).present, (s a rfl).again]
    rfl

end Fields

/-! ## Values without fields -/

namespace Settles

variable {α : Type} {height : Nat} {read : Reader α} {write : α → Json}

theorem text : Settles 0 Read.text Write.text := fun _ _ _ => ⟨rfl, nofun, trivial⟩

theorem bool : Settles 0 Read.bool Write.bool := fun _ _ _ => ⟨rfl, nofun, trivial⟩

theorem tag {text : α → String} {ofText? : String → Option α}
    (named : ∀ a, ofText? (text a) = some a) :
    Settles 0 (fun d => (Read.tag d).bind ofText?) (fun a => .str (text a)) :=
  fun _ _ _ => ⟨named _, nofun, trivial⟩

theorem eq_of_readInt {b : Bounds} {d : Document} {i : Int} (h : Read.int b d = some i) :
    d = .int i ∧ b.least ≤ i ∧ i ≤ b.greatest := by
  cases d with
  | int k =>
    simp only [Read.int, Bounds.check, Option.ite_none_right_eq_some, Bounds.holds,
      Bool.and_eq_true, decide_eq_true_eq] at h
    obtain ⟨holds, same⟩ := h
    cases same
    exact ⟨rfl, holds⟩
  | _ => cases h

theorem int {b : Bounds} (least : -9223372036854775808 ≤ b.least)
    (greatest : b.greatest ≤ 18446744073709551615) : Settles 0 (Read.int b) Write.int := by
  intro d i h
  obtain ⟨rfl, above, below⟩ := eq_of_readInt h
  exact ⟨h, nofun, Int.le_trans least above, Int.le_trans below greatest⟩

theorem nat {b : Bounds} (least : 0 ≤ b.least)
    (greatest : b.greatest ≤ 18446744073709551615) : Settles 0 (Read.nat b) Write.nat := by
  intro d n h
  obtain ⟨i, read, rfl⟩ := Option.map_eq_some_iff.1 h
  obtain ⟨rfl, above, below⟩ := eq_of_readInt read
  have same : ((i.toNat : Nat) : Int) = i := Int.toNat_of_nonneg (Int.le_trans least above)
  refine ⟨?_, nofun, ?_⟩
  · rw [Write.nat, same]
    exact h
  · rw [Write.nat, same]
    exact ⟨by omega, Int.le_trans below greatest⟩

theorem instant : Settles 0 Read.instant Write.instant := by
  intro d i h
  obtain ⟨text, -, read⟩ := Option.bind_eq_some_iff.1 h
  refine ⟨?_, nofun, trivial⟩
  simp only [Read.instant, Write.instant, Document.ofJson, Read.text, Option.bind_some]
  exact Rfc3339.read?_print (Rfc3339.named_of_read? read)

theorem mapM_ofItems {as : List α} (each : ∀ a ∈ as, read (.ofJson (write a)) = some a) :
    (Document.ofItems (as.map write)).mapM read = some as := by
  induction as with
  | nil => rfl
  | cons a as ih =>
    have rest := ih fun a ha => each a (List.mem_cons_of_mem _ ha)
    rw [List.map_cons, Document.ofItems, List.mapM_cons, each a List.mem_cons_self, rest]
    rfl

theorem list (item : Settles height read write) :
    Settles (height + 1) (Read.list read) (Write.list write) := by
  intro d as h
  cases d with
  | arr items =>
    have each : ∀ a ∈ as, Settled height read write a := by
      intro a ha
      obtain ⟨d, -, reads⟩ := exists_of_mapM h ha
      exact item _ _ reads
    refine ⟨mapM_ofItems fun a ha => (each a ha).again, nofun, Nat.succ_pos _, ?_⟩
    refine Json.legibleItems_iff.2 fun j hj => ?_
    obtain ⟨a, ha, rfl⟩ := List.mem_map.1 hj
    exact (each a ha).legible
  | _ => cases h

theorem mapM_ofFields (entries : List (String × String)) :
    (Document.ofFields (entries.map fun e => (e.1, Write.text e.2))).mapM
      (fun e => (Read.text e.2).map (e.1, ·)) = some entries := by
  induction entries with
  | nil => rfl
  | cons e entries ih =>
    rw [List.map_cons, Document.ofFields, List.mapM_cons, ih]
    rfl

theorem labels : Settles 1 Read.labels Write.labels := by
  intro d a _
  refine ⟨?_, nofun, Nat.succ_pos _, ?_⟩
  · have kept : Read.labels (.ofJson (Write.labels a)) = some (Dict.ofList a.entries) :=
      congrArg (Option.map Dict.ofList) (mapM_ofFields a.entries)
    rw [kept, Dict.ofList_entries]
  · refine Json.legibleFields_iff.2 fun e he => ?_
    obtain ⟨e, -, rfl⟩ := List.mem_map.1 he
    trivial

/-! ## Records of one field -/

theorem field (s : Settles height read write) (name : String) :
    Settles (height + 1) (fun d => do (← Read.record [name] d).required name read)
      (fun a => .object [(name, write a)]) := by
  intro d a h
  obtain ⟨fields, -, h⟩ := Option.bind_eq_some_iff.1 h
  have settled := s.required h
  refine ⟨?_, Json.object_ne_null _,
    Json.legible_object (Nat.succ_pos _) ⟨settled.legible, trivial⟩⟩
  exact Option.bind_eq_some_iff.2 ⟨_, Fields.record_object _ _, settled.required (by simp)⟩

theorem fieldOr {default : α} (s : Settles height read write) (name : String)
    (known : ∃ d, read d = some default) :
    Settles (height + 1) (fun d => do (← Read.record [name] d).defaulting name read default)
      (fun a => .object [(name, write a)]) := by
  intro d a h
  obtain ⟨fields, -, h⟩ := Option.bind_eq_some_iff.1 h
  have settled := s.defaulting known h
  refine ⟨?_, Json.object_ne_null _,
    Json.legible_object (Nat.succ_pos _) ⟨settled.legible, trivial⟩⟩
  exact Option.bind_eq_some_iff.2 ⟨_, Fields.record_object _ _, settled.defaulting (by simp)⟩

end Settles

end InfraOperator
