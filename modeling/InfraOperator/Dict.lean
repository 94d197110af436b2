/-!
# Dictionaries with text keys

Entries are kept in ascending order of their keys, so two dictionaries with the same look-ups
are equal (`Dict.ext_get?`) and the order in which keys were put does not show.
-/

set_option autoImplicit false

namespace InfraOperator

def KeysAscend {α : Type} (entries : List (String × α)) : Prop :=
  entries.Pairwise fun a b => a.1 < b.1

instance {α : Type} (entries : List (String × α)) : Decidable (KeysAscend entries) :=
  inferInstanceAs (Decidable (List.Pairwise _ _))

def insertEntry {α : Type} (key : String) (value : α) :
    List (String × α) → List (String × α)
  | [] => [(key, value)]
  | (k, v) :: rest =>
    if key < k then (key, value) :: (k, v) :: rest
    else if key = k then (key, value) :: rest
    else (k, v) :: insertEntry key value rest

theorem mem_insertEntry {α : Type} {key : String} {value : α} {entries : List (String × α)}
    {e : String × α} (h : e ∈ insertEntry key value entries) : e = (key, value) ∨ e ∈ entries := by
  induction entries with
  | nil => simpa [insertEntry] using h
  | cons head rest ih =>
    obtain ⟨k, v⟩ := head
    simp only [insertEntry] at h
    split at h
    · simpa using h
    · split at h
      · rcases List.mem_cons.1 h with rfl | h
        · exact .inl rfl
        · exact .inr (List.mem_cons_of_mem _ h)
      · rcases List.mem_cons.1 h with rfl | h
        · exact .inr (List.mem_cons_self ..)
        · exact (ih h).imp_right (List.mem_cons_of_mem _)

theorem keysAscend_insertEntry {α : Type} (key : String) (value : α)
    {entries : List (String × α)} (h : KeysAscend entries) :
    KeysAscend (insertEntry key value entries) := by
  induction entries with
  | nil => simp [insertEntry, KeysAscend]
  | cons head rest ih =>
    obtain ⟨k, v⟩ := head
    obtain ⟨hk, hrest⟩ := List.pairwise_cons.1 h
    simp only [insertEntry]
    split
    · rename_i hlt
      refine List.pairwise_cons.2 ⟨fun e he => ?_, h⟩
      rcases List.mem_cons.1 he with rfl | he
      · exact hlt
      · exact String.lt_trans hlt (hk e he)
    · rename_i hlt
      split
      · rename_i heq
        subst heq
        exact List.pairwise_cons.2 ⟨hk, hrest⟩
      · rename_i hne
        refine List.pairwise_cons.2 ⟨fun e he => ?_, ih hrest⟩
        rcases mem_insertEntry he with rfl | he
        · exact String.not_le.1 fun hle => hne (String.le_antisymm hle (String.not_lt.1 hlt))
        · exact hk e he

structure Dict (α : Type) where
  entries : List (String × α)
  ascend : KeysAscend entries

namespace Dict

variable {α β : Type}

instance [DecidableEq α] : DecidableEq (Dict α) := fun a b =>
  if h : a.entries = b.entries then
    isTrue (by cases a; cases b; cases h; rfl)
  else
    isFalse fun e => h (by rw [e])

def empty : Dict α := ⟨[], List.Pairwise.nil⟩

instance : EmptyCollection (Dict α) := ⟨empty⟩
instance : Inhabited (Dict α) := ⟨empty⟩

def isEmpty (d : Dict α) : Bool := d.entries.isEmpty

def get? (d : Dict α) (key : String) : Option α := d.entries.lookup key

def contains (d : Dict α) (key : String) : Bool := (d.get? key).isSome

def insert (d : Dict α) (key : String) (value : α) : Dict α :=
  ⟨insertEntry key value d.entries, keysAscend_insertEntry key value d.ascend⟩

def erase (d : Dict α) (key : String) : Dict α :=
  ⟨d.entries.filter fun e => e.1 != key, d.ascend.filter _⟩

def filter (p : String → α → Bool) (d : Dict α) : Dict α :=
  ⟨d.entries.filter fun e => p e.1 e.2, d.ascend.filter _⟩

/-- Later entries win over earlier ones with the same key. -/
def ofList (entries : List (String × α)) : Dict α :=
  entries.foldl (fun d e => d.insert e.1 e.2) ∅

/-- All entries of both, those of `other` winning. -/
def merge (d other : Dict α) : Dict α :=
  other.entries.foldl (fun d e => d.insert e.1 e.2) d

theorem lookup_insertEntry (key k : String) (value : α) (entries : List (String × α)) :
    (insertEntry key value entries).lookup k =
      if k = key then some value else entries.lookup k := by
  induction entries with
  | nil =>
    by_cases h : k = key
    · simp [insertEntry, h]
    · have hb : (k == key) = false := by simpa using h
      simp [insertEntry, List.lookup_cons, h, hb]
  | cons head rest ih =>
    obtain ⟨k', v⟩ := head
    simp only [insertEntry]
    split
    · by_cases h : k = key
      · simp [h]
      · have : (k == key) = false := by simpa using h
        simp [List.lookup_cons, this, h]
    · rename_i hlt
      split
      · rename_i heq
        subst heq
        by_cases h : k = key
        · simp [h]
        · have : (k == key) = false := by simpa using h
          simp [List.lookup_cons, this, h]
      · rename_i hne
        by_cases h : k = k'
        · subst h
          have : k ≠ key := fun e => hne e.symm
          simp [this]
        · have hk : (k == k') = false := by simpa using h
          simp [List.lookup_cons, hk, ih]

theorem get?_insert (d : Dict α) (key k : String) (value : α) :
    (d.insert key value).get? k = if k = key then some value else d.get? k :=
  lookup_insertEntry key k value d.entries

theorem get?_empty (key : String) : (∅ : Dict α).get? key = none := rfl

theorem lookup_eq_none_of_lt {entries : List (String × α)} {key : String}
    (h : ∀ e ∈ entries, key < e.1) : entries.lookup key = none := by
  induction entries with
  | nil => rfl
  | cons head rest ih =>
    obtain ⟨k, v⟩ := head
    have hne : (key == k) = false := by
      have := h (k, v) (List.mem_cons_self ..)
      simpa using fun e => String.lt_irrefl _ (e ▸ this)
    simp [List.lookup_cons, hne, ih fun e he => h e (List.mem_cons_of_mem _ he)]

theorem lookup_filter_ne (entries : List (String × α)) (key k : String) :
    (entries.filter fun e => e.1 != key).lookup k =
      if k = key then none else entries.lookup k := by
  induction entries with
  | nil => simp
  | cons head rest ih =>
    obtain ⟨k', v⟩ := head
    by_cases hk : k' = key
    · subst hk
      by_cases h : k = k'
      · subst h
        simpa using ih
      · have hb : (k == k') = false := by simpa using h
        simp [List.lookup_cons, ih, h, hb]
    · have hb : (k' != key) = true := by simpa using hk
      by_cases h : k = k'
      · subst h
        simp [hb, hk]
      · have hc : (k == k') = false := by simpa using h
        simp [hb, List.lookup_cons, hc, ih]

theorem get?_erase (d : Dict α) (key k : String) :
    (d.erase key).get? k = if k = key then none else d.get? k :=
  lookup_filter_ne d.entries key k

/-- Entries that are put into a dictionary win over what is there, the last one of a key over those
before it. -/
theorem get?_foldl_insert (entries : List (String × α)) (d : Dict α) (key : String) :
    (entries.foldl (fun d e => d.insert e.1 e.2) d).get? key =
      (entries.reverse.lookup key).or (d.get? key) := by
  induction entries generalizing d with
  | nil => rfl
  | cons e rest ih =>
    rw [List.foldl_cons, ih, get?_insert, List.reverse_cons, List.lookup_append, Option.or_assoc,
      List.lookup_cons, List.lookup_nil]
    by_cases h : key = e.1
    · simp [h]
    · have hb : (key == e.1) = false := by simpa using h
      simp [h, hb]

theorem get?_ofList (entries : List (String × α)) (key : String) :
    (ofList entries).get? key = entries.reverse.lookup key := by
  rw [ofList, get?_foldl_insert, get?_empty, Option.or_none]

/-- Where each key is there once, no entry hides another. -/
theorem lookup_reverse {entries : List (String × α)} (ascend : KeysAscend entries)
    (key : String) : entries.reverse.lookup key = entries.lookup key := by
  induction entries with
  | nil => rfl
  | cons e rest ih =>
    obtain ⟨above, ascend⟩ := List.pairwise_cons.1 ascend
    rw [List.reverse_cons, List.lookup_append, ih ascend, List.lookup_cons, List.lookup_cons,
      List.lookup_nil]
    by_cases h : key = e.1
    · subst h
      rw [lookup_eq_none_of_lt above, Option.none_or]
    · have hb : (key == e.1) = false := by simpa using h
      rw [hb, Option.or_none]

theorem get?_merge (d e : Dict α) (key : String) :
    (d.merge e).get? key = (e.get? key).or (d.get? key) := by
  rw [merge, get?_foldl_insert, lookup_reverse e.ascend]
  rfl

theorem get?_filter (p : String → α → Bool) (d : Dict α) (key : String) :
    (d.filter p).get? key = (d.get? key).filter (p key) := by
  obtain ⟨entries, ascend⟩ := d
  change (entries.filter fun e => p e.1 e.2).lookup key = (entries.lookup key).filter (p key)
  induction entries with
  | nil => rfl
  | cons head rest ih =>
    obtain ⟨above, ascend⟩ := List.pairwise_cons.1 ascend
    rw [List.filter_cons, List.lookup_cons]
    by_cases same : key = head.1
    · subst same
      have absent : rest.lookup head.1 = none := lookup_eq_none_of_lt above
      rw [beq_self_eq_true]
      by_cases kept : p head.1 head.2 = true
      · rw [if_pos kept, List.lookup_cons, beq_self_eq_true]
        exact (Option.filter_some_pos kept).symm
      · rw [if_neg kept, ih ascend, absent]
        exact (Option.filter_some_neg (Bool.eq_false_iff.2 kept)).symm
    · have other : (key == head.1) = false := by simpa using same
      rw [other]
      split
      · rw [List.lookup_cons, other]
        exact ih ascend
      · exact ih ascend

theorem ext_get? {d e : Dict α} (h : ∀ key, d.get? key = e.get? key) : d = e := by
  obtain ⟨xs, hx⟩ := d
  obtain ⟨ys, hy⟩ := e
  suffices xs = ys by subst this; rfl
  simp only [get?] at h
  induction xs generalizing ys with
  | nil =>
    cases ys with
    | nil => rfl
    | cons y ys =>
      obtain ⟨ky, vy⟩ := y
      simpa using h ky
  | cons x xs ih =>
    obtain ⟨kx, vx⟩ := x
    cases ys with
    | nil => simpa using h kx
    | cons y ys =>
      obtain ⟨ky, vy⟩ := y
      obtain ⟨hxs, hx'⟩ := List.pairwise_cons.1 hx
      obtain ⟨hys, hy'⟩ := List.pairwise_cons.1 hy
      have hk : kx = ky := by
        apply Classical.byContradiction
        intro hne
        rcases String.le_total kx ky with hle | hle
        · have hlt : kx < ky := String.not_le.1 fun hge => hne (String.le_antisymm hle hge)
          have hn : ((ky, vy) :: ys).lookup kx = none := lookup_eq_none_of_lt fun e he => by
            rcases List.mem_cons.1 he with rfl | he
            · exact hlt
            · exact String.lt_trans hlt (hys e he)
          have := h kx
          rw [hn] at this
          simp at this
        · have hlt : ky < kx :=
            String.not_le.1 fun hge => hne (String.le_antisymm hge hle)
          have hn : ((kx, vx) :: xs).lookup ky = none := lookup_eq_none_of_lt fun e he => by
            rcases List.mem_cons.1 he with rfl | he
            · exact hlt
            · exact String.lt_trans hlt (hxs e he)
          have := h ky
          rw [hn] at this
          simp at this
      subst hk
      have hv : vx = vy := by simpa using h kx
      subst hv
      have htail : xs = ys := by
        refine ih hx' ys hy' fun key => ?_
        by_cases hkey : key = kx
        · subst hkey
          rw [lookup_eq_none_of_lt hxs, lookup_eq_none_of_lt hys]
        · have hb : (key == kx) = false := by simpa using hkey
          simpa [List.lookup_cons, hb] using h key
      rw [htail]

end Dict

end InfraOperator
