import InfraOperator.Proofs.Filters
import InfraOperator.Proofs.Numerals

/-!
# The newest unit

A filter accepts a unit that satisfies every demand made of it (`UnitFilter.Satisfies`); a label
that is missing or stands for nothing satisfies none. Of the units that are accepted the latest is
the first of the newest: those in front of it are older, and none behind it is newer
(`IsFirstNewest`). Where units created at the same time are the same this does not depend on the
order in which they are listed.
-/

set_option autoImplicit false

namespace InfraOperator

/-! ## Numbers in labels -/

namespace Text

inductive Signed : List Char → Nat → Int → Prop
  | bare (n : Nat) : Signed [] n n
  | plus (n : Nat) : Signed ['+'] n n
  | minus (n : Nat) : Signed ['-'] n (-n)

/-- The text is at least one digit behind a sign or none, and the number is within the bounds. -/
structure Denotes (b : Bounds) (text : String) (i : Int) : Prop where
  written : ∃ sign digits, text.toList = sign ++ digits ∧ digits ≠ [] ∧
    (∀ c ∈ digits, c.isDigit = true) ∧ Signed sign (digitsValue digits) i
  least_le : b.least ≤ i
  le_greatest : i ≤ b.greatest

theorem readDigits?_eq_some_iff {cs : List Char} {n : Nat} :
    readDigits? cs = some n ↔ cs ≠ [] ∧ (∀ c ∈ cs, c.isDigit = true) ∧ digitsValue cs = n := by
  simp [readDigits?, List.isEmpty_iff]

theorem check_eq_some_iff {b : Bounds} {i j : Int} :
    b.check i = some j ↔ i = j ∧ b.least ≤ j ∧ j ≤ b.greatest := by
  simp only [Bounds.check, Bounds.holds, Bool.and_eq_true, decide_eq_true_eq,
    Option.ite_none_right_eq_some, Option.some.injEq]
  constructor
  · rintro ⟨held, rfl⟩
    exact ⟨rfl, held⟩
  · rintro ⟨rfl, held⟩
    exact ⟨held, rfl⟩

theorem denotes_of_digits {b : Bounds} {text : String} {digits : List Char} {i : Int}
    (sign : List Char) (f : Nat → Int) (parts : text.toList = sign ++ digits)
    (signed : ∀ n, Signed sign n (f n))
    (h : ((readDigits? digits).bind fun n => b.check (f n)) = some i) : Denotes b text i := by
  obtain ⟨n, read, checked⟩ := Option.bind_eq_some_iff.1 h
  obtain ⟨nonempty, all_digits, rfl⟩ := readDigits?_eq_some_iff.1 read
  obtain ⟨rfl, least_le, le_greatest⟩ := check_eq_some_iff.1 checked
  exact ⟨⟨sign, digits, parts, nonempty, all_digits, signed _⟩, least_le, le_greatest⟩

theorem readInt?_eq_some_iff {b : Bounds} {text : String} {i : Int} :
    readInt? b text = some i ↔ Denotes b text i := by
  constructor
  · intro h
    unfold readInt? at h
    split at h
    · next parts => exact denotes_of_digits ['-'] (fun n => -n) parts .minus h
    · next parts => exact denotes_of_digits ['+'] (fun n => n) parts .plus h
    · exact denotes_of_digits [] (fun n => n) rfl .bare h
  · rintro ⟨⟨sign, digits, parts, nonempty, all_digits, signed⟩, least_le, le_greatest⟩
    have read : readDigits? digits = some (digitsValue digits) :=
      readDigits?_eq_some_iff.2 ⟨nonempty, all_digits, rfl⟩
    have checked : b.check i = some i := check_eq_some_iff.2 ⟨rfl, least_le, le_greatest⟩
    cases signed with
    | bare =>
      cases digits with
      | nil => exact absurd rfl nonempty
      | cons c cs =>
        rw [readInt?_of_digit parts (all_digits c (List.mem_cons_self ..)), read]
        exact checked
    | plus =>
      unfold readInt?
      rw [parts]
      show ((readDigits? digits).bind fun n => b.check n) = _
      rw [read]
      exact checked
    | minus =>
      unfold readInt?
      rw [parts]
      show ((readDigits? digits).bind fun n => b.check (-n)) = _
      rw [read]
      exact checked

end Text

/-! ## Demands -/

def Job.Tells (job : Job) (key : String) (i : Int) : Prop :=
  ∃ text, job.metadata.label? key = some text ∧ Text.Denotes .int64 text i

theorem Job.readLabel_eq_some_iff {job : Job} {key : String} {i : Int} :
    job.readLabel key = some i ↔ job.Tells key i := by
  simp [readLabel, Tells, Option.bind_eq_some_iff, Text.readInt?_eq_some_iff]

theorem Stage.ofText?_eq_some_iff {text : String} {stage : Stage} :
    ofText? text = some stage ↔ text = stage.text := by
  constructor
  · intro h
    unfold ofText? at h
    split at h <;> cases h <;> rfl
  · rintro rfl
    exact ofText?_text stage

namespace UnitFilter

structure Satisfies (f : UnitFilter) (job : Job) : Prop where
  stage : ∀ stage, f.stage = some stage → job.metadata.label? Label.stage = some stage.text
  generation : ∀ n, f.generation = some n → job.Tells Label.generation n
  ownerUid : ∀ uid, f.ownerUid = some uid → job.metadata.label? Label.ownerUid = some uid
  namespaceName : ∀ ns, f.namespaceName = some ns → job.metadata.namespaceName = some ns
  name : ∀ name, f.name = some name → job.metadata.name = some name
  retry : ∀ second, f.retry = some second → job.Tells Label.retry second

theorem meets_iff {α : Type} [DecidableEq α] {found demand : Option α} :
    meets found demand = true ↔ ∀ a, demand = some a → found = some a := by
  cases demand <;> simp [meets]

theorem accepts_iff {f : UnitFilter} {job : Job} : f.accepts job = true ↔ f.Satisfies job := by
  have stage (s : Stage) :
      job.stage? = some s ↔ job.metadata.label? Label.stage = some s.text := by
    simp [Job.stage?, Option.bind_eq_some_iff, Stage.ofText?_eq_some_iff]
  simp only [accepts, Bool.and_eq_true, meets_iff, stage, Job.generation?, Job.retry?,
    Job.readLabel_eq_some_iff, Job.ownerUid?]
  constructor
  · rintro ⟨⟨⟨⟨⟨h₁, h₂⟩, h₃⟩, h₄⟩, h₅⟩, h₆⟩
    exact ⟨h₁, h₂, h₃, h₄, h₅, h₆⟩
  · rintro ⟨h₁, h₂, h₃, h₄, h₅, h₆⟩
    exact ⟨⟨⟨⟨⟨h₁, h₂⟩, h₃⟩, h₄⟩, h₅⟩, h₆⟩

instance (f : UnitFilter) : DecidablePred f.Satisfies := fun _ => decidable_of_iff _ accepts_iff

theorem select_eq (f : UnitFilter) (units : List Job) :
    f.select units = units.filter fun job => f.Satisfies job := by
  refine List.filter_congr fun job _ => ?_
  rw [Bool.eq_iff_iff, decide_eq_true_eq]
  exact accepts_iff

theorem list?_eq_some_iff {f : UnitFilter} {units jobs : List Job} :
    f.list? units = some jobs ↔ jobs ≠ [] ∧ f.select units = jobs := by
  simp only [list?, List.isEmpty_iff, Option.ite_none_left_eq_some, Option.some.injEq]
  constructor
  · rintro ⟨nonempty, rfl⟩
    exact ⟨nonempty, rfl⟩
  · rintro ⟨nonempty, rfl⟩
    exact ⟨nonempty, rfl⟩

end UnitFilter

/-! ## Times of creation -/

/-- One time is before another. No time is before every time. -/
inductive Before : Option Instant → Option Instant → Prop
  | missing (b : Instant) : Before none (some b)
  | earlier {a b : Instant} (h : ¬ b ≤ a) : Before (some a) (some b)

theorem notNewer_iff {a b : Option Instant} : notNewer a b = true ↔ ¬ Before b a := by
  cases a with
  | none => exact iff_of_true rfl nofun
  | some a =>
    cases b with
    | none => exact iff_of_false nofun fun h => h (.missing a)
    | some b =>
      rw [notNewer, decide_eq_true_eq]
      constructor
      · rintro le (_ | later)
        exact later le
      · intro h
        by_cases le : a ≤ b
        · exact le
        · exact absurd (.earlier le) h

instance (a b : Option Instant) : Decidable (Before a b) :=
  decidable_of_iff (notNewer b a = false) (by
    rw [← Bool.not_eq_true, notNewer_iff, Classical.not_not])

namespace Before

variable {a b c : Option Instant}

theorem not_le {a b : Instant} : Before (some a) (some b) ↔ ¬ b ≤ a :=
  ⟨fun | .earlier h => h, .earlier⟩

/-- What is not after a time that is before another is before that other, too. -/
theorem of_not_before (hab : ¬ Before b a) (hbc : Before b c) : Before a c := by
  cases hbc with
  | missing c =>
    cases a with
    | none => exact .missing c
    | some a => exact absurd (.missing a) hab
  | @earlier b c h =>
    cases a with
    | none => exact .missing c
    | some a =>
      rw [not_le, Decidable.not_not] at hab
      exact .earlier fun le => h (Instant.le_trans le hab)

theorem irrefl : ¬ Before a a := by
  rintro (_ | later)
  exact later (Instant.le_refl _)

theorem trans (hab : Before a b) (hbc : Before b c) : Before a c := by
  refine of_not_before (fun hba => ?_) hbc
  cases hab with
  | missing b => cases hba
  | earlier h =>
    rw [not_le] at hba
    rcases Instant.le_total _ _ with le | le
    · exact h le
    · exact hba le

theorem eq_of_not_before (hab : ¬ Before a b) (hba : ¬ Before b a) : a = b := by
  cases a with
  | none =>
    cases b with
    | none => rfl
    | some b => exact absurd (.missing b) hab
  | some a =>
    cases b with
    | none => exact absurd (.missing a) hba
    | some b =>
      rw [not_le, Decidable.not_not] at hab hba
      rw [Instant.le_antisymm hba hab]

end Before

/-! ## The first of the newest -/

namespace UnitFilter

/-- All in front of the unit are older, and none behind it is newer. -/
def IsFirstNewest (jobs : List Job) (unit : Job) : Prop :=
  ∃ before after, jobs = before ++ unit :: after ∧
    (∀ job ∈ before, Before job.createdAt? unit.createdAt?) ∧
    ∀ job ∈ after, ¬ Before unit.createdAt? job.createdAt?

variable {f : UnitFilter} {jobs units : List Job} {unit unit' : Job}

theorem IsFirstNewest.mem (h : IsFirstNewest jobs unit) : unit ∈ jobs := by
  obtain ⟨before, after, rfl, -, -⟩ := h
  simp

theorem IsFirstNewest.not_before (h : IsFirstNewest jobs unit) {job : Job} (listed : job ∈ jobs) :
    ¬ Before unit.createdAt? job.createdAt? := by
  obtain ⟨before, after, rfl, older, notNewer⟩ := h
  rcases List.mem_append.1 listed with h | h
  · intro newer
    exact Before.irrefl (newer.trans (older job h))
  · rcases List.mem_cons.1 h with rfl | h
    · exact Before.irrefl
    · exact notNewer job h

theorem newer_some (best job : Job) :
    newer (some best) job =
      some (if Before best.createdAt? job.createdAt? then job else best) := by
  simp only [newer, notNewer_iff]
  by_cases later : Before best.createdAt? job.createdAt? <;> simp [later]

/-- With one more unit the first of the newest is that one if it is newer. -/
theorem IsFirstNewest.concat (h : IsFirstNewest jobs unit) (job : Job) :
    IsFirstNewest (jobs ++ [job])
      (if Before unit.createdAt? job.createdAt? then job else unit) := by
  by_cases later : Before unit.createdAt? job.createdAt?
  · rw [if_pos later]
    refine ⟨jobs, [], rfl, fun earlier listed => ?_, List.forall_mem_nil _⟩
    exact .of_not_before (h.not_before listed) later
  · rw [if_neg later]
    obtain ⟨before, after, rfl, older, notNewer⟩ := h
    refine ⟨before, after ++ [job], by simp, older, fun next listed => ?_⟩
    rcases List.mem_append.1 listed with listed | listed
    · exact notNewer next listed
    · rw [List.eq_of_mem_singleton listed]
      exact later

theorem IsFirstNewest.foldl (h : IsFirstNewest jobs unit') (rest : List Job) :
    rest.foldl newer (some unit') = some unit → IsFirstNewest (jobs ++ rest) unit := by
  induction rest generalizing jobs unit' with
  | nil =>
    intro kept
    rw [List.foldl_nil, Option.some.injEq] at kept
    rwa [List.append_nil, ← kept]
  | cons job rest ih =>
    rw [List.foldl_cons, newer_some, List.append_cons]
    exact ih (h.concat job)

theorem isFirstNewest_singleton (unit : Job) : IsFirstNewest [unit] unit :=
  ⟨[], [], rfl, List.forall_mem_nil _, List.forall_mem_nil _⟩

theorem latest?_isFirstNewest (h : f.latest? units = some unit) :
    IsFirstNewest (f.select units) unit := by
  unfold latest? at h
  cases selected : f.select units with
  | nil => simp [selected] at h
  | cons first rest =>
    rw [selected, List.foldl_cons] at h
    exact (isFirstNewest_singleton first).foldl rest h

theorem latest?_isSome_iff : (f.latest? units).isSome ↔ f.select units ≠ [] := by
  cases found : f.latest? units with
  | none => simpa using (foldl_newer_eq_none found).2
  | some unit =>
    exact iff_of_true rfl (List.ne_nil_of_mem (latest?_isFirstNewest found).mem)

/-- Of two different places one is in front of the other, and its unit would have to be older and
not older. -/
theorem IsFirstNewest.eq (h : IsFirstNewest jobs unit) (h' : IsFirstNewest jobs unit') :
    unit = unit' := by
  obtain ⟨before, after, rfl, older, notNewer⟩ := h
  obtain ⟨before', after', parts, older', notNewer'⟩ := h'
  rcases List.append_eq_append_iff.1 parts with ⟨middle, rfl, ends⟩ | ⟨middle, rfl, ends⟩
  · cases middle with
    | nil => exact (List.cons.inj ends).1
    | cons first middle =>
      obtain ⟨rfl, rfl⟩ := List.cons.inj ends
      exact absurd (older' unit (by simp)) (notNewer unit' (by simp))
  · cases middle with
    | nil => exact (List.cons.inj ends).1.symm
    | cons first middle =>
      obtain ⟨rfl, rfl⟩ := List.cons.inj ends
      exact absurd (older unit' (by simp)) (notNewer' unit (by simp))

theorem latest?_eq_some_iff :
    f.latest? units = some unit ↔ IsFirstNewest (f.select units) unit := by
  constructor
  · exact latest?_isFirstNewest
  · intro h
    obtain ⟨found, eq⟩ := Option.isSome_iff_exists.1
      (latest?_isSome_iff.2 (List.ne_nil_of_mem h.mem))
    rw [eq, h.eq (latest?_isFirstNewest eq)]

/-- Where units created at the same time are one or older than another, the order in which they
are listed does not matter. -/
theorem latest?_perm {units' : List Job} (same : units'.Perm units)
    (apart : ∀ a ∈ f.select units, ∀ b ∈ f.select units, a.createdAt? = b.createdAt? →
      a = b ∨ ∃ c ∈ f.select units, Before a.createdAt? c.createdAt?) :
    f.latest? units' = f.latest? units := by
  have selected : (f.select units').Perm (f.select units) := same.filter _
  cases found : f.latest? units with
  | none =>
    rw [(foldl_newer_eq_none found).2] at selected
    rw [latest?, selected.eq_nil, List.foldl_nil]
  | some unit =>
    have newest := latest?_isFirstNewest found
    obtain ⟨unit', eq⟩ : ∃ unit', f.latest? units' = some unit' := by
      rw [← Option.isSome_iff_exists, latest?_isSome_iff]
      exact List.ne_nil_of_mem (selected.mem_iff.2 newest.mem)
    have newest' := latest?_isFirstNewest eq
    have mem' : unit' ∈ f.select units := selected.mem_iff.1 newest'.mem
    have time : unit'.createdAt? = unit.createdAt? := Before.eq_of_not_before
      (newest'.not_before (selected.mem_iff.2 newest.mem)) (newest.not_before mem')
    rcases apart unit' mem' unit newest.mem time with rfl | ⟨job, listed, newer⟩
    · exact eq
    · exact absurd newer (newest'.not_before (selected.mem_iff.2 listed))

/-- The listing is what satisfies the filter, as it was ordered, and fails where that is nothing;
the latest unit is there just where the listing is, and is the first of the newest in it. Where
units created at the same time are one or older than another, any order gives the same unit. -/
theorem selection_exact (f : UnitFilter) (units : List Job) :
    ((f.latest? units).isSome ↔ (f.list? units).isSome) ∧
    (∀ jobs, f.list? units = some jobs ↔
      jobs ≠ [] ∧ jobs = units.filter fun job => f.Satisfies job) ∧
    (∀ unit, f.latest? units = some unit ↔
      ∃ jobs, f.list? units = some jobs ∧ IsFirstNewest jobs unit) ∧
    ∀ units', units'.Perm units →
      (∀ a ∈ units, f.Satisfies a → ∀ b ∈ units, f.Satisfies b →
        a.createdAt? = b.createdAt? →
          a = b ∨ ∃ c ∈ units, f.Satisfies c ∧ Before a.createdAt? c.createdAt?) →
      f.latest? units' = f.latest? units := by
  have mem_select {job : Job} : job ∈ f.select units ↔ job ∈ units ∧ f.Satisfies job := by
    simp [select_eq]
  refine ⟨?_, fun jobs => ?_, fun unit => ?_, fun units' same apart => ?_⟩
  · rw [latest?_isSome_iff, Option.isSome_iff_exists]
    simp [list?_eq_some_iff]
  · rw [list?_eq_some_iff, ← select_eq]
    exact and_congr_right fun _ => eq_comm
  · rw [latest?_eq_some_iff]
    simp only [list?_eq_some_iff]
    constructor
    · intro newest
      exact ⟨_, ⟨List.ne_nil_of_mem newest.mem, rfl⟩, newest⟩
    · rintro ⟨_, ⟨-, rfl⟩, newest⟩
      exact newest
  · refine latest?_perm same fun a listed b listed' time => ?_
    rw [mem_select] at listed listed'
    rcases apart a listed.1 listed.2 b listed'.1 listed'.2 time with rfl | ⟨c, there, fits, newer⟩
    · exact .inl rfl
    · exact .inr ⟨c, mem_select.2 ⟨there, fits⟩, newer⟩

def unitFor (name : String) (retry : String) (createdAt : Option Int) : Job :=
  { metadata :=
      { name := some name
        labels := some (.ofList [(Label.stage, "apply"), (Label.generation, "+3"),
          (Label.retry, retry)])
        creationTimestamp := createdAt.map Instant.ofSeconds } }

/-- Two of the units have no time, one of those with a time answers no wish that reads. -/
theorem selection_exact_reordered :
    let filter : UnitFilter := { stage := some .apply, generation := some 3, retry := some 60 }
    let old := unitFor "old" "60" (some 70)
    let new := unitFor "new" "060" (some 80)
    let odd := unitFor "odd" "one minute" (some 90)
    let bare := unitFor "bare" "60" none
    let other := unitFor "other" "60" none
    filter.list? [new, bare, odd, old, other] = some [new, bare, old, other] ∧
      filter.latest? [bare, other, old, odd, new] =
        filter.latest? [new, bare, odd, old, other] ∧
      filter.latest? [new, bare, odd, old, other] = some new :=
  ⟨by decide +kernel,
   (selection_exact _ _).2.2.2 _ (by decide +kernel) (by decide +kernel),
   by decide +kernel⟩

end UnitFilter

end InfraOperator
