import InfraOperator.Proofs.Versions
import InfraOperator.Resource.Plan

/-!
# The latest of the entries

Some entry is the latest as soon as one has a version. It stays so when other entries are dropped,
since among those that remain none is greater and the later one still goes before its equals.
-/

set_option autoImplicit false

namespace InfraOperator

namespace Version

variable {α : Type} {entries : List (Version × α)} {best : Version × α}

theorem lastGreatest?_eq_none : lastGreatest? entries = none ↔ entries = [] := by
  cases entries with
  | nil => exact iff_of_true rfl rfl
  | cons entry rest =>
    refine iff_of_false ?_ (List.cons_ne_nil _ _)
    unfold lastGreatest?
    split
    · split <;> exact Option.some_ne_none _
    · exact Option.some_ne_none _

theorem lastGreatest?_cons_of_some {entry : Version × α}
    (h : lastGreatest? entries = some best) :
    lastGreatest? (entry :: entries) =
      if compare entry.1 best.1 = .gt then some entry else some best := by
  rw [lastGreatest?, h]

theorem mem_of_lastGreatest? (h : lastGreatest? entries = some best) : best ∈ entries := by
  induction entries generalizing best with
  | nil => cases h
  | cons entry rest ih =>
    cases later : lastGreatest? rest with
    | none =>
      rw [lastGreatest?, later] at h
      cases h
      exact List.mem_cons_self ..
    | some top =>
      rw [lastGreatest?_cons_of_some later] at h
      split at h
      · cases h
        exact List.mem_cons_self ..
      · cases h
        exact List.mem_cons_of_mem _ (ih later)

theorem not_gt_of_lastGreatest? (h : lastGreatest? entries = some best) :
    ∀ e ∈ entries, compare e.1 best.1 ≠ .gt := by
  induction entries generalizing best with
  | nil => cases h
  | cons entry rest ih =>
    cases later : lastGreatest? rest with
    | none =>
      rw [lastGreatest?, later] at h
      cases h
      obtain rfl := lastGreatest?_eq_none.1 later
      intro e mem
      rw [List.mem_singleton.1 mem, Std.ReflOrd.compare_self]
      exact nofun
    | some top =>
      rw [lastGreatest?_cons_of_some later] at h
      by_cases above : compare entry.1 top.1 = .gt
      · rw [if_pos above] at h
        cases h
        intro e mem
        rcases List.mem_cons.1 mem with rfl | mem
        · rw [Std.ReflOrd.compare_self]
          exact nofun
        · intro exceeds
          exact ih later e mem (Std.TransCmp.gt_trans exceeds above)
      · rw [if_neg above] at h
        cases h
        intro e mem
        rcases List.mem_cons.1 mem with rfl | mem
        · exact above
        · exact ih later e mem

/-- All entries behind it are lower. -/
theorem below_of_lastGreatest? (h : lastGreatest? entries = some best) :
    ∃ pre post, entries = pre ++ best :: post ∧ ∀ e ∈ post, compare e.1 best.1 = .lt := by
  induction entries generalizing best with
  | nil => cases h
  | cons entry rest ih =>
    cases later : lastGreatest? rest with
    | none =>
      rw [lastGreatest?, later] at h
      cases h
      exact ⟨[], rest, rfl, by simp [lastGreatest?_eq_none.1 later]⟩
    | some top =>
      rw [lastGreatest?_cons_of_some later] at h
      split at h
      · next above =>
        cases h
        refine ⟨[], rest, rfl, fun e he => ?_⟩
        have upper := Ordering.isLE_iff_ne_gt.2 (not_gt_of_lastGreatest? later e he)
        exact Std.TransCmp.lt_of_isLE_of_lt upper (Std.OrientedCmp.gt_iff_lt.1 above)
      · cases h
        obtain ⟨pre, post, parts, below⟩ := ih later
        exact ⟨entry :: pre, post, by rw [parts]; rfl, below⟩

theorem lastGreatest?_filter {kept : Version × α → Bool} (h : lastGreatest? entries = some best)
    (keeps : kept best = true) : lastGreatest? (entries.filter kept) = some best := by
  induction entries generalizing best with
  | nil => cases h
  | cons entry rest ih =>
    cases later : lastGreatest? rest with
    | none =>
      rw [lastGreatest?, later] at h
      cases h
      obtain rfl := lastGreatest?_eq_none.1 later
      rw [List.filter_cons_of_pos keeps]
      rfl
    | some top =>
      rw [lastGreatest?_cons_of_some later] at h
      by_cases above : compare entry.1 top.1 = .gt
      · rw [if_pos above] at h
        cases h
        rw [List.filter_cons_of_pos keeps]
        cases remains : lastGreatest? (rest.filter kept) with
        | none => rw [lastGreatest?, remains]
        | some next =>
          -- What remains of the rest is not greater than the greatest of it.
          have mem := (List.mem_filter.1 (mem_of_lastGreatest? remains)).1
          have upper := Ordering.isLE_iff_ne_gt.2 (not_gt_of_lastGreatest? later next mem)
          rw [lastGreatest?_cons_of_some remains, if_pos]
          rw [Std.OrientedCmp.gt_iff_lt] at above ⊢
          exact Std.TransCmp.lt_of_isLE_of_lt upper above
      · rw [if_neg above] at h
        cases h
        have remains := ih later keeps
        by_cases stays : kept entry = true
        · rw [List.filter_cons_of_pos stays, lastGreatest?_cons_of_some remains, if_neg above]
        · rw [List.filter_cons_of_neg stays, remains]

end Version

namespace PlanEntry

variable {entries : List PlanEntry} {entry : PlanEntry}

theorem latest?_isSome (listed : entry ∈ entries)
    (versioned : (Version.parse? entry.version).isSome = true) :
    (latest? entries).isSome = true := by
  obtain ⟨v, parsed⟩ := Option.isSome_iff_exists.1 versioned
  have mem : (v, entry) ∈ PlanEntry.versioned entries :=
    List.mem_filterMap.2 ⟨entry, listed, by rw [parsed]; rfl⟩
  cases found : Version.lastGreatest? (PlanEntry.versioned entries) with
  | none =>
    rw [Version.lastGreatest?_eq_none.1 found] at mem
    cases mem
  | some best =>
    rw [latest?, found]
    rfl

theorem versioned_filter (kept : PlanEntry → Bool) :
    versioned (entries.filter kept) = (versioned entries).filter fun e => kept e.2 := by
  induction entries with
  | nil => rfl
  | cons entry rest ih =>
    cases parsed : Version.parse? entry.version with
    | none =>
      have silent : ∀ more, versioned (entry :: more) = versioned more := by
        intro more
        simp [versioned, parsed]
      rw [silent, ← ih, List.filter_cons]
      split
      · exact silent _
      · rfl
    | some v =>
      have shown : ∀ more, versioned (entry :: more) = (v, entry) :: versioned more := by
        intro more
        simp [versioned, parsed]
      rw [shown, List.filter_cons, List.filter_cons]
      split
      · rw [shown, ih]
      · exact ih

/-- The latest entry stays the latest when others are dropped. -/
theorem latest?_filter_of_kept {kept : PlanEntry → Bool} (h : latest? entries = some entry)
    (keeps : kept entry = true) : latest? (entries.filter kept) = some entry := by
  obtain ⟨best, found, rfl⟩ := Option.map_eq_some_iff.1 h
  rw [latest?, versioned_filter, Version.lastGreatest?_filter found keeps]
  rfl

theorem latest?_filter_of_none {kept : PlanEntry → Bool} (h : latest? entries = none) :
    latest? (entries.filter kept) = none := by
  have empty := Version.lastGreatest?_eq_none.1 (Option.map_eq_none_iff.1 h)
  rw [latest?, versioned_filter, empty]
  rfl

/-! ## What the latest entry is -/

def version? (e : PlanEntry) : Option Version := Version.parse? e.version

def versions (entries : List PlanEntry) : List Version := entries.filterMap version?

def IsTop (entry : PlanEntry) (entries : List PlanEntry) : Prop :=
  ∃ v, entry.version? = some v ∧ Version.IsGreatest v (versions entries)

def IsLatest (entry : PlanEntry) (entries : List PlanEntry) : Prop :=
  IsTop entry entries ∧
    ∃ pre post, entries = pre ++ entry :: post ∧ ∀ e ∈ post, ¬ IsTop e entries

theorem mem_versions {v : Version} : v ∈ versions entries ↔ ∃ e ∈ entries, e.version? = some v :=
  List.mem_filterMap

theorem map_fst_versioned : (versioned entries).map Prod.fst = versions entries := by
  unfold versioned versions version?
  simp [List.map_filterMap, Function.comp_def]

theorem mem_versioned {v : Version} {e : PlanEntry} :
    (v, e) ∈ versioned entries ↔ e ∈ entries ∧ e.version? = some v := by
  unfold versioned
  rw [List.mem_filterMap]
  constructor
  · rintro ⟨e', mem, shown⟩
    obtain ⟨v', versioned, same⟩ := Option.map_eq_some_iff.1 shown
    cases same
    exact ⟨mem, versioned⟩
  · rintro ⟨mem, versioned⟩
    exact ⟨e, mem, by rw [← version?, versioned]; rfl⟩

theorem isTop_of_lastGreatest? {best : Version × PlanEntry}
    (h : Version.lastGreatest? (versioned entries) = some best) :
    best.2.version? = some best.1 ∧ Version.IsGreatest best.1 (versions entries) := by
  have mem := Version.mem_of_lastGreatest? h
  refine ⟨(mem_versioned.1 mem).2, ?_⟩
  rw [← map_fst_versioned]
  refine ⟨List.mem_map_of_mem mem, fun v hv => ?_⟩
  obtain ⟨e, he, rfl⟩ := List.mem_map.1 hv
  intro below
  exact Version.not_gt_of_lastGreatest? h e he (Std.OrientedCmp.gt_iff_lt.2 below)

theorem exists_of_versioned_eq {pre post : List (Version × PlanEntry)} {v : Version}
    (h : versioned entries = pre ++ (v, entry) :: post) :
    ∃ front back, entries = front ++ entry :: back ∧ versioned back = post := by
  obtain ⟨front, rest, rfl, -, shown⟩ := List.filterMap_eq_append_iff.1 h
  obtain ⟨silent, e, back, rfl, -, found, later⟩ := List.filterMap_eq_cons_iff.1 shown
  obtain ⟨_, -, same⟩ := Option.map_eq_some_iff.1 found
  cases same
  exact ⟨front ++ silent, back, by rw [List.append_assoc], later⟩

theorem isLatest_of_latest? (h : latest? entries = some entry) : IsLatest entry entries := by
  obtain ⟨⟨v, best⟩, found, rfl⟩ := Option.map_eq_some_iff.1 h
  obtain ⟨versioned, greatest⟩ := isTop_of_lastGreatest? found
  refine ⟨⟨v, versioned, greatest⟩, ?_⟩
  obtain ⟨pre, post, parts, below⟩ := Version.below_of_lastGreatest? found
  obtain ⟨front, back, split, rfl⟩ := exists_of_versioned_eq parts
  refine ⟨front, back, split, ?_⟩
  rintro e he ⟨u, named, upper⟩
  obtain rfl := upper.eq greatest
  have lower : compare u u = .lt := below (u, e) (mem_versioned.2 ⟨he, named⟩)
  rw [Std.ReflOrd.compare_self] at lower
  cases lower

theorem IsLatest.mem (h : IsLatest entry entries) : entry ∈ entries := by
  obtain ⟨-, pre, post, rfl, -⟩ := h
  exact List.mem_append_right _ (List.mem_cons_self ..)

theorem IsLatest.eq {entry' : PlanEntry} (h : IsLatest entry entries)
    (h' : IsLatest entry' entries) : entry = entry' := by
  obtain ⟨top, pre, post, parts, last⟩ := h
  obtain ⟨top', pre', post', parts', last'⟩ := h'
  -- Of two different places one is behind the other.
  rcases List.append_eq_append_iff.1 (parts.symm.trans parts') with
    ⟨between, -, same⟩ | ⟨between, -, same⟩
  · cases between with
    | nil => exact (List.cons.inj same).1
    | cons e between =>
      refine absurd top' (last entry' ?_)
      rw [(List.cons.inj same).2]
      exact List.mem_append_right _ (List.mem_cons_self ..)
  · cases between with
    | nil => exact (List.cons.inj same).1.symm
    | cons e between =>
      refine absurd top (last' entry ?_)
      rw [(List.cons.inj same).2]
      exact List.mem_append_right _ (List.mem_cons_self ..)

theorem latest?_isSome_iff :
    (latest? entries).isSome = true ↔ ∃ e ∈ entries, e.version?.isSome = true := by
  constructor
  · intro h
    obtain ⟨e, found⟩ := Option.isSome_iff_exists.1 h
    have latest := isLatest_of_latest? found
    obtain ⟨v, versioned, -⟩ := latest.1
    exact ⟨e, latest.mem, by rw [versioned]; rfl⟩
  · rintro ⟨e, listed, versioned⟩
    exact latest?_isSome listed versioned

theorem exists_latest? {v : Version} (listed : entry ∈ entries)
    (versioned : entry.version? = some v) : ∃ e, latest? entries = some e := by
  rw [← Option.isSome_iff_exists, latest?_isSome_iff]
  exact ⟨entry, listed, by rw [versioned]; rfl⟩

theorem latest?_eq_some_iff : latest? entries = some entry ↔ IsLatest entry entries := by
  refine ⟨isLatest_of_latest?, fun h => ?_⟩
  obtain ⟨v, versioned, -⟩ := h.1
  obtain ⟨found, is⟩ := exists_latest? h.mem versioned
  rw [is, (isLatest_of_latest? is).eq h]

/-- The version of the latest entry is the greatest of all. -/
theorem latestVersion?_eq_some_iff {v : Version} :
    (latest? entries).bind version? = some v ↔ Version.IsGreatest v (versions entries) := by
  constructor
  · intro h
    obtain ⟨e, found, versioned⟩ := Option.bind_eq_some_iff.1 h
    obtain ⟨⟨u, named, greatest⟩, -⟩ := isLatest_of_latest? found
    cases named.symm.trans versioned
    exact greatest
  · intro greatest
    obtain ⟨e, listed, versioned⟩ := mem_versions.1 greatest.mem
    obtain ⟨found, is⟩ := exists_latest? listed versioned
    obtain ⟨⟨u, named, upper⟩, -⟩ := isLatest_of_latest? is
    rw [is, Option.bind_some, named, upper.eq greatest]

/-- In another order the latest entry has the same version. -/
theorem latestVersion?_perm {entries' : List PlanEntry} (same : entries'.Perm entries) :
    (latest? entries').bind version? = (latest? entries).bind version? := by
  refine Option.ext fun v => ?_
  rw [latestVersion?_eq_some_iff, latestVersion?_eq_some_iff]
  have members : ∀ u, u ∈ versions entries' ↔ u ∈ versions entries := fun u =>
    (same.filterMap version?).mem_iff
  exact ⟨fun greatest => greatest.congr members, fun greatest => greatest.congr fun u =>
    (members u).symm⟩

end PlanEntry

end InfraOperator
