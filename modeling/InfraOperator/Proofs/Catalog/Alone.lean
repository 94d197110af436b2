import InfraOperator.Proofs.Catalog.Departure

/-!
# Cycles that run alone

While one cycle runs alone on the plans, it lists its own revision in its own plan or takes it off
there, and that is all. What it has listed is there in the end, and where it has come to release the
finalizer nothing is listed under the name of the revision any more.
-/

set_option autoImplicit false

namespace InfraOperator.Catalog

/-- The only asker is a cycle over the revision. -/
abbrev alone (settings : Settings) (r : Revision) (failures : Failures) : Unit → Round :=
  fun _ => ⟨settings, r, failures⟩

section Alone

variable {settings : Settings} {r : Revision} {failures : Failures} {past : List Plans}
  {first : Plans} {ms pre mid post : List (Moment Unit)} {m : Moment Unit} {name : String}
  {entry : PlanEntry}

theorem Interleaved.relists_alone (h : Interleaved (alone settings r failures) past first ms)
    (parts : ms = pre ++ m :: post) (name : String) :
    Relists r (entriesOf (stored first pre name)) (entriesOf (m.plans name)) ∧
      (name ≠ r.spec.planName → m.plans name = stored first pre name) := by
  obtain ⟨apart, relists⟩ := h.relists parts
  refine ⟨?_, apart name⟩
  by_cases home : name = r.spec.planName
  · rw [home]
    exact relists
  · rw [apart name home]
    exact .kept

theorem Interleaved.origin (h : Interleaved (alone settings r failures) past first ms)
    (listed : entry ∈ entriesOf (stored first ms name)) :
    entry ∈ entriesOf (first name) ∨ Joining r ∧ name = r.spec.planName ∧ entry = entryOf r := by
  have parted : ms = [] ++ ms ++ [] := (List.append_nil ms).symm
  refine stored_of_kept (fun plans => ∀ entry ∈ entriesOf (plans name),
    entry ∈ entriesOf (first name) ∨ Joining r ∧ name = r.spec.planName ∧ entry = entryOf r)
    parted (fun _ => .inl) ?_ entry listed
  intro before m after parts known entry listed
  obtain ⟨relists, apart⟩ := h.relists_alone parts name
  by_cases home : name = r.spec.planName
  · generalize entriesOf (m.plans name) = now at relists listed
    cases relists with
    | kept => exact known entry listed
    | joined joining =>
      rcases List.mem_append.1 listed with old | new
      · exact known entry (List.mem_filter.1 old).1
      · exact .inr ⟨joining, home, List.mem_singleton.1 new⟩
    | left => exact known entry (List.mem_filter.1 listed).1
  · rw [apart home] at listed
    exact known entry listed

/-- Entries of other revisions stay, and so does that of a live revision. -/
theorem Interleaved.stays_alone (h : Interleaved (alone settings r failures) past first ms)
    (parts : ms = pre ++ mid ++ post) (listed : entry ∈ entriesOf (stored first pre name))
    (safe : r.name ≠ entry.name ∨ r.metadata.isDeleting = false ∧ entry = entryOf r) :
    entry ∈ entriesOf (stored first (pre ++ mid) name) := by
  refine stored_of_kept (fun plans => entry ∈ entriesOf (plans name)) parts listed ?_
  intro before m after parts listed
  obtain ⟨relists, -⟩ := h.relists_alone parts name
  rcases safe with other | ⟨live, rfl⟩
  · exact relists.mem_of_ne listed other
  · generalize entriesOf (m.plans name) = now at relists ⊢
    cases relists with
    | kept => exact listed
    | joined joining unlisted => exact absurd listed unlisted
    | left leaving => cases live.symm.trans leaving.deleting

theorem Interleaved.nodup_alone (h : Interleaved (alone settings r failures) past first ms)
    (distinct : ((entriesOf (first name)).map PlanEntry.name).Nodup) :
    ((entriesOf (stored first ms name)).map PlanEntry.name).Nodup := by
  have parted : ms = [] ++ ms ++ [] := (List.append_nil ms).symm
  refine stored_of_kept (fun plans => ((entriesOf (plans name)).map PlanEntry.name).Nodup) parted
    distinct ?_
  intro before m after parts distinct
  obtain ⟨relists, -⟩ := h.relists_alone parts name
  generalize entriesOf (stored first before name) = was at relists distinct
  generalize entriesOf (m.plans name) = now at relists ⊢
  cases relists with
  | kept => exact distinct
  | joined => exact nodup_joined distinct
  | left => exact distinct.sublist (List.filter_sublist.map _)

/-- A cycle that has joined its plan leaves its revision listed there. -/
theorem Interleaved.listed_alone (h : Interleaved (alone settings r failures) past first ms)
    (live : r.metadata.isDeleting = false)
    (joined : Joined r.spec.planName (entryOf r) (aboutPlans (ownCalls () ms))) :
    entryOf r ∈ entriesOf (stored first ms r.spec.planName) := by
  obtain ⟨pre, m, post, parts, -, listed⟩ := h.exists_listed (i := ()) live joined
  have parted : ms = (pre ++ [m]) ++ post ++ [] := by simp [parts]
  have now : entryOf r ∈ entriesOf (stored first (pre ++ [m]) r.spec.planName) := by
    rw [stored_append]
    exact listed
  have ends := h.stays_alone parted now (.inr ⟨live, rfl⟩)
  rw [List.append_nil] at parted
  rwa [← parted] at ends

def AsksRelease (r : Revision) (calls : PlanCalls) : Prop :=
  ∃ call ∈ calls, call.request = releaseCall r

/-- Only a cycle over a revision that is being deleted asks for that, and then nothing is listed
under its name any more. -/
theorem Interleaved.off_alone (h : Interleaved (alone settings r failures) past first ms)
    (asks : AsksRelease r (ownCalls () ms)) :
    Leaving r ∧ ∀ entry ∈ entriesOf (stored first ms r.spec.planName), entry.name ≠ r.name := by
  obtain ⟨call, called, releases⟩ := asks
  obtain ⟨front, rest, own⟩ := List.append_of_mem called
  obtain ⟨pre, m, post, parts, -, calls, -, -⟩ := exists_moment own
  have asked := h.asks parts (calls ▸ List.mem_singleton_self _)
  obtain ⟨leaving, -, left⟩ := asked.ofFinalizer _ _ releases
  have parted : ms = pre ++ (m :: post) ++ [] := by simp [parts]
  refine ⟨leaving, ?_⟩
  rw [parts]
  refine stored_of_kept (fun plans => ∀ entry ∈ entriesOf (plans r.spec.planName),
    entry.name ≠ r.name) parted ?_ ?_
  · cases there : first r.spec.planName with
    | none =>
      intro entry listed
      rcases (h.upTo parts).origin listed with old | ⟨joining, -⟩
      · rw [there] at old
        cases old
      · cases joining.live.symm.trans leaving.deleting
    | some before =>
      have departing : Departing (alone settings r failures) r.name r.spec.planName :=
        ⟨fun _ => leaving.deleting, fun _ => rfl, fun _ => rfl⟩
      obtain ⟨plan, now, off, -⟩ := (h.upTo parts).left_plan departing there left
      intro entry listed
      rw [now] at listed
      have kept : entry ∈ others r.name before.revisions := off ▸ listed
      exact of_decide_eq_true (List.mem_filter.1 kept).2
  · intro before m after parts off
    obtain ⟨relists, -⟩ := h.relists_alone parts r.spec.planName
    generalize entriesOf (m.plans r.spec.planName) = now at relists ⊢
    cases relists with
    | kept => exact off
    | joined joining => cases joining.live.symm.trans leaving.deleting
    | left => exact fun entry listed => off entry (List.mem_filter.1 listed).1

end Alone

end InfraOperator.Catalog
