import InfraOperator.Version

/-!
# The order of versions

Versions are ordered totally: of two that differ in rank one is below the other, and what is below
something below a version is below that version. So among finitely many versions there is a greatest
one, and a version is exceeded exactly if it is below that one.
-/

set_option autoImplicit false

namespace InfraOperator

namespace Identifier

/-- Digits go by their value and their leading zeros. -/
abbrev compareNumeric : Nat × Nat → Nat × Nat → Ordering :=
  compareLex (compareOn Prod.fst) (compareOn Prod.snd)

instance : Std.OrientedCmp Identifier.compare where
  eq_swap {a b} := by
    cases a with
    | numeric value zeros =>
      cases b with
      | numeric value' zeros' =>
        exact @Std.OrientedCmp.eq_swap _ compareNumeric _ (value, zeros) (value', zeros')
      | text s => rfl
    | text s =>
      cases b with
      | numeric value zeros => rfl
      | text t => exact Std.OrientedOrd.eq_swap

instance : Std.TransCmp Identifier.compare where
  isLE_trans {a b c} hab hbc := by
    cases a with
    | numeric value zeros =>
      cases b with
      | numeric value' zeros' =>
        cases c with
        | numeric value'' zeros'' =>
          exact @Std.TransCmp.isLE_trans _ compareNumeric _ (value, zeros) (value', zeros')
            (value'', zeros'') hab hbc
        | text u => rfl
      | text t =>
        cases c with
        | numeric value zeros => cases hbc
        | text u => rfl
    | text s =>
      cases b with
      | numeric value zeros => cases hab
      | text t =>
        cases c with
        | numeric value zeros => cases hbc
        | text u => exact Std.TransOrd.isLE_trans hab hbc

theorem compareAll_eq (as bs : List Identifier) :
    compareAll as bs = List.compareLex Identifier.compare as bs := by
  induction as generalizing bs with
  | nil => cases bs <;> rfl
  | cons a as ih =>
    cases bs with
    | nil => rfl
    | cons b bs => rw [compareAll, ih, List.compareLex_cons_cons]

instance : Std.TransCmp compareAll := by
  have same : compareAll = List.compareLex Identifier.compare :=
    funext fun as => funext fun bs => compareAll_eq as bs
  rw [same]
  infer_instance

instance : Std.OrientedCmp comparePre where
  eq_swap {as bs} := by
    cases as with
    | nil => cases bs <;> rfl
    | cons a as =>
      cases bs with
      | nil => rfl
      | cons b bs => exact @Std.OrientedCmp.eq_swap _ compareAll _ (a :: as) (b :: bs)

instance : Std.TransCmp comparePre where
  isLE_trans {as bs cs} hab hbc := by
    cases as with
    | nil =>
      cases bs with
      | nil => exact hbc
      | cons b bs => cases hab
    | cons a as =>
      cases cs with
      | nil => rfl
      | cons c cs =>
        cases bs with
        | nil => cases hbc
        | cons b bs => exact @Std.TransCmp.isLE_trans _ compareAll _ _ _ _ hab hbc

instance : Std.LawfulEqCmp Identifier.compare where
  eq_of_compare {a b} h := by
    cases a with
    | numeric value zeros =>
      cases b with
      | numeric value' zeros' =>
        obtain ⟨values, counts⟩ := Ordering.then_eq_eq.1 h
        rw [Std.LawfulEqCmp.eq_of_compare values, Std.LawfulEqCmp.eq_of_compare counts]
      | text s => cases h
    | text s =>
      cases b with
      | numeric value zeros => cases h
      | text t =>
        have same : compare s t = .eq := h
        rw [Std.LawfulEqOrd.eq_of_compare same]

theorem eq_of_compareAll {as bs : List Identifier} (h : compareAll as bs = .eq) : as = bs := by
  rw [compareAll_eq] at h
  exact Std.LawfulEqCmp.eq_of_compare h

theorem eq_of_comparePre {as bs : List Identifier} (h : comparePre as bs = .eq) : as = bs := by
  cases as with
  | nil =>
    cases bs with
    | nil => rfl
    | cons b bs => cases h
  | cons a as =>
    cases bs with
    | nil => cases h
    | cons b bs => exact eq_of_compareAll h

end Identifier

theorem transCmp_on {α β : Type} {cmp : β → β → Ordering} [Std.TransCmp cmp] (f : α → β) :
    Std.TransCmp fun a b => cmp (f a) (f b) where
  eq_swap := Std.OrientedCmp.eq_swap
  isLE_trans hab hbc := Std.TransCmp.isLE_trans hab hbc

namespace Version

instance : Std.TransCmp Version.compare := by
  have pre : Std.TransCmp fun a b : Version => Identifier.comparePre a.pre b.pre :=
    transCmp_on Version.pre
  have build : Std.TransCmp fun a b : Version => Identifier.compareAll a.build b.build :=
    transCmp_on Version.build
  exact inferInstanceAs (Std.TransCmp (compareLex (compareOn major) (compareLex (compareOn minor)
    (compareLex (compareOn patch)
      (compareLex (fun a b : Version => Identifier.comparePre a.pre b.pre)
        fun a b : Version => Identifier.compareAll a.build b.build)))))

instance : Std.TransOrd Version := inferInstanceAs (Std.TransCmp Version.compare)

/-- Versions of the same rank are the same, their build identifiers included. -/
instance : Std.LawfulEqOrd Version where
  eq_of_compare {a b} h := by
    obtain ⟨majors, h⟩ := Ordering.then_eq_eq.1 h
    obtain ⟨minors, h⟩ := Ordering.then_eq_eq.1 h
    obtain ⟨patches, h⟩ := Ordering.then_eq_eq.1 h
    obtain ⟨pres, builds⟩ := Ordering.then_eq_eq.1 h
    cases a
    cases b
    cases Std.LawfulEqCmp.eq_of_compare majors
    cases Std.LawfulEqCmp.eq_of_compare minors
    cases Std.LawfulEqCmp.eq_of_compare patches
    cases Identifier.eq_of_comparePre pres
    cases Identifier.eq_of_compareAll builds
    rfl

structure IsGreatest (top : Version) (versions : List Version) : Prop where
  mem : top ∈ versions
  upper : ∀ v ∈ versions, compare top v ≠ .lt

theorem lt_of_lt_of_not_lt {a b c : Version} (h : compare a b = .lt) (h' : compare c b ≠ .lt) :
    compare a c = .lt := by
  apply Std.TransCmp.lt_of_lt_of_isLE h
  rw [Std.OrientedOrd.eq_swap (a := b)]
  cases order : compare c b with
  | lt => exact absurd order h'
  | eq => rfl
  | gt => rfl

theorem IsGreatest.eq {top top' : Version} {versions : List Version}
    (h : IsGreatest top versions) (h' : IsGreatest top' versions) : top = top' := by
  apply Std.LawfulEqOrd.eq_of_compare
  cases order : compare top top' with
  | lt => exact absurd order (h.upper top' h'.mem)
  | eq => rfl
  | gt => exact absurd (Std.OrientedCmp.gt_iff_lt.1 order) (h'.upper top h.mem)

/-- Which version is the greatest depends on nothing but the members. -/
theorem IsGreatest.congr {top : Version} {versions versions' : List Version}
    (h : IsGreatest top versions) (same : ∀ v, v ∈ versions ↔ v ∈ versions') :
    IsGreatest top versions' :=
  ⟨(same top).1 h.mem, fun v hv => h.upper v ((same v).2 hv)⟩

theorem exists_isGreatest {versions : List Version} (h : versions ≠ []) :
    ∃ top, IsGreatest top versions := by
  induction versions with
  | nil => exact absurd rfl h
  | cons v rest ih =>
    by_cases last : rest = []
    · subst last
      refine ⟨v, List.mem_cons_self .., fun u hu => ?_⟩
      rw [List.mem_singleton.1 hu, Std.ReflOrd.compare_self]
      exact nofun
    obtain ⟨top, mem, upper⟩ := ih last
    by_cases below : compare top v = .lt
    · refine ⟨v, List.mem_cons_self .., fun u hu => ?_⟩
      rcases List.mem_cons.1 hu with rfl | hu
      · rw [Std.ReflOrd.compare_self]
        exact nofun
      · intro above
        exact upper u hu (Std.TransCmp.lt_trans below above)
    · refine ⟨top, List.mem_cons_of_mem _ mem, fun u hu => ?_⟩
      rcases List.mem_cons.1 hu with rfl | hu
      · exact below
      · exact upper u hu

end Version

end InfraOperator
