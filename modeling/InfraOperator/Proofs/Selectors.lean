import InfraOperator.Api.Revisions
import Mathlib.Data.String.Basic

/-!
# Selectors of labels

A selector is a list of requirements, each of which names a label and the value it has to have.
Label values are such that nothing in them separates requirements, so a selector that is made of
them is read as what it was made of.
-/

set_option autoImplicit false

namespace InfraOperator

/-! ## Parts of a text -/

namespace Version

variable {sep : Char} {cs rest : List Char}

theorem splitAt_ne_nil : splitAt sep cs ≠ [] := by
  cases cs with
  | nil => exact List.cons_ne_nil _ _
  | cons c cs =>
    rw [splitAt]
    split
    · split <;> exact List.cons_ne_nil _ _
    · exact List.cons_ne_nil _ _

theorem splitAt_of_not_mem (h : sep ∉ cs) : splitAt sep cs = [cs] := by
  induction cs with
  | nil => rfl
  | cons c cs ih =>
    obtain ⟨other, later⟩ := not_or.1 (mt List.mem_cons.2 h)
    rw [splitAt, ih later]
    exact if_neg fun same => other same.symm

theorem splitAt_append (h : sep ∉ cs) :
    splitAt sep (cs ++ sep :: rest) = cs :: splitAt sep rest := by
  induction cs with
  | nil =>
    rw [List.nil_append, splitAt]
    split
    · next parted => rw [if_pos rfl, parted]
    · next empty => exact absurd empty splitAt_ne_nil
  | cons c cs ih =>
    obtain ⟨other, later⟩ := not_or.1 (mt List.mem_cons.2 h)
    rw [List.cons_append, splitAt, ih later]
    exact if_neg fun same => other same.symm

theorem cut_append (h : sep ∉ cs) : cut sep (cs ++ sep :: rest) = (cs, some rest) := by
  have before : ∀ c ∈ cs, decide (c ≠ sep) = true := by
    intro c hc
    exact decide_eq_true (ne_of_mem_of_not_mem hc h)
  have stops : decide (sep ≠ sep) = false := by simp
  unfold cut
  rw [List.dropWhile_append_of_pos before, List.takeWhile_append_of_pos before,
    List.dropWhile_cons, List.takeWhile_cons, stops]
  simp

end Version

/-! ## Label values -/

namespace Api

def IsLetterOrDigit (c : Char) : Prop :=
  ('a' ≤ c ∧ c ≤ 'z') ∨ ('A' ≤ c ∧ c ≤ 'Z') ∨ ('0' ≤ c ∧ c ≤ '9')

structure LabelValue (text : String) : Prop where
  nonempty : text ≠ ""
  short : text.utf8ByteSize ≤ 63
  chars : ∀ c ∈ text.toList, IsLetterOrDigit c ∨ c = '-' ∨ c = '_' ∨ c = '.'
  first : ∀ c, text.toList.head? = some c → IsLetterOrDigit c
  last : ∀ c, text.toList.getLast? = some c → IsLetterOrDigit c

theorem isAlphanum_iff {c : Char} : c.isAlphanum = true ↔ IsLetterOrDigit c := by
  show ((decide ('A' ≤ c ∧ c ≤ 'Z') || (decide ('a' ≤ c) && decide (c ≤ 'z'))) ||
    (decide ('0' ≤ c) && decide (c ≤ '9'))) = true ↔ _
  simp only [Bool.or_eq_true, Bool.and_eq_true, decide_eq_true_eq]
  constructor
  · rintro ((upper | lower) | digit)
    · exact .inr (.inl upper)
    · exact .inl lower
    · exact .inr (.inr digit)
  · rintro (lower | upper | digit)
    · exact .inl (.inr lower)
    · exact .inl (.inl upper)
    · exact .inr digit

theorem isLabelChar_iff {c : Char} :
    isLabelChar c = true ↔ IsLetterOrDigit c ∨ c = '-' ∨ c = '_' ∨ c = '.' := by
  simp [isLabelChar, isAlphanum_iff, or_assoc]

theorem IsLetterOrDigit.le {c : Char} (h : IsLetterOrDigit c) : c ≤ 'z' := by
  rcases h with ⟨-, le⟩ | ⟨-, le⟩ | ⟨-, le⟩
  · exact le
  · exact Char.le_trans le (by decide)
  · exact Char.le_trans le (by decide)

theorem le_of_isLabelChar {c : Char} (h : isLabelChar c = true) : c ≤ 'z' := by
  rcases isLabelChar_iff.1 h with alphanumeric | rfl | rfl | rfl
  · exact alphanumeric.le
  all_goals decide

theorem utf8ByteSize_eq_length {text : String} (ascii : ∀ c ∈ text.toList, c ≤ 'z') :
    text.utf8ByteSize = text.toList.length := by
  rw [← String.ofList_toList (s := text), String.utf8ByteSize_ofList, String.toList_ofList]
  generalize text.toList = cs at ascii
  induction cs with
  | nil => rfl
  | cons c cs ih =>
    obtain ⟨low, later⟩ := List.forall_mem_cons.1 ascii
    have one : c.utf8Size = 1 := Char.utf8Size_eq_one_iff.2 (UInt32.le_trans low (by decide))
    rw [String.utf8Len_cons, ih later, one, List.length_cons]

theorem isLabelValue_iff {text : String} : isLabelValue text = true ↔ LabelValue text := by
  unfold isLabelValue
  simp only [Bool.and_eq_true, Bool.not_eq_true', List.isEmpty_eq_false_iff, decide_eq_true_eq,
    Option.any_eq_true, List.all_eq_true, isAlphanum_iff]
  constructor
  · rintro ⟨⟨⟨⟨some_text, short⟩, c, first, starts⟩, d, last, ends⟩, chars⟩
    refine ⟨?_, ?_, fun c hc => isLabelChar_iff.1 (chars c hc), ?_, ?_⟩
    · rintro rfl
      exact some_text rfl
    · rwa [utf8ByteSize_eq_length fun c hc => le_of_isLabelChar (chars c hc)]
    · intro c' first'
      cases first.symm.trans first'
      exact starts
    · intro d' last'
      cases last.symm.trans last'
      exact ends
  · intro h
    have some_text : text.toList ≠ [] := mt String.toList_eq_nil_iff.1 h.nonempty
    have chars : ∀ c ∈ text.toList, isLabelChar c = true := fun c hc =>
      isLabelChar_iff.2 (h.chars c hc)
    refine ⟨⟨⟨⟨some_text, ?_⟩, ?_⟩, ?_⟩, chars⟩
    · rw [← utf8ByteSize_eq_length fun c hc => le_of_isLabelChar (chars c hc)]
      exact h.short
    · have first := List.head?_eq_some_head some_text
      exact ⟨_, first, h.first _ first⟩
    · have last := List.getLast?_eq_some_getLast some_text
      exact ⟨_, last, h.last _ last⟩

/-! ## Requirements -/

abbrev Requirement := String × String

def isDomainChar (c : Char) : Bool := c.isLower || c.isDigit || c = '-'

def isDomainPart (cs : List Char) : Bool :=
  !cs.isEmpty && cs.all isDomainChar && cs.head? ≠ some '-' && cs.getLast? ≠ some '-'

def isLabelKey (cs : List Char) : Bool :=
  match Version.splitAt '/' cs with
  | [name] => isLabelValue (String.ofList name)
  | [domain, name] =>
    domain.length ≤ 253 && (Version.splitAt '.' domain).all isDomainPart &&
      isLabelValue (String.ofList name)
  | _ => false

def requirement? (cs : List Char) : Option Requirement :=
  match Version.splitAt '=' cs with
  | [key, value] =>
    if isLabelKey key && (value.isEmpty || isLabelValue (String.ofList value)) then
      some (String.ofList key, String.ofList value)
    else none
  | _ => none

def requirements? (selector : String) : Option (List Requirement) :=
  (Version.splitAt ',' selector.toList).mapM requirement?

def requirementChars (key value : String) : List Char := key.toList ++ '=' :: value.toList

variable {key value plan version : String} {c : Char}

/-- What separates requirements or their parts does not occur in the value of a label. -/
theorem LabelValue.not_mem (h : LabelValue value) (separates : isLabelChar c = false) :
    c ∉ value.toList := by
  intro mem
  cases separates.symm.trans (isLabelChar_iff.2 (h.chars c mem))

theorem requirement?_chars (valid : isLabelKey key.toList = true) (undivided : '=' ∉ key.toList)
    (h : LabelValue value) : requirement? (requirementChars key value) = some (key, value) := by
  rw [requirement?, requirementChars, Version.splitAt_append undivided,
    Version.splitAt_of_not_mem (h.not_mem (by decide))]
  simp only [valid, String.ofList_toList, isLabelValue_iff.2 h, Bool.or_true, Bool.and_true,
    if_true]

theorem comma_not_mem_chars (undivided : ',' ∉ key.toList) (h : LabelValue value) :
    ',' ∉ requirementChars key value := by
  rw [requirementChars, List.mem_append, List.mem_cons]
  rintro (mem | same | mem)
  · exact undivided mem
  · cases same
  · exact h.not_mem (by decide) mem

theorem consumerSelector_eq_some_iff {selector : String} :
    consumerSelector plan version = some selector ↔ (LabelValue plan ∧ LabelValue version) ∧
      selector = Label.plan ++ "=" ++ plan ++ "," ++ Label.revision ++ "=" ++ version := by
  unfold consumerSelector
  rw [← isLabelValue_iff, ← isLabelValue_iff, ← Bool.and_eq_true]
  split
  · next labels => simp [labels, eq_comm]
  · next other => simp [other]

theorem isLabelKey_plan : isLabelKey Label.plan.toList = true := by decide +kernel

theorem isLabelKey_revision : isLabelKey Label.revision.toList = true := by decide +kernel

theorem requirements?_of_consumerSelector {selector : String}
    (h : consumerSelector plan version = some selector) :
    requirements? selector = some [(Label.plan, plan), (Label.revision, version)] := by
  obtain ⟨⟨planned, versioned⟩, rfl⟩ := consumerSelector_eq_some_iff.1 h
  have parts : (Label.plan ++ "=" ++ plan ++ "," ++ Label.revision ++ "=" ++ version).toList =
      requirementChars Label.plan plan ++ ',' :: requirementChars Label.revision version := by
    simp [requirementChars]
  rw [requirements?, parts, Version.splitAt_append (comma_not_mem_chars (by decide) planned),
    Version.splitAt_of_not_mem (comma_not_mem_chars (by decide) versioned)]
  simp [requirement?_chars isLabelKey_plan (by decide) planned,
    requirement?_chars isLabelKey_revision (by decide) versioned]

end Api

end InfraOperator
