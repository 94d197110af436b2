import InfraOperator.Proofs.Selectors

/-!
# Selectors in queries

A selector is sent as a form value in the query of a request. From a form value the text can be read
again, whatever it is, and nothing in it separates the parameters of a query or ends it. So whoever
receives a request to list objects reads the requirements that were asked for.
-/

set_option autoImplicit false

namespace InfraOperator

namespace Bytes

theorem loop_eq (bytes : ByteArray) (i : Nat) (taken : Bytes) :
    ByteArray.toList.loop bytes i taken = taken.reverse ++ bytes.data.toList.drop i := by
  rw [ByteArray.toList.loop]
  split
  · next more =>
    have inside : i < bytes.data.toList.length := more
    have next : bytes.get! i = bytes.data.toList[i] := getElem!_pos bytes.data i more
    rw [loop_eq bytes (i + 1), List.reverse_cons, List.append_assoc,
      List.drop_eq_getElem_cons inside, next]
    rfl
  · next full =>
    rw [List.drop_of_length_le (Nat.le_of_not_lt full), List.append_nil]
termination_by bytes.size - i

theorem toList_eq (bytes : ByteArray) : bytes.toList = bytes.data.toList := loop_eq bytes 0 []

theorem toText?_ofText (text : String) : toText? (ofText text) = some text := by
  have same : (⟨(ofText text).toArray⟩ : ByteArray) = text.toByteArray := by
    rw [ofText, toList_eq, Array.toArray_toList]
    rfl
  rw [toText?, same]
  exact dif_pos text.isValidUTF8

end Bytes

namespace Target

/-! ## Form values -/

def formBytes? : List Char → Option Bytes
  | [] => some []
  | '%' :: high :: low :: rest => do
    let byte := 16 * (← Json.hexValue? high) + (← Json.hexValue? low)
    return UInt8.ofNat byte :: (← formBytes? rest)
  | c :: rest => do
    if c = '%' ∨ 128 ≤ c.toNat then none
    else return (if c = '+' then 32 else UInt8.ofNat c.toNat) :: (← formBytes? rest)

def formText? (cs : List Char) : Option String := (formBytes? cs).bind Bytes.toText?

def isUnreserved (c : Char) : Bool := c.isAlphanum || c = '*' || c = '-' || c = '.' || c = '_'

def inForm (c : Char) : Bool := isUnreserved c || c = '+' || c = '%'

theorem toNat_lt_of_isUnreserved {c : Char} (h : isUnreserved c = true) : c.toNat < 128 := by
  simp only [isUnreserved, Bool.or_eq_true, decide_eq_true_eq] at h
  rcases h with (((alphanumeric | rfl) | rfl) | rfl) | rfl
  · have low : c.val ≤ 'z'.val := (Api.isAlphanum_iff.1 alphanumeric).le
    exact Nat.lt_of_le_of_lt (UInt32.le_iff_toNat_le.1 low) (by decide)
  all_goals decide

theorem toNat_lt_of_inForm {c : Char} (h : inForm c = true) : c.toNat < 128 := by
  simp only [inForm, Bool.or_eq_true, decide_eq_true_eq] at h
  rcases h with (unreserved | rfl) | rfl
  · exact toNat_lt_of_isUnreserved unreserved
  all_goals decide

theorem forall_inForm {p : Char → Prop}
    (h : ∀ n < 128, inForm (Char.ofNat n) = true → p (Char.ofNat n)) {c : Char}
    (hc : inForm c = true) : p c := by
  have at_code := h c.toNat (toNat_lt_of_inForm hc)
  rw [Char.ofNat_toNat] at at_code
  exact at_code hc

theorem inForm_hexDigit : ∀ n < 16, inForm (hexDigit n) = true := by decide

theorem hexValue?_hexDigit : ∀ n < 16, Json.hexValue? (hexDigit n) = some n := by decide

theorem formByte_cases (b : UInt8) :
    (∃ c, formByte b = [c] ∧ isUnreserved c = true ∧ UInt8.ofNat c.toNat = b) ∨
    (formByte b = ['+'] ∧ b = 32) ∨
    ∃ high < 16, ∃ low < 16, formByte b = ['%', hexDigit high, hexDigit low] ∧
      UInt8.ofNat (16 * high + low) = b := by
  have small : b.toNat < 256 := b.toNat_lt
  have code : (Char.ofNat b.toNat).toNat = b.toNat := by
    rw [Char.ofNat, dif_pos (.inl (by omega))]
    rfl
  unfold formByte
  simp only
  split
  · next plain => exact .inl ⟨_, rfl, plain, by rw [code, UInt8.ofNat_toNat]⟩
  · split
    · next space =>
      refine .inr (.inl ⟨rfl, ?_⟩)
      rw [← UInt8.ofNat_toNat (x := b), ← code, space]
      rfl
    · refine .inr (.inr ⟨_, by omega, _, by omega, rfl, ?_⟩)
      rw [Nat.div_add_mod, UInt8.ofNat_toNat]

theorem formBytes?_cons_of_isUnreserved {c : Char} (h : isUnreserved c = true) (rest : List Char) :
    formBytes? (c :: rest) = (formBytes? rest).map (UInt8.ofNat c.toNat :: ·) := by
  have no_escape : c ≠ '%' := by
    rintro rfl
    cases h
  have no_space : c ≠ '+' := by
    rintro rfl
    cases h
  have ascii : ¬ (c = '%' ∨ 128 ≤ c.toNat) := by
    have := toNat_lt_of_isUnreserved h
    simp [no_escape, this]
  rw [formBytes?, if_neg ascii, if_neg no_space]
  · cases formBytes? rest <;> rfl
  · exact fun _ _ _ escape _ => no_escape escape

theorem formBytes?_plus (rest : List Char) :
    formBytes? ('+' :: rest) = (formBytes? rest).map (32 :: ·) := by
  rw [formBytes?]
  · cases formBytes? rest <;> rfl
  · intro _ _ _ escape
    cases escape

theorem formBytes?_escaped {high low : Nat} (hhigh : high < 16) (hlow : low < 16)
    (rest : List Char) : formBytes? ('%' :: hexDigit high :: hexDigit low :: rest) =
      (formBytes? rest).map (UInt8.ofNat (16 * high + low) :: ·) := by
  rw [formBytes?, hexValue?_hexDigit high hhigh, hexValue?_hexDigit low hlow]
  cases formBytes? rest <;> rfl

theorem formBytes?_formByte (b : UInt8) (rest : List Char) :
    formBytes? (formByte b ++ rest) = (formBytes? rest).map (b :: ·) := by
  rcases formByte_cases b with ⟨c, written, plain, code⟩ | ⟨written, rfl⟩ |
    ⟨high, hhigh, low, hlow, written, code⟩
  · rw [written, List.singleton_append, formBytes?_cons_of_isUnreserved plain, code]
  · rw [written]
    exact formBytes?_plus rest
  · rw [written, ← code]
    exact formBytes?_escaped hhigh hlow rest

theorem formBytes?_flatMap (bytes : Bytes) : formBytes? (bytes.flatMap formByte) = some bytes := by
  induction bytes with
  | nil => rfl
  | cons b bytes ih => rw [List.flatMap_cons, formBytes?_formByte, ih, Option.map_some]

/-- Every text is read again from its form value. -/
theorem formText?_formValue (text : String) : formText? (formValue text).toList = some text := by
  rw [formText?, formValue, String.toList_ofList, formBytes?_flatMap]
  exact Bytes.toText?_ofText text

theorem inForm_of_mem_formByte {b : UInt8} {c : Char} (h : c ∈ formByte b) : inForm c = true := by
  rcases formByte_cases b with ⟨c', written, plain, -⟩ | ⟨written, -⟩ |
    ⟨high, hhigh, low, hlow, written, -⟩
  all_goals rw [written] at h
  · rw [List.mem_singleton.1 h, inForm, plain]
    rfl
  · rw [List.mem_singleton.1 h]
    decide
  · simp only [List.mem_cons, List.not_mem_nil, or_false] at h
    rcases h with rfl | rfl | rfl
    · decide
    · exact inForm_hexDigit high hhigh
    · exact inForm_hexDigit low hlow

theorem inForm_of_mem_formValue {text : String} {c : Char} (h : c ∈ (formValue text).toList) :
    inForm c = true := by
  rw [formValue, String.toList_ofList] at h
  obtain ⟨b, -, mem⟩ := List.mem_flatMap.1 h
  exact inForm_of_mem_formByte mem

/-! ## Queries -/

def parameters (query : Option String) : List (List Char × Option (List Char)) :=
  ((Version.splitAt '&' (query.getD "").toList).filter (· ≠ [])).map (Version.cut '=')

/-- What is required of the objects that are asked for. Without parameters nothing is required;
parameters other than a selector are not read. -/
def wanted? (t : Target) : Option (List Api.Requirement) :=
  match parameters t.query with
  | [] => some []
  | [(name, some value)] =>
    if name = "labelSelector".toList then (formText? value).bind Api.requirements? else none
  | _ => none

def isPathChar (c : Char) : Bool := inPath c && c ≠ '?' && c ≠ '#'

/-- A path and a query are told apart by the first question mark. -/
theorem parse?_append {path query : String}
    (plain : path.toList.all isPathChar = true)
    (allowed : ∀ c ∈ query.toList, inQuery c = true ∧ c ≠ '#') :
    parse? (path ++ "?" ++ query) = some ⟨path, some query⟩ := by
  have plain : ∀ c ∈ path.toList, inPath c = true ∧ c ≠ '?' ∧ c ≠ '#' := by
    intro c hc
    simpa [isPathChar, and_assoc] using List.all_eq_true.1 plain c hc
  have whole : (path ++ "?" ++ query).toList = path.toList ++ '?' :: query.toList := by simp
  have unbroken : ∀ c ∈ path.toList ++ '?' :: query.toList, decide (c ≠ '#') = true := by
    intro c hc
    rcases List.mem_append.1 hc with mem | mem
    · exact decide_eq_true (plain c mem).2.2
    · rcases List.mem_cons.1 mem with rfl | mem
      · decide
      · exact decide_eq_true (allowed c mem).2
  have before : ∀ c ∈ path.toList, decide (c ≠ '?') = true := fun c hc =>
    decide_eq_true (plain c hc).2.1
  have in_path : path.toList.all inPath = true := List.all_eq_true.2 fun c hc => (plain c hc).1
  have in_query : query.toList.all inQuery = true :=
    List.all_eq_true.2 fun c hc => (allowed c hc).1
  have all_kept : (path.toList ++ '?' :: query.toList).takeWhile (· ≠ '#') =
      path.toList ++ '?' :: query.toList := by
    have taken := @List.takeWhile_append_of_pos _ _ _ [] unbroken
    rwa [List.append_nil, List.takeWhile_nil, List.append_nil] at taken
  unfold parse?
  rw [whole, all_kept]
  simp only [List.takeWhile_append_of_pos before, List.dropWhile_append_of_pos before]
  simp [in_path, in_query]

def queryText : Option String → String
  | some selector => "&labelSelector=" ++ formValue selector
  | none => ""

theorem queryText_some (selector : String) :
    queryText (some selector) = "&labelSelector=" ++ formValue selector := rfl

theorem query_eq (selector : Option String) :
    Collection.query selector = "?" ++ queryText selector := by
  cases selector with
  | none => rfl
  | some selector =>
    show "?&labelSelector=" ++ formValue selector = "?" ++ ("&labelSelector=" ++ formValue selector)
    rw [← String.append_assoc]
    rfl

theorem inQuery_of_mem_queryText {selector : Option String} {c : Char}
    (h : c ∈ (queryText selector).toList) : inQuery c = true ∧ c ≠ '#' := by
  cases selector with
  | none => cases h
  | some selector =>
    rw [queryText_some, String.toList_append] at h
    rcases List.mem_append.1 h with mem | mem
    · have all : "&labelSelector=".toList.all (fun c => inQuery c && c ≠ '#') = true := by decide
      simpa using List.all_eq_true.1 all c mem
    · exact forall_inForm (p := fun c => inQuery c = true ∧ c ≠ '#') (by decide)
        (inForm_of_mem_formValue mem)

/-- Nothing in a form value separates parameters. -/
theorem parameters_queryText (selector : String) :
    parameters (queryText (some selector)) =
      [("labelSelector".toList, some (formValue selector).toList)] := by
  generalize part : "labelSelector".toList ++ '=' :: (formValue selector).toList = parameter
  have no_separator : '&' ∉ parameter := by
    subst part
    intro mem
    rcases List.mem_append.1 mem with mem | mem
    · exact absurd mem (by decide)
    · rcases List.mem_cons.1 mem with same | mem
      · cases same
      · exact forall_inForm (p := fun c => c ≠ '&') (by decide) (inForm_of_mem_formValue mem) rfl
  have text : (queryText (some selector)).toList = [] ++ '&' :: parameter := by
    simp [queryText_some, ← part]
  have cuts : Version.cut '=' parameter =
      ("labelSelector".toList, some (formValue selector).toList) := by
    rw [← part]
    exact Version.cut_append (by decide)
  have filled : parameter ≠ [] := by
    rintro rfl
    cases part
  rw [parameters, Option.getD_some, text, Version.splitAt_append List.not_mem_nil,
    Version.splitAt_of_not_mem no_separator]
  simp [filled, cuts]

theorem wanted?_of_parameters {t : Target} {value : List Char}
    (h : parameters t.query = [("labelSelector".toList, some value)]) :
    wanted? t = (formText? value).bind Api.requirements? := by
  unfold wanted?
  rw [h]
  exact if_pos rfl

/-- Whoever receives the request for a list reads what was asked for. -/
theorem wanted?_queryText (path : String) (selector : Option String) :
    wanted? ⟨path, some (queryText selector)⟩ =
      match selector with
      | some selector => Api.requirements? selector
      | none => some [] := by
  cases selector with
  | none => rfl
  | some selector =>
    rw [wanted?_of_parameters (t := ⟨path, _⟩) (parameters_queryText selector),
      formText?_formValue]
    rfl

end Target

end InfraOperator
