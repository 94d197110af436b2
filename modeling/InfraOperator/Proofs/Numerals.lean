import InfraOperator.Text.Integer

/-!
# Integers through text

An integer that is written out in decimal reads back as itself, whatever its sign, wherever the
bounds hold it.
-/

set_option autoImplicit false

namespace InfraOperator.Text

theorem digitsValue_toDigits (n : Nat) : digitsValue (Nat.toDigits 10 n) = n :=
  Nat.ofDigitChars_toDigits (by decide) (by decide)

theorem toDigits_inj {m n : Nat} (h : Nat.toDigits 10 m = Nat.toDigits 10 n) : m = n := by
  have values := congrArg digitsValue h
  rwa [digitsValue_toDigits, digitsValue_toDigits] at values

theorem eq_of_repr_eq {m n : Nat} (h : m.repr = n.repr) : m = n := by
  apply toDigits_inj
  rw [← Nat.toList_repr, ← Nat.toList_repr, h]

theorem isDigit_of_mem {n : Nat} : ∀ c ∈ Nat.toDigits 10 n, c.isDigit = true :=
  fun _ => Nat.isDigit_of_mem_toDigits (by decide) (by decide)

theorem exists_first_digit (n : Nat) :
    ∃ c cs, Nat.toDigits 10 n = c :: cs ∧ c.isDigit = true := by
  cases written : Nat.toDigits 10 n with
  | nil => exact absurd written Nat.toDigits_ne_nil
  | cons c cs => exact ⟨c, cs, rfl, isDigit_of_mem (n := n) c (by simp [written])⟩

theorem toList_minus_repr (n : Nat) : ("-" ++ n.repr).toList = '-' :: Nat.toDigits 10 n := by
  rw [String.toList_append, Nat.toList_repr]
  rfl

theorem readDigits?_toDigits (n : Nat) : readDigits? (Nat.toDigits 10 n) = some n := by
  have nonempty : (Nat.toDigits 10 n).isEmpty = false := by
    simp [Nat.toDigits_ne_nil]
  have digits : (Nat.toDigits 10 n).all Char.isDigit = true := List.all_eq_true.2 isDigit_of_mem
  rw [readDigits?, nonempty, digits, digitsValue_toDigits]
  rfl

/-- A digit is no sign, so the first one of a number is not taken for one. -/
theorem readInt?_of_digit {b : Bounds} {text : String} {c : Char} {cs : List Char}
    (h : text.toList = c :: cs) (digit : c.isDigit = true) :
    readInt? b text = (readDigits? (c :: cs)).bind fun n => b.check n := by
  unfold readInt?
  rw [h]
  split
  · rename_i other same
    cases same
    cases digit
  · rename_i other same
    cases same
    cases digit
  · rfl

theorem readInt?_repr (b : Bounds) (n : Nat) : readInt? b n.repr = b.check n := by
  obtain ⟨c, cs, written, digit⟩ := exists_first_digit n
  rw [readInt?_of_digit (Nat.toList_repr.trans written) digit, ← written, readDigits?_toDigits]
  rfl

theorem readInt?_minus_repr (b : Bounds) (n : Nat) : readInt? b ("-" ++ n.repr) = b.check (-n) := by
  unfold readInt?
  rw [toList_minus_repr]
  show (readDigits? (Nat.toDigits 10 n)).bind _ = _
  rw [readDigits?_toDigits]
  rfl

theorem readInt?_toString {b : Bounds} {i : Int} (h : b.holds i = true) :
    readInt? b (toString i) = some i := by
  have checked : b.check i = some i := by rw [Bounds.check, if_pos h]
  cases i with
  | ofNat n => exact (readInt?_repr b n).trans checked
  | negSucc n => exact (readInt?_minus_repr b (n + 1)).trans checked

/-! Runs of digits -/

theorem digitValue_le {c : Char} (h : c.isDigit = true) : digitValue c ≤ 9 := by
  simp only [Char.isDigit, Bool.and_eq_true, decide_eq_true_eq, UInt32.le_iff_toNat_le] at h
  have low : '0'.toNat = 48 := rfl
  have e1 : ('0'.val).toNat = 48 := rfl
  have e2 : ('9'.val).toNat = 57 := rfl
  unfold digitValue
  rw [low]
  have : c.toNat = c.val.toNat := rfl
  omega

theorem digitsValue_zero_cons (cs : List Char) : digitsValue ('0' :: cs) = digitsValue cs := rfl

theorem digitsValue_zeros (k : Nat) (cs : List Char) :
    digitsValue (List.replicate k '0' ++ cs) = digitsValue cs := by
  induction k with
  | zero => rfl
  | succ k ih => rw [List.replicate_succ, List.cons_append, digitsValue_zero_cons, ih]

/-- So many digits make less than so much. -/
theorem digitsValue_lt {cs : List Char} (h : ∀ c ∈ cs, c.isDigit = true) :
    digitsValue cs < Nat.pow 10 cs.length := by
  suffices ∀ n, cs.foldl (fun n c => 10 * n + digitValue c) n < (n + 1) * 10 ^ cs.length by
    simpa [digitsValue] using this 0
  induction cs with
  | nil => simp
  | cons c cs ih =>
    intro n
    have first := digitValue_le (h c (List.mem_cons_self ..))
    calc cs.foldl (fun n c => 10 * n + digitValue c) (10 * n + digitValue c)
        < (10 * n + digitValue c + 1) * 10 ^ cs.length :=
          ih (fun c' hc => h c' (List.mem_cons_of_mem _ hc)) _
      _ ≤ (10 * (n + 1)) * 10 ^ cs.length := Nat.mul_le_mul_right _ (by omega)
      _ = (n + 1) * 10 ^ (c :: cs).length := by
          rw [List.length_cons, Nat.pow_succ, Nat.mul_comm (10 ^ cs.length), Nat.mul_comm 10,
            Nat.mul_assoc]

def EndsDigits (rest : List Char) : Prop := ∀ c ∈ rest.head?, c.isDigit = false

theorem takeWhile_digits {cs rest : List Char} (h : ∀ c ∈ cs, c.isDigit = true)
    (ends : EndsDigits rest) : (cs ++ rest).takeWhile Char.isDigit = cs := by
  rw [List.takeWhile_append_of_pos h]
  cases rest with
  | nil => simp
  | cons c rest => rw [List.takeWhile_cons_of_neg (by simp [ends c rfl]), List.append_nil]

theorem dropWhile_digits {cs rest : List Char} (h : ∀ c ∈ cs, c.isDigit = true)
    (ends : EndsDigits rest) : (cs ++ rest).dropWhile Char.isDigit = rest := by
  rw [List.dropWhile_append_of_pos h]
  cases rest with
  | nil => simp
  | cons c rest => rw [List.dropWhile_cons_of_neg (by simp [ends c rfl])]

/-- In front of what does not go on with a digit a number is told by its digits. -/
theorem toDigits_append_inj {m n : Nat} {rest rest' : List Char} (ends : EndsDigits rest)
    (ends' : EndsDigits rest') (h : Nat.toDigits 10 m ++ rest = Nat.toDigits 10 n ++ rest') :
    m = n ∧ rest = rest' := by
  have taken := congrArg (List.takeWhile Char.isDigit) h
  have dropped := congrArg (List.dropWhile Char.isDigit) h
  rw [takeWhile_digits isDigit_of_mem ends, takeWhile_digits isDigit_of_mem ends'] at taken
  rw [dropWhile_digits isDigit_of_mem ends, dropWhile_digits isDigit_of_mem ends'] at dropped
  exact ⟨toDigits_inj taken, dropped⟩

/-- The digits of a number do not begin with a sign. -/
theorem toDigits_append_ne_minus (n : Nat) (rest cs : List Char) :
    Nat.toDigits 10 n ++ rest ≠ '-' :: cs := by
  intro same
  obtain ⟨c, digits, written, digit⟩ := exists_first_digit n
  rw [written, List.cons_append, List.cons.injEq] at same
  rw [same.1] at digit
  cases digit

theorem toString_append_inj {i j : Int} {rest rest' : List Char} (ends : EndsDigits rest)
    (ends' : EndsDigits rest')
    (h : (toString i).toList ++ rest = (toString j).toList ++ rest') : i = j ∧ rest = rest' := by
  have natural : ∀ n : Nat, (toString (Int.ofNat n)).toList = Nat.toDigits 10 n :=
    fun _ => Nat.toList_repr
  have negative : ∀ n : Nat, (toString (Int.negSucc n)).toList = '-' :: Nat.toDigits 10 (n + 1) :=
    fun n => toList_minus_repr (n + 1)
  cases i with
  | ofNat m =>
    cases j with
    | ofNat n =>
      rw [natural, natural] at h
      obtain ⟨rfl, same⟩ := toDigits_append_inj ends ends' h
      exact ⟨rfl, same⟩
    | negSucc n =>
      rw [natural, negative] at h
      exact absurd h (toDigits_append_ne_minus m rest _)
  | negSucc m =>
    cases j with
    | ofNat n =>
      rw [natural, negative] at h
      exact absurd h.symm (toDigits_append_ne_minus n rest' _)
    | negSucc n =>
      rw [negative, negative, List.cons_append, List.cons_append, List.cons.injEq] at h
      obtain ⟨same, behind⟩ := toDigits_append_inj ends ends' h.2
      obtain rfl := Nat.succ.inj same
      exact ⟨rfl, behind⟩

end InfraOperator.Text
