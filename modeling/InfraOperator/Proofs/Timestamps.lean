import InfraOperator.Proofs.Calendar
import InfraOperator.Proofs.Numerals
import InfraOperator.Time.Rfc3339

/-!
# Instants through text

The instants that a text can stand for (`Instant.Named`) are those that are read
(`Rfc3339.named_of_read?`), whatever their notation, and each of them is read back from what is
printed for it (`Rfc3339.read?_print`), years beyond four digits and leap seconds included.
-/

set_option autoImplicit false

namespace InfraOperator

/-- The instants that there are texts for: the calendar reaches them, and more than a second of
nanoseconds only follows the last second of a minute. -/
structure Instant.Named (i : Instant) : Prop where
  least : leastSecond ≤ i.seconds
  greatest : i.seconds ≤ greatestSecond
  nanos : i.nanos < Span.perSecond ∨ (i.nanos < 2 * Span.perSecond ∧ i.seconds % 60 = 59)

namespace Rfc3339

open Text

variable {cs rest : List Char} {i : Instant}

theorem digits_append {least most : Nat} (h : ∀ c ∈ cs, c.isDigit = true)
    (ends : EndsDigits rest) (enough : least ≤ cs.length) (few : cs.length ≤ most) :
    (digits least most).run (cs ++ rest) = some (digitsValue cs, rest) := by
  have taken : (cs.take most).length = cs.length := by rw [List.take_of_length_le few]
  unfold digits
  simp only [StateT.run, takeWhile_digits h ends, List.take_of_length_le few]
  rw [if_neg (by omega), List.drop_left]

theorem toList_pushn (s : String) (c : Char) (n : Nat) :
    (s.pushn c n).toList = s.toList ++ List.replicate n c := by
  rw [String.pushn_eq_repeat_push]
  induction n with
  | zero => simp [Nat.repeat]
  | succ n ih =>
    rw [Nat.repeat, String.toList_push, ih, List.replicate_succ', List.append_assoc]

theorem toList_padded (width n : Nat) : (padded width n).toList =
    List.replicate (width - (Nat.toDigits 10 n).length) '0' ++ Nat.toDigits 10 n := by
  unfold padded
  extract_lets text
  have written : text.toList = Nat.toDigits 10 n := Nat.toList_repr
  rw [String.toList_append, toList_pushn, written, ← String.length_toList, written]
  rfl

theorem isDigit_padded (width n : Nat) : ∀ c ∈ (padded width n).toList, c.isDigit = true := by
  intro c hc
  rw [toList_padded] at hc
  rcases List.mem_append.1 hc with zero | digit
  · obtain rfl := List.eq_of_mem_replicate zero
    decide
  · exact isDigit_of_mem c digit

theorem digitsValue_padded (width n : Nat) : digitsValue (padded width n).toList = n := by
  rw [toList_padded, digitsValue_zeros, digitsValue_toDigits]

theorem length_padded_pos (width n : Nat) : 0 < (padded width n).toList.length := by
  have some_digit := Nat.length_toDigits_pos (b := 10) (n := n)
  rw [toList_padded, List.length_append]
  omega

theorem length_padded {width n : Nat} (positive : 0 < width) (h : n < Nat.pow 10 width) :
    (padded width n).toList.length = width := by
  have few : (Nat.toDigits 10 n).length ≤ width :=
    (Nat.length_toDigits_le_iff (by decide) positive).2 h
  rw [toList_padded, List.length_append, List.length_replicate]
  omega

theorem isBlank_of_isDigit {c : Char} (h : c.isDigit = true) : isBlank c = false := by
  simp only [Char.isDigit, Bool.and_eq_true, decide_eq_true_eq, UInt32.le_iff_toNat_le] at h
  have low : ('0'.val).toNat = 48 := rfl
  have high : ('9'.val).toNat = 57 := rfl
  have code : c.toNat = c.val.toNat := rfl
  simp only [isBlank, Bool.or_eq_false_iff, Bool.and_eq_false_iff, decide_eq_false_iff_not,
    beq_eq_false_iff_ne]
  omega

theorem skipBlanks_cons {c : Char} (h : isBlank c = false) :
    skipBlanks.run (c :: rest) = some ((), c :: rest) := by
  show some ((), trimStart (c :: rest)) = _
  rw [trimStart, List.dropWhile_cons_of_neg (by simp [h])]

theorem char_cons (c : Char) : (char c).run (c :: rest) = some ((), rest) := if_pos rfl

theorem looseChar_cons {c : Char} (h : isBlank c = false) :
    (looseChar c).run (c :: rest) = some ((), rest) := by
  rw [looseChar, StateT.run_bind, skipBlanks_cons h]
  exact char_cons c

theorem skipBlanks_padded {width n : Nat} :
    skipBlanks.run ((padded width n).toList ++ rest) =
      some ((), (padded width n).toList ++ rest) := by
  have digit := isDigit_padded width n
  have positive := length_padded_pos width n
  cases written : (padded width n).toList with
  | nil => simp [written] at positive
  | cons c cs =>
    exact skipBlanks_cons (isBlank_of_isDigit (digit c (by simp [written])))

theorem looseDigits_padded {n : Nat} (h : n < 100) (ends : EndsDigits rest) :
    looseDigits.run ((padded 2 n).toList ++ rest) = some (n, rest) := by
  have length : (padded 2 n).toList.length = 2 := length_padded (by decide) h
  rw [looseDigits, StateT.run_bind, skipBlanks_padded]
  simp only [Option.bind_eq_bind, Option.bind_some]
  rw [digits_append (isDigit_padded _ _) ends (by omega) (by omega), digitsValue_padded]

theorem signedYear_minus (cs : List Char) : signedYear.run ('-' :: cs) =
    ((fun (y : Nat) => -(y : Int)) <$> digits 1 cs.length |>.run cs) := rfl

theorem signedYear_plus (cs : List Char) : signedYear.run ('+' :: cs) =
    ((fun (y : Nat) => (y : Int)) <$> digits 1 cs.length |>.run cs) := rfl

theorem signedYear_digit {c : Char} (h : c.isDigit = true) (cs : List Char) :
    signedYear.run (c :: cs) =
      ((fun (y : Nat) => (y : Int)) <$> digits 1 4 |>.run (c :: cs)) := by
  show signedYear (c :: cs) = _
  unfold signedYear
  split
  · rename_i same
    cases same
    cases h
  · rename_i same
    cases same
    cases h
  · rfl

theorem toList_yearText (year : Int) : (yearText year).toList =
    if 0 ≤ year ∧ year ≤ 9999 then (padded 4 year.toNat).toList
    else (if year < 0 then '-' else '+') :: (padded 4 year.natAbs).toList := by
  unfold yearText
  split
  · rfl
  · rw [String.toList_append]
    split
    · rfl
    · rfl

theorem signedYear_yearText (year : Int) (ends : EndsDigits rest) :
    signedYear.run ((yearText year).toList ++ rest) = some (year, rest) := by
  rw [toList_yearText]
  split
  · rename_i plain
    have four : year.toNat < 10000 := by omega
    have length : (padded 4 year.toNat).toList.length = 4 := length_padded (by decide) four
    have read : (digits 1 4).run ((padded 4 year.toNat).toList ++ rest) =
        some (year.toNat, rest) := by
      rw [digits_append (isDigit_padded _ _) ends (by omega) (by omega), digitsValue_padded]
    have digit := isDigit_padded 4 year.toNat
    cases written : (padded 4 year.toNat).toList with
    | nil => simp [written] at length
    | cons c cs =>
      rw [written] at read
      rw [List.cons_append, signedYear_digit (digit c (by simp [written])), StateT.run_map,
        ← List.cons_append, read]
      simp only [Option.map_eq_map, Option.map_some, Int.toNat_of_nonneg plain.1]
  · have read : (digits 1 ((padded 4 year.natAbs).toList ++ rest).length).run
        ((padded 4 year.natAbs).toList ++ rest) = some (year.natAbs, rest) := by
      have enough : (padded 4 year.natAbs).toList.length ≤
          ((padded 4 year.natAbs).toList ++ rest).length := by
        rw [List.length_append]
        omega
      rw [digits_append (isDigit_padded _ _) ends (length_padded_pos _ _) enough,
        digitsValue_padded]
    rw [List.cons_append]
    split
    · have same : -(year.natAbs : Int) = year := by omega
      rw [signedYear_minus, StateT.run_map, read]
      simp only [Option.map_eq_map, Option.map_some, same]
    · have same : (year.natAbs : Int) = year := by omega
      rw [signedYear_plus, StateT.run_map, read]
      simp only [Option.map_eq_map, Option.map_some, same]

theorem fraction_point {cs : List Char} (h : ∀ c ∈ cs, c.isDigit = true) (ends : EndsDigits rest)
    (few : cs.length ≤ 9) (some_digit : 0 < cs.length) :
    fraction.run ('.' :: cs ++ rest) =
      some (digitsValue cs * Nat.pow 10 (9 - cs.length), rest) := by
  show fraction ('.' :: (cs ++ rest)) = _
  have nonempty : cs.isEmpty = false := by
    cases cs with
    | nil => cases some_digit
    | cons c cs => rfl
  simp [fraction, takeWhile_digits h ends, List.take_of_length_le few, nonempty]

theorem fraction_fractionText {nanos : Nat} (h : nanos < Span.perSecond) (rest : List Char) :
    fraction.run ((fractionText nanos).toList ++ 'Z' :: rest) = some (nanos, 'Z' :: rest) := by
  have ends : EndsDigits ('Z' :: rest) := by
    rintro c ⟨⟩
    rfl
  unfold Span.perSecond at h
  have written : ∀ width n scale, 0 < width → width ≤ 9 → n < Nat.pow 10 width →
      Nat.pow 10 (9 - width) = scale → n * scale = nanos →
      fraction.run (("." ++ padded width n).toList ++ 'Z' :: rest) = some (nanos, 'Z' :: rest) := by
    intro width n scale positive few small scaled same
    have length := length_padded positive small
    have read := fraction_point (isDigit_padded width n) ends (by omega)
      (by omega)
    rw [digitsValue_padded, length, scaled, same] at read
    rw [String.toList_append]
    exact read
  unfold fractionText
  split
  · rename_i none
    subst none
    rfl
  · split
    · have millis : nanos / 1000000 < 1000 := by omega
      exact written 3 _ 1000000 (by decide) (by decide) millis rfl (by omega)
    · split
      · have micros : nanos / 1000 < 1000000 := by omega
        exact written 6 _ 1000 (by decide) (by decide) micros rfl (by omega)
      · exact written 9 _ 1 (by decide) (by decide) h rfl (by omega)

theorem skipBlanks_yearText (year : Int) :
    skipBlanks.run ((yearText year).toList ++ rest) =
      some ((), (yearText year).toList ++ rest) := by
  rw [toList_yearText]
  split
  · exact skipBlanks_padded
  · rw [List.cons_append]
    apply skipBlanks_cons
    split <;> rfl

def fieldsText (f : Fields) : List Char :=
  (yearText f.date.year).toList ++ '-' :: ((padded 2 f.date.month).toList ++ '-' ::
    ((padded 2 f.date.day).toList ++ 'T' :: ((padded 2 f.hour).toList ++ ':' ::
      ((padded 2 f.minute).toList ++ ':' :: ((padded 2 f.second).toList ++
        ((fractionText f.nanos).toList ++ ['Z']))))))

theorem endsDigits_cons {c : Char} (h : c.isDigit = false) : EndsDigits (c :: rest) := by
  rintro c' ⟨⟩
  exact h

theorem endsDigits_fractionText (nanos : Nat) (rest : List Char) :
    EndsDigits ((fractionText nanos).toList ++ 'Z' :: rest) := by
  unfold fractionText
  split
  · exact endsDigits_cons rfl
  · split
    · rw [String.toList_append]
      exact endsDigits_cons rfl
    · split
      · rw [String.toList_append]
        exact endsDigits_cons rfl
      · rw [String.toList_append]
        exact endsDigits_cons rfl

/-- Two digits are enough for each of the fields, and nine for the fraction. -/
structure Fields.Small (f : Fields) : Prop where
  month : f.date.month < 100
  day : f.date.day < 100
  hour : f.hour < 100
  minute : f.minute < 100
  second : f.second < 100
  nanos : f.nanos < Span.perSecond
  offset : f.offset = 0

theorem run_bind_some {α β : Type} {m : Scan α} {f : α → Scan β} {a : α}
    (read : m.run cs = some (a, rest)) : (m >>= f).run cs = (f a).run rest := by
  rw [StateT.run_bind, read]
  rfl

theorem looseFields_fieldsText {f : Fields} (small : f.Small) :
    looseFields.run (fieldsText f) = some (f, []) := by
  have dash : ∀ rest, EndsDigits ('-' :: rest) := fun _ => endsDigits_cons rfl
  have colon : ∀ rest, EndsDigits (':' :: rest) := fun _ => endsDigits_cons rfl
  have time : ∀ rest, EndsDigits ('T' :: rest) := fun _ => endsDigits_cons rfl
  have year := fun rest => signedYear_yearText f.date.year (dash rest)
  have month := fun rest => looseDigits_padded small.month (dash rest)
  have day := fun rest => looseDigits_padded small.day (time rest)
  have hour := fun rest => looseDigits_padded small.hour (colon rest)
  have minute := fun rest => looseDigits_padded small.minute (colon rest)
  have second := looseDigits_padded small.second (endsDigits_fractionText f.nanos [])
  have nanos := fraction_fractionText small.nanos []
  have at_time : ∀ rest, separator.run ('T' :: rest) = some ((), rest) := fun _ => rfl
  have at_zone : skipBlanks.run ['Z'] = some ((), ['Z']) := skipBlanks_cons rfl
  have utc : looseOffset.run ['Z'] = some (0, []) := rfl
  have at_end : skipBlanks.run [] = some ((), []) := rfl
  have dashed : ∀ rest, (looseChar '-').run ('-' :: rest) = some ((), rest) :=
    fun _ => looseChar_cons rfl
  have parted : ∀ rest, (looseChar ':').run (':' :: rest) = some ((), rest) :=
    fun _ => looseChar_cons rfl
  rw [looseFields, fieldsText, run_bind_some (skipBlanks_yearText _), run_bind_some (year _),
    run_bind_some (dashed _), run_bind_some (month _), run_bind_some (dashed _),
    run_bind_some (day _), run_bind_some (at_time _), run_bind_some (hour _),
    run_bind_some (parted _), run_bind_some (minute _), run_bind_some (parted _),
    run_bind_some second, run_bind_some nanos, run_bind_some at_zone, run_bind_some utc,
    run_bind_some at_end, StateT.run_pure, ← small.offset]
  rfl

def shown (i : Instant) : Fields where
  date := Date.ofDays (i.seconds / 86400)
  hour := (i.seconds % 86400).toNat / 3600
  minute := (i.seconds % 86400).toNat / 60 % 60
  second := (i.seconds % 86400).toNat % 60 + if Span.perSecond ≤ i.nanos then 1 else 0
  nanos := if Span.perSecond ≤ i.nanos then i.nanos - Span.perSecond else i.nanos
  offset := 0

theorem toList_print (i : Instant) : (print i).toList = fieldsText (shown i) := by
  have dash : "-".toList = ['-'] := rfl
  have colon : ":".toList = [':'] := rfl
  have time : "T".toList = ['T'] := rfl
  have zone : "Z".toList = ['Z'] := rfl
  simp only [print, printWith, String.toList_append, fieldsText, shown, dash, colon, time, zone,
    List.append_assoc, List.cons_append, List.nil_append]

/-- The seconds and nanoseconds that are shown, without a leap second or in it. -/
theorem shown_cases (h : i.Named) :
    (i.nanos < Span.perSecond ∧ (shown i).second = (i.seconds % 86400).toNat % 60 ∧
      (shown i).nanos = i.nanos) ∨
    (i.seconds % 60 = 59 ∧ (shown i).second = 60 ∧ (shown i).nanos < Span.perSecond ∧
      (shown i).nanos + Span.perSecond = i.nanos) := by
  rcases h.nanos with few | ⟨few, last⟩
  · have common : ¬ Span.perSecond ≤ i.nanos := by omega
    exact .inl ⟨few, by simp only [shown, if_neg common, Nat.add_zero], if_neg common⟩
  · by_cases leap : Span.perSecond ≤ i.nanos
    · refine .inr ⟨last, ?_, ?_, ?_⟩
      · simp only [shown, if_pos leap]
        omega
      · simp only [shown, if_pos leap]
        omega
      · simp only [shown, if_pos leap]
        omega
    · exact .inl ⟨by omega, by simp only [shown, if_neg leap, Nat.add_zero], if_neg leap⟩

theorem monthLength_le (year : Int) (month : Nat) : Date.monthLength year month ≤ 31 := by
  unfold Date.monthLength
  repeat' split
  all_goals decide

theorem small_shown (h : i.Named) : (shown i).Small := by
  obtain ⟨-, months, -, days⟩ := Date.month_ofDays (i.seconds / 86400)
  have short := Nat.le_trans days (monthLength_le _ _)
  have hour : (shown i).hour < 100 := by
    simp only [shown]
    omega
  have minute : (shown i).minute < 100 := by
    simp only [shown]
    omega
  have seconds := shown_cases h
  exact ⟨by simp only [shown]; omega, by simp only [shown]; omega, hour, minute, by omega,
    by omega, rfl⟩

theorem isValid_shown (h : i.Named) : (shown i).date.isValid = true := by
  obtain ⟨least, greatest, positive, few⟩ := Date.month_ofDays (i.seconds / 86400)
  have low := h.least
  have high := h.greatest
  unfold Instant.leastSecond at low
  unfold Instant.greatestSecond at high
  have years := Date.year_ofDays (n := i.seconds / 86400) (by omega)
  simp [Date.isValid, shown, least, greatest, positive, few, years]

theorem toInstant?_shown (h : i.Named) : (shown i).toInstant? = some i := by
  have hour : (shown i).hour = (i.seconds % 86400).toNat / 3600 := rfl
  have minute : (shown i).minute = (i.seconds % 86400).toNat / 60 % 60 := rfl
  have days : (shown i).date.toDays = i.seconds / 86400 := Date.toDays_ofDays _
  have offset : (shown i).offset = 0 := rfl
  have seconds := shown_cases h
  have fields : (shown i).date.isValid = true ∧ (shown i).hour ≤ 23 ∧ (shown i).minute ≤ 59 ∧
      (shown i).second ≤ 60 ∧ -86400 < (shown i).offset ∧ (shown i).offset < 86400 :=
    ⟨isValid_shown h, by omega, by omega, by omega, by omega, by omega⟩
  unfold Fields.toInstant?
  rw [if_pos fields]
  extract_lets second nanos localSeconds total
  have second_eq : (second : Int) = i.seconds % 60 := by
    rcases seconds with ⟨-, shown, -⟩ | ⟨last, shown, -⟩
    · have ordinary : ¬ (Rfc3339.shown i).second = 60 := by omega
      simp only [second, if_neg ordinary]
      omega
    · simp only [second, if_pos shown]
      omega
  have nanos_eq : nanos = i.nanos := by
    rcases seconds with ⟨-, shown, whole⟩ | ⟨-, shown, -, whole⟩
    · have ordinary : ¬ (Rfc3339.shown i).second = 60 := by omega
      simp only [nanos, if_neg ordinary, whole]
    · simp only [nanos, if_pos shown, whole]
  have total_eq : total = i.seconds := by
    simp only [total, localSeconds, days, hour, minute, offset, second_eq]
    omega
  rw [total_eq, nanos_eq, if_pos ⟨h.least, h.greatest⟩]

/-- An instant that there is a text for is read back from what is printed. -/
theorem read?_print (h : i.Named) : read? (print i) = some i := by
  have read : looseFields.run (print i).toList = some (shown i, []) := by
    rw [toList_print, looseFields_fieldsText (small_shown h)]
  rw [read?, read]
  exact toInstant?_shown h

/-! What can be read -/

def Gives {α : Type} (m : Scan α) (P : α → Prop) : Prop :=
  ∀ cs a rest, m.run cs = some (a, rest) → P a

section Gives

variable {α β : Type} {m : Scan α} {f : α → Scan β} {P : α → Prop} {Q : β → Prop}

theorem Gives.bind (first : Gives m P) (then_ : ∀ a, P a → Gives (f a) Q) : Gives (m >>= f) Q := by
  intro cs b rest h
  rw [StateT.run_bind] at h
  obtain ⟨⟨a, cs'⟩, begun, ended⟩ := Option.bind_eq_some_iff.1 h
  exact then_ a (first cs a cs' begun) cs' b rest ended

theorem Gives.skip (then_ : ∀ a, Gives (f a) Q) : Gives (m >>= f) Q :=
  Gives.bind (P := fun _ => True) (fun _ _ _ _ => trivial) fun a _ => then_ a

theorem gives_pure {a : α} (h : P a) : Gives (pure a : Scan α) P := by
  rintro cs b rest ⟨⟩
  exact h

end Gives

theorem gives_fraction : Gives fraction (· < Span.perSecond) := by
  intro cs nanos rest h
  change fraction cs = some (nanos, rest) at h
  unfold fraction at h
  split at h
  · rename_i cs
    simp only at h
    split at h
    · cases h
    · cases h
      have digits : ∀ c ∈ (cs.takeWhile Char.isDigit).take 9, c.isDigit = true := by
        intro c hc
        exact List.all_eq_true.1 List.all_takeWhile c (List.mem_of_mem_take hc)
      have few : ((cs.takeWhile Char.isDigit).take 9).length ≤ 9 := List.length_take_le _ _
      have value := digitsValue_lt digits
      generalize (cs.takeWhile Char.isDigit).take 9 = taken at few value ⊢
      calc digitsValue taken * 10 ^ (9 - taken.length)
          < 10 ^ taken.length * 10 ^ (9 - taken.length) :=
            Nat.mul_lt_mul_of_pos_right value (Nat.pow_pos (by decide))
        _ = 10 ^ 9 := by rw [← Nat.pow_add, Nat.add_sub_cancel' few]
  · cases h
    decide

theorem gives_offsetAmount (between : Scan Unit) :
    Gives (offsetAmount between) fun seconds => seconds % 60 = 0 := by
  unfold offsetAmount
  refine .skip fun hours => .skip fun _ => .skip fun minutes => ?_
  split
  · rintro cs a rest ⟨⟩
  · exact gives_pure (by omega)

theorem gives_offset (between : Scan Unit) :
    Gives (offset between) fun seconds => seconds % 60 = 0 := by
  intro cs seconds rest h
  change offset between cs = some (seconds, rest) at h
  unfold offset at h
  split at h
  · cases h
  · split at h
    · cases h
      rfl
    · split at h
      · exact gives_offsetAmount between _ _ _ h
      · split at h
        · rw [StateT.run_map] at h
          obtain ⟨⟨amount, rest'⟩, read, same⟩ := Option.map_eq_some_iff.1 h
          have whole : amount % 60 = 0 := gives_offsetAmount between _ _ _ read
          cases same
          simp only
          omega
        · cases h

theorem gives_looseOffset : Gives looseOffset fun seconds => seconds % 60 = 0 := by
  intro cs seconds rest h
  change looseOffset cs = some (seconds, rest) at h
  unfold looseOffset at h
  split at h
  · cases h
    rfl
  · exact gives_offset _ _ _ _ h

theorem gives_looseFields :
    Gives looseFields fun f => f.nanos < Span.perSecond ∧ f.offset % 60 = 0 := by
  unfold looseFields
  iterate 12 refine .skip fun _ => ?_
  refine .bind gives_fraction fun nanos small => .skip fun _ => ?_
  refine .bind gives_looseOffset fun offset whole => .skip fun _ => ?_
  exact gives_pure ⟨small, whole⟩

theorem named_of_toInstant? {f : Fields} (small : f.nanos < Span.perSecond)
    (whole : f.offset % 60 = 0) (h : f.toInstant? = some i) : i.Named := by
  unfold Fields.toInstant? at h
  extract_lets second nanos localSeconds seconds at h
  split at h
  · split at h
    · rename_i reached
      cases h
      refine ⟨reached.1, reached.2, ?_⟩
      by_cases leap : f.second = 60
      · simp only [nanos, second, seconds, localSeconds, if_pos leap]
        right
        omega
      · simp only [nanos, if_neg leap]
        exact .inl small
    · cases h
  · cases h

theorem named_of_read? {text : String} (h : read? text = some i) : i.Named := by
  obtain ⟨⟨fields, rest⟩, read, named⟩ := Option.bind_eq_some_iff.1 h
  obtain ⟨small, whole⟩ := gives_looseFields _ _ _ read
  dsimp only at named
  split at named
  · exact named_of_toInstant? small whole named
  · cases named

end Rfc3339
end InfraOperator
