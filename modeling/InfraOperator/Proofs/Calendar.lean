import InfraOperator.Time.Instant

/-!
# The calendar

A day is a date of the proleptic Gregorian calendar: the date counts back to the day
(`Date.toDays_ofDays`), its day is one of its month (`Date.month_ofDays`), and the days of the
calendar have the years of it (`Date.year_ofDays`). Years are taken apart as they are counted, from
March on: eras of 400 years, their centuries, fours of years, and years with their leap day last.
-/

set_option autoImplicit false

namespace InfraOperator.Date

/-- A day of an era of 400 years that begins in March: the century, the four years in it, the year
in those, and the day of that year. A year has a 366th day where the February at its end is that of
a leap year. -/
structure IsDayOfEra (century fours year day : Int) : Prop where
  century_range : 0 ≤ century ∧ century ≤ 3
  fours_range : 0 ≤ fours ∧ fours ≤ 24
  year_range : 0 ≤ year ∧ year ≤ 3
  day_range : 0 ≤ day ∧ day ≤ 365
  leap : day = 365 → year = 3 ∧ (fours = 24 → century = 3)

theorem exists_dayOfEra {d : Int} (h : 0 ≤ d ∧ d < 146097) : ∃ century fours year day,
    IsDayOfEra century fours year day ∧
      d = 36524 * century + 1461 * fours + 365 * year + day := by
  by_cases last : d = 146096
  · exact ⟨3, 24, 3, 365, ⟨by omega, by omega, by omega, by omega, by omega⟩, by omega⟩
  · generalize hc : d / 36524 = c
    generalize hr : d % 36524 = r
    generalize hq : r / 1461 = q
    generalize hs : r % 1461 = s
    by_cases leap : s = 1460
    · exact ⟨c, q, 3, 365, ⟨by omega, by omega, by omega, by omega, by omega⟩, by omega⟩
    · exact ⟨c, q, s / 365, s % 365, ⟨by omega, by omega, by omega, by omega, by omega⟩, by omega⟩

theorem yearOfEra_eq {c q t r d : Int} (h : IsDayOfEra c q t r)
    (hd : d = 36524 * c + 1461 * q + 365 * t + r) :
    (d - d / 1460 + d / 36524 - d / 146096) / 365 = 100 * c + 4 * q + t := by
  obtain ⟨hc, hq, ht, hr, leap⟩ := h
  by_cases last : r = 365
  · obtain ⟨rfl, hq'⟩ := leap last
    by_cases hq24 : q = 24
    · obtain rfl := hq' hq24
      subst hq24 last
      omega
    · subst last
      have h1 : d / 36524 = c := by omega
      have h2 : d / 146096 = 0 := by omega
      have h3 : d / 1460 = 25 * c + q + 1 := by omega
      omega
  · have h1 : d / 36524 = c := by omega
    have h2 : d / 146096 = 0 := by omega
    rw [h1, h2]
    omega

theorem dayOfYear_eq {c q t r d : Int} (h : IsDayOfEra c q t r)
    (hd : d = 36524 * c + 1461 * q + 365 * t + r) :
    d - (365 * (100 * c + 4 * q + t) + (100 * c + 4 * q + t) / 4 -
      (100 * c + 4 * q + t) / 100) = r := by
  obtain ⟨hc, hq, ht, -, -⟩ := h
  have fourth : (100 * c + 4 * q + t) / 4 = 25 * c + q := by omega
  have hundredth : (100 * c + 4 * q + t) / 100 = c := by omega
  omega

/-- Day `r` of a year that begins in March, as a month and a day of it. -/
def monthDay (r : Int) : Int × Int :=
  let month := (5 * r + 2) / 153
  (if month < 10 then month + 3 else month - 9, r - (153 * month + 2) / 5 + 1)

theorem exists_ofDays (n : Int) : ∃ era century fours year day,
    IsDayOfEra century fours year day ∧
      n = 146097 * era + 36524 * century + 1461 * fours + 365 * year + day - 719468 ∧
      ofDays n = ⟨400 * era + 100 * century + 4 * fours + year +
          if (monthDay day).1 ≤ 2 then 1 else 0,
        (monthDay day).1.toNat, (monthDay day).2.toNat⟩ := by
  unfold ofDays
  extract_lets shifted era dayOfEra yearOfEra dayOfYear month day civilMonth
  have range : 0 ≤ dayOfEra ∧ dayOfEra < 146097 := by omega
  have shifted_eq : shifted = 146097 * era + dayOfEra := by omega
  obtain ⟨c, q, t, r, isDay, d_eq⟩ := exists_dayOfEra range
  have year_eq : yearOfEra = 100 * c + 4 * q + t := yearOfEra_eq isDay d_eq
  have day_eq : dayOfYear = r := by
    have eq := dayOfYear_eq isDay d_eq
    rw [← year_eq] at eq
    exact eq
  refine ⟨era, c, q, t, r, isDay, by omega, ?_⟩
  have year_eq' : yearOfEra + era * 400 = 400 * era + 100 * c + 4 * q + t := by omega
  rw [year_eq', ← day_eq]
  rfl

/-- The months of a year that begins in March, each with its first day. -/
theorem monthDay_cases {r : Int} (h : 0 ≤ r ∧ r ≤ 365) : ∃ month day : Nat,
    monthDay r = ((month : Int), (day : Int)) ∧ 1 ≤ month ∧ month ≤ 12 ∧ 1 ≤ day ∧ day ≤ 31 ∧
      (153 * (if month ≤ 2 then (month : Int) + 9 else month - 3) + 2) / 5 + day - 1 = r := by
  unfold monthDay
  extract_lets m
  have range : 0 ≤ m ∧ m ≤ 11 := by omega
  refine ⟨(if m < 10 then m + 3 else m - 9).toNat, (r - (153 * m + 2) / 5 + 1).toNat, ?_⟩
  have back : (if (if m < 10 then m + 3 else m - 9).toNat ≤ 2 then
      ((if m < 10 then m + 3 else m - 9).toNat : Int) + 9
      else ((if m < 10 then m + 3 else m - 9).toNat : Int) - 3) = m := by
    omega
  rw [back]
  refine ⟨Prod.ext (by simp only; omega) (by simp only; omega), by omega, by omega, by omega,
    by omega, by omega⟩

theorem toDays_ofDays (n : Int) : (ofDays n).toDays = n := by
  obtain ⟨era, c, q, t, r, isDay, rfl, date⟩ := exists_ofDays n
  obtain ⟨month, day, md, -, -, -, -, back⟩ := monthDay_cases isDay.day_range
  have march : (if month ≤ 2 then (400 * era + 100 * c + 4 * q + t +
      (if (month : Int) ≤ 2 then 1 else 0)) - 1 else 400 * era + 100 * c + 4 * q + t +
      (if (month : Int) ≤ 2 then 1 else 0)) = 400 * era + (100 * c + 4 * q + t) := by omega
  rw [date, md]
  unfold toDays
  simp only [Int.toNat_natCast, march]
  obtain ⟨hc, hq, ht, -, -⟩ := isDay
  have era_eq : (400 * era + (100 * c + 4 * q + t)) / 400 = era := by omega
  have year_eq : (400 * era + (100 * c + 4 * q + t)) % 400 = 100 * c + 4 * q + t := by omega
  have fourth : (100 * c + 4 * q + t) / 4 = 25 * c + q := by omega
  have hundredth : (100 * c + 4 * q + t) / 100 = c := by omega
  rw [era_eq, year_eq, fourth, hundredth, back]
  omega

theorem monthDay_short {r : Int} {month day : Nat} (h : 0 ≤ r ∧ r ≤ 365)
    (md : monthDay r = ((month : Int), (day : Int))) :
    (month = 4 ∨ month = 6 ∨ month = 9 ∨ month = 11 → day ≤ 30) ∧
      (month = 2 → day ≤ 29 ∧ (day = 29 → r = 365)) := by
  simp only [monthDay, Prod.mk.injEq] at md
  obtain ⟨hm, hd⟩ := md
  omega

theorem isLeap_of_dayOfEra {era c q t : Int} (h : IsDayOfEra c q t 365) :
    isLeap (400 * era + 100 * c + 4 * q + t + 1) = true := by
  obtain ⟨hc, hq, -, -, leap⟩ := h
  obtain ⟨rfl, full⟩ := leap rfl
  simp only [isLeap, Bool.and_eq_true, Bool.or_eq_true, decide_eq_true_eq]
  omega

theorem month_ofDays (n : Int) : 1 ≤ (ofDays n).month ∧ (ofDays n).month ≤ 12 ∧
    1 ≤ (ofDays n).day ∧ (ofDays n).day ≤ monthLength (ofDays n).year (ofDays n).month := by
  obtain ⟨era, c, q, t, r, isDay, -, date⟩ := exists_ofDays n
  obtain ⟨month, day, md, least, greatest, positive, most, -⟩ := monthDay_cases isDay.day_range
  obtain ⟨thirty, february⟩ := monthDay_short isDay.day_range md
  rw [date, md]
  refine ⟨least, greatest, positive, ?_⟩
  simp only [Int.toNat_natCast, monthLength]
  by_cases second : month = 2
  · subst second
    obtain ⟨short, leap⟩ := february rfl
    have winter : ((2 : Nat) : Int) ≤ 2 := by decide
    rw [if_pos rfl, if_pos winter]
    split
    · exact short
    · rename_i common
      have last : day ≠ 29 := by
        intro last
        obtain rfl := leap last
        exact common (isLeap_of_dayOfEra isDay)
      omega
  · rw [if_neg second]
    split
    · rename_i h
      exact thirty h
    · exact most

theorem year_ofDays {n : Int} (h : -96465292 ≤ n ∧ n ≤ 95026236) :
    -262143 ≤ (ofDays n).year ∧ (ofDays n).year ≤ 262142 := by
  obtain ⟨era, c, q, t, r, isDay, days, date⟩ := exists_ofDays n
  rw [date]
  obtain ⟨hc, hq, ht, hr, leap⟩ := isDay
  have low : -262144 ≤ 400 * era + 100 * c + 4 * q + t := by omega
  have high : 400 * era + 100 * c + 4 * q + t ≤ 262142 := by omega
  by_cases first : 400 * era + 100 * c + 4 * q + t = -262144
  · have winter : 306 ≤ r := by omega
    simp only [monthDay]
    omega
  · by_cases last : 400 * era + 100 * c + 4 * q + t = 262142
    · have winter : r ≤ 305 := by omega
      simp only [monthDay]
      omega
    · split
      · simp only
        omega
      · simp only
        omega

end InfraOperator.Date
