import BatchRun.Time.Calendar

/-! # Days and dates are the same thing

Every count of days gives a date that the calendar has, and from the date the count can be told. A
count is split into the era of 400 years, the year within it and the day of that year, which begins
in March; a year has a day of number 365 only if its last day is a leap day.
-/

namespace BatchRun.Time

/-- The days of an era before one of its years. -/
def daysBefore (yearOfEra : Int) : Int := 365 * yearOfEra + yearOfEra / 4 - yearOfEra / 100

/-- The year of an era in which one of its days lies. -/
def yearOfEra (dayOfEra : Int) : Int :=
  (dayOfEra - dayOfEra / 1460 + dayOfEra / 36524 - dayOfEra / 146096) / 365

/-- The date of a day of the year, which is counted from the first of March. -/
def Date.ofDayOfYear (year dayOfYear : Int) : Date :=
  let month := (5 * dayOfYear + 2) / 153
  let day := dayOfYear - (153 * month + 2) / 5 + 1
  if month < 10 then ⟨year, (month + 3).toNat, day.toNat⟩
  else ⟨year + 1, (month - 9).toNat, day.toNat⟩

private theorem Date.ofDays_eq (days : Int) :
    let shifted := days + 719468
    let year := yearOfEra (shifted % 146097)
    ofDays days = ofDayOfYear (year + shifted / 146097 * 400)
      (shifted % 146097 - daysBefore year) := rfl

section Era

variable {day : Int}

-- Apart from the very last day of an era, its centuries all have the same number of days.
private theorem century_of_day (low : 0 ≤ day) (high : day < 146096) :
    yearOfEra day / 100 = day / 36524 := by
  have early : day / 36524 = 0 ∨ day / 36524 = 1 ∨ day / 36524 = 2 ∨ day / 36524 = 3 := by omega
  unfold yearOfEra
  rcases early with century | century | century | century <;> rw [century] <;> omega

/-- A day of an era lies in its year, and after 365 days of the year the leap day is left. -/
theorem day_of_year (low : 0 ≤ day) (high : day ≤ 146096) :
    0 ≤ day - daysBefore (yearOfEra day) ∧ day - daysBefore (yearOfEra day) ≤ 365 ∧
      (day - daysBefore (yearOfEra day) = 365 → isLeap (yearOfEra day + 1) = true) := by
  by_cases last : day = 146096
  · subst last
    decide
  · have century := century_of_day low (by omega)
    have within : 365 * yearOfEra day ≤ day - day / 1460 + day / 36524 ∧
        day - day / 1460 + day / 36524 < 365 * yearOfEra day + 365 := by
      unfold yearOfEra
      omega
    unfold daysBefore
    rw [century]
    generalize yearOfEra day = year at *
    -- the days are divided by 1460, as if there were no leap days, so the quotient may be one ahead
    have reached : year / 4 ≤ day / 1460 := by omega
    have ahead : day / 1460 ≤ year / 4 + 1 := by omega
    refine ⟨by omega, by omega, fun leapDay => ?_⟩
    have few : year ≤ 399 := by omega
    have next : day / 1460 = year / 4 + 1 := by omega
    have late : year % 4 = 3 := by omega
    simp only [isLeap, Bool.and_eq_true, beq_iff_eq, Bool.or_eq_true, bne_iff_ne]
    exact ⟨by omega, .inl (by omega)⟩

private theorem yearOfEra_bounds (low : 0 ≤ day) (high : day ≤ 146096) :
    0 ≤ yearOfEra day ∧ yearOfEra day ≤ 399 := by
  unfold yearOfEra
  omega

end Era

private theorem isLeap_add_era (year era : Int) : isLeap (year + era * 400) = isLeap year := by
  have by4 : (year + era * 400) % 4 = year % 4 := by omega
  have by100 : (year + era * 400) % 100 = year % 100 := by omega
  have by400 : (year + era * 400) % 400 = year % 400 := by omega
  simp only [isLeap, by4, by100, by400]

private theorem daysInMonth_le (year : Int) (month : Nat) : daysInMonth year month ≤ 31 := by
  unfold daysInMonth
  repeat' split
  all_goals decide

namespace Date

theorem le_of_isValid (date : Date) (valid : date.isValid = true) :
    date.month ≤ 12 ∧ date.day ≤ 31 := by
  simp only [isValid, Bool.and_eq_true, decide_eq_true_eq] at valid
  obtain ⟨⟨⟨-, months⟩, -⟩, days⟩ := valid
  exact ⟨months, Nat.le_trans days (daysInMonth_le ..)⟩

variable {year dayOfYear : Int}

private theorem month_and_day (low : 0 ≤ dayOfYear) (high : dayOfYear ≤ 365) :
    0 ≤ (5 * dayOfYear + 2) / 153 ∧ (5 * dayOfYear + 2) / 153 ≤ 11 ∧
      0 ≤ dayOfYear - (153 * ((5 * dayOfYear + 2) / 153) + 2) / 5 := by
  omega

private theorem toDays_ofDayOfYear (low : 0 ≤ dayOfYear) (high : dayOfYear ≤ 365) :
    (ofDayOfYear year dayOfYear).toDays =
      year / 400 * 146097 + daysBefore (year % 400) + dayOfYear - 719468 := by
  obtain ⟨first, last, positive⟩ := month_and_day low high
  unfold ofDayOfYear
  dsimp only
  generalize (5 * dayOfYear + 2) / 153 = month at *
  split
  · unfold toDays daysBefore
    dsimp only
    rw [if_neg (by omega)]
    have sameMonth : (((month + 3).toNat : Int) + 9) % 12 = month := by omega
    rw [sameMonth]
    omega
  · unfold toDays daysBefore
    dsimp only
    rw [if_pos (by omega)]
    have sameMonth : (((month - 9).toNat : Int) + 9) % 12 = month := by omega
    rw [sameMonth]
    omega

private theorem isValid_ofDayOfYear (low : 0 ≤ dayOfYear) (high : dayOfYear ≤ 365)
    (leap : dayOfYear = 365 → isLeap (year + 1) = true) :
    (ofDayOfYear year dayOfYear).isValid = true := by
  unfold ofDayOfYear isValid daysInMonth
  generalize months : (5 * dayOfYear + 2) / 153 = month
  simp only [Bool.and_eq_true, decide_eq_true_eq]
  split <;> dsimp only
  · rw [if_neg (by omega)]
    refine ⟨⟨⟨by omega, by omega⟩, by omega⟩, ?_⟩
    split <;> omega
  · refine ⟨⟨⟨by omega, by omega⟩, by omega⟩, ?_⟩
    split
    · split
      · omega
      · rename_i common
        have other : dayOfYear ≠ 365 := mt leap common
        omega
    · rw [if_neg (by omega)]
      omega

/-- The count of days can be told from the date. -/
theorem toDays_ofDays (days : Int) : (ofDays days).toDays = days := by
  have low : 0 ≤ (days + 719468) % 146097 := by omega
  have high : (days + 719468) % 146097 ≤ 146096 := by omega
  obtain ⟨first, last, -⟩ := day_of_year low high
  obtain ⟨since, before⟩ := yearOfEra_bounds low high
  rw [ofDays_eq, toDays_ofDayOfYear first last]
  generalize yearOfEra ((days + 719468) % 146097) = year at *
  have era : (year + (days + 719468) / 146097 * 400) / 400 = (days + 719468) / 146097 := by omega
  have rest : (year + (days + 719468) / 146097 * 400) % 400 = year := by omega
  rw [era, rest]
  omega

/-- Every count of days gives a date that the calendar has. -/
theorem isValid_ofDays (days : Int) : (ofDays days).isValid = true := by
  have low : 0 ≤ (days + 719468) % 146097 := by omega
  have high : (days + 719468) % 146097 ≤ 146096 := by omega
  obtain ⟨first, last, leap⟩ := day_of_year low high
  rw [ofDays_eq]
  refine isValid_ofDayOfYear first last fun leapDay => ?_
  rw [Int.add_right_comm, isLeap_add_era]
  exact leap leapDay

end Date

end BatchRun.Time
