import TaskBoard.Instant.Calendar

/-!
# Reading a day count back

A count of days is split into eras of 400 years, the era's day into a year and a day of the year,
and that into a month and a day. Here the parts are bounded and put together again.

* `dayNumber_ofDayNumber`: the date of a day count has that day count;
* `isValid_ofDayNumber`: it is a date of the calendar.
-/

namespace TaskBoard

/-! ## The year of an era

`d` is the day of an era, and `y` the year that it falls in. Years start in March, so a leap day is
the 366th and last of its year. -/

section Era

variable {d y : Int}

/-- The year has the century of the day; the last day of an era is still in its fourth century. -/
theorem century_eq (h0 : 0 ≤ d) (h1 : d < 146097)
    (hy : y = (d - d / 1460 + d / 36524 - d / 146096) / 365) :
    y / 100 = d / 36524 - d / 146096 := by
  have hg : d / 36524 = 0 ∨ d / 36524 = 1 ∨ d / 36524 = 2 ∨ d / 36524 = 3 ∨ d = 146096 := by
    omega
  rcases hg with h | h | h | h | h <;> omega

theorem yearOfEra_bounds (h0 : 0 ≤ d) (h1 : d < 146097)
    (hy : y = (d - d / 1460 + d / 36524 - d / 146096) / 365) : 0 ≤ y ∧ y ≤ 399 := by
  omega

theorem dayOfYear_bounds (h0 : 0 ≤ d) (h1 : d < 146097)
    (hy : y = (d - d / 1460 + d / 36524 - d / 146096) / 365) :
    0 ≤ d - (365 * y + y / 4 - y / 100) ∧ d - (365 * y + y / 4 - y / 100) ≤ 365 := by
  have hlow : y / 4 ≤ d / 1460 := by omega
  have hhigh : d / 1460 ≤ y / 4 + 1 := by omega
  have hcentury := century_eq h0 h1 hy
  constructor
  · omega
  · omega

/-- Only a leap year has a day 365; its February belongs to the next year of the calendar. -/
theorem isLeapYear_of_dayOfYear_eq (h0 : 0 ≤ d) (h1 : d < 146097)
    (hy : y = (d - d / 1460 + d / 36524 - d / 146096) / 365)
    (hlast : d - (365 * y + y / 4 - y / 100) = 365) (era : Int) :
    isLeapYear (y + 400 * era + 1) = true := by
  have hcentury := century_eq h0 h1 hy
  have hbound := (yearOfEra_bounds h0 h1 hy).2
  have hquarter : d / 1460 = y / 4 + 1 := by omega
  have hfour : (y + 1) % 4 = 0 := by
    have hr : y % 4 = 0 ∨ y % 4 = 1 ∨ y % 4 = 2 ∨ y % 4 = 3 := by omega
    rcases hr with h | h | h | h <;> omega
  have hhundred : (y + 1) % 100 ≠ 0 ∨ (y + 1) % 400 = 0 := by
    have hg : d / 36524 = 0 ∨ d / 36524 = 1 ∨ d / 36524 = 2 ∨ d / 36524 = 3 ∨ d = 146096 := by
      omega
    rcases hg with h | h | h | h | h <;> omega
  simp only [isLeapYear, Bool.and_eq_true, Bool.or_eq_true, beq_iff_eq, bne_iff_ne]
  omega

end Era

/-! ## The date of a day count -/

/-- The date of a day count has that day count. -/
theorem dayNumber_ofDayNumber (n : Int) : (Date.ofDayNumber n).dayNumber = n := by
  have hd : 0 ≤ (n + 719468) % 146097 ∧ (n + 719468) % 146097 < 146097 := by omega
  have hn : n + 719468 = 146097 * ((n + 719468) / 146097) + (n + 719468) % 146097 := by omega
  generalize hday : (n + 719468) % 146097 = d at hd hn
  generalize hcycle : (n + 719468) / 146097 = era at hn
  obtain ⟨y, hy⟩ : ∃ y, y = (d - d / 1460 + d / 36524 - d / 146096) / 365 := ⟨_, rfl⟩
  have hdoy := dayOfYear_bounds hd.1 hd.2 hy
  have hybound := yearOfEra_bounds hd.1 hd.2 hy
  -- the leap days of whole eras are 97 each
  have hfour : (y + 400 * era) / 4 = y / 4 + 100 * era := by omega
  have hhundred : (y + 400 * era) / 100 = y / 100 + 4 * era := by omega
  have hera : (y + 400 * era) / 400 = era := by omega
  simp only [Date.ofDayNumber, Date.dayNumber, hday, hcycle, ← hy]
  generalize hdy : d - (365 * y + y / 4 - y / 100) = doy at hdoy
  generalize hmonth : (5 * doy + 2) / 153 = m
  have hm : 0 ≤ m ∧ m ≤ 11 := by omega
  by_cases h : m < 10
  · -- March to December
    have hyear : ¬ m + 3 ≤ 2 := by omega
    have hyear' : ¬ (m + 3).toNat ≤ 2 := by omega
    have hback : (((m + 3).toNat + 9) % 12 : Nat) = m := by omega
    simp only [h, if_true, hyear, hyear', if_false, hback, hfour, hhundred, hera]
    omega
  · -- January and February, which are in the next year of the calendar
    have hyear : m - 9 ≤ 2 := by omega
    have hyear' : (m - 9).toNat ≤ 2 := by omega
    have hback : (((m - 9).toNat + 9) % 12 : Nat) = m := by omega
    simp only [h, if_false, hyear, hyear', if_true, hback, Int.add_sub_cancel, hfour, hhundred,
      hera]
    omega

/-- The date of a day count is in the calendar. -/
theorem isValid_ofDayNumber (n : Int) : (Date.ofDayNumber n).isValid = true := by
  have hd : 0 ≤ (n + 719468) % 146097 ∧ (n + 719468) % 146097 < 146097 := by omega
  generalize hday : (n + 719468) % 146097 = d at hd
  generalize hcycle : (n + 719468) / 146097 = era
  obtain ⟨y, hy⟩ : ∃ y, y = (d - d / 1460 + d / 36524 - d / 146096) / 365 := ⟨_, rfl⟩
  have hdoy := dayOfYear_bounds hd.1 hd.2 hy
  have hleap := isLeapYear_of_dayOfYear_eq hd.1 hd.2 hy
  simp only [Date.ofDayNumber, Date.isValid, hday, hcycle, ← hy]
  generalize hdy : d - (365 * y + y / 4 - y / 100) = doy at hdoy hleap
  generalize hmonth : (5 * doy + 2) / 153 = m
  have hm : m = 0 ∨ m = 1 ∨ m = 2 ∨ m = 3 ∨ m = 4 ∨ m = 5 ∨ m = 6 ∨ m = 7 ∨ m = 8 ∨ m = 9
      ∨ m = 10 ∨ m = 11 := by omega
  clear hdy hy hday hcycle
  rcases hm with h | h | h | h | h | h | h | h | h | h | h | h
  case inr.inr.inr.inr.inr.inr.inr.inr.inr.inr.inr =>
    -- February: its 29th is the day 365
    by_cases hlast : doy = 365
    · have hleap' := hleap hlast era
      simp [h, daysInMonth, hleap', hlast]
    · have hday : doy ≤ 364 := by omega
      simp only [h, Bool.and_eq_true, decide_eq_true_eq]
      simp [daysInMonth]
      split <;> omega
  all_goals
    simp only [h, Bool.and_eq_true, decide_eq_true_eq]
    simp [daysInMonth]
    omega

/-- The years of a hundred million days before and after 1970. -/
theorem year_ofDayNumber_bounds {n : Int} (h0 : -100000000 ≤ n) (h1 : n ≤ 100000000) :
    -300000 ≤ (Date.ofDayNumber n).year ∧ (Date.ofDayNumber n).year ≤ 300000 := by
  have hd : 0 ≤ (n + 719468) % 146097 ∧ (n + 719468) % 146097 < 146097 := by omega
  generalize hday : (n + 719468) % 146097 = d at hd
  obtain ⟨y, hy⟩ : ∃ y, y = (d - d / 1460 + d / 36524 - d / 146096) / 365 := ⟨_, rfl⟩
  have hybound := yearOfEra_bounds hd.1 hd.2 hy
  simp only [Date.ofDayNumber, hday, ← hy]
  split <;> omega

end TaskBoard
