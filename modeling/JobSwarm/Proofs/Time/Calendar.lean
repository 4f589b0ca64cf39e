import JobSwarm.Time.Calendar

/-!
# Days and dates

Counting days and naming dates undo each other. A day of an era is found by its century, its cycle
of four years, its year and its day of the year. Years run from March, so a leap day comes last.

Results:

* `Date.exists_ofDays`: the date of a day exists.
* `Date.toDays_ofDays`: the date of a day lies on that day.
-/

namespace JobSwarm.Time

/-! ## Places in an era -/

/-- Where a day of an era lies, by what is full before it: centuries, cycles of the century, years
of the cycle, days of the year. Only the last year of a cycle has a day 365, and the last cycle of a
century only if the century ends the era. -/
structure Place where
  century : Int
  cycle : Int
  year : Int
  day : Nat
  century_bounds : 0 ≤ century ∧ century ≤ 3
  cycle_bounds : 0 ≤ cycle ∧ cycle ≤ 24
  year_bounds : 0 ≤ year ∧ year ≤ 3
  day_le : day ≤ 365
  leap : day = 365 → year = 3 ∧ (cycle = 24 → century = 3)

namespace Place

variable (p : Place) (era : Int)

def dayOfCentury : Int :=
  1461 * p.cycle + 365 * p.year + p.day

def dayOfEra : Int :=
  36524 * p.century + p.dayOfCentury

def yearOfEra : Int :=
  100 * p.century + 4 * p.cycle + p.year

/-- Every day of an era has its place. -/
theorem exists_dayOfEra {d : Int} (low : 0 ≤ d) (high : d < 146097) :
    ∃ p : Place, p.dayOfEra = d := by
  obtain ⟨c, hc⟩ : ∃ c, c = min (d / 36524) 3 := ⟨_, rfl⟩
  obtain ⟨r, hr⟩ : ∃ r, r = d - 36524 * c := ⟨_, rfl⟩
  have century : 0 ≤ c ∧ c ≤ 3 := by omega
  have rest : 0 ≤ r ∧ r ≤ 36524 ∧ (c < 3 → r < 36524) := by omega
  have cycle : 0 ≤ r / 1461 ∧ r / 1461 ≤ 24 := by omega
  have year : 0 ≤ min (r % 1461 / 365) 3 ∧ min (r % 1461 / 365) 3 ≤ 3 := by omega
  refine ⟨⟨c, r / 1461, min (r % 1461 / 365) 3, (r % 1461 - 365 * min (r % 1461 / 365) 3).toNat,
    century, cycle, year, by omega, fun last => ⟨by omega, by omega⟩⟩, ?_⟩
  simp only [dayOfEra, dayOfCentury]
  omega

theorem dayOfCentury_bounds : 0 ≤ p.dayOfCentury ∧
    (p.dayOfCentury < 36524 ∨ p.dayOfCentury = 36524 ∧ p.century = 3) := by
  have cycle := p.cycle_bounds
  have year := p.year_bounds
  have day := p.day_le
  have leap := p.leap
  simp only [dayOfCentury]
  omega

theorem dayOfEra_bounds : 0 ≤ p.dayOfEra ∧ p.dayOfEra < 146097 := by
  have century := p.century_bounds
  have rest := p.dayOfCentury_bounds
  simp only [dayOfEra]
  omega

theorem yearOfEra_bounds : 0 ≤ p.yearOfEra ∧ p.yearOfEra < 400 := by
  have century := p.century_bounds
  have cycle := p.cycle_bounds
  have year := p.year_bounds
  simp only [yearOfEra]
  omega

/-- A year of an era begins a day late for every leap day before it. -/
theorem dayOfEra_eq :
    p.dayOfEra = 365 * p.yearOfEra + p.yearOfEra / 4 - p.yearOfEra / 100 + p.day := by
  have cycle := p.cycle_bounds
  have year := p.year_bounds
  have cycles : p.yearOfEra / 4 = 25 * p.century + p.cycle := by
    simp only [yearOfEra]
    omega
  have centuries : p.yearOfEra / 100 = p.century := by
    simp only [yearOfEra]
    omega
  rw [cycles, centuries, yearOfEra, dayOfEra, dayOfCentury]
  omega

/-- How the year of an era is found from the day. -/
theorem yearOfEra_eq :
    (p.dayOfEra - p.dayOfEra / 1460 + p.dayOfEra / 36524 - p.dayOfEra / 146096) / 365 =
      p.yearOfEra := by
  have century := p.century_bounds
  have rest := p.dayOfCentury_bounds
  -- the last day of the era is the only one beyond its full centuries
  have centuries : p.dayOfEra / 36524 - p.dayOfEra / 146096 = p.century := by
    simp only [dayOfEra]
    omega
  have cycles : p.dayOfEra / 1460 = 25 * p.century + (24 * p.century + p.dayOfCentury) / 1460 := by
    simp only [dayOfEra]
    omega
  have cycle := p.cycle_bounds
  have year := p.year_bounds
  have day := p.day_le
  have leap := p.leap
  simp only [dayOfEra, dayOfCentury, yearOfEra] at centuries cycles ⊢
  omega

/-- The leap day that ends a year from March belongs to a leap year. -/
theorem isLeapYear_of_day (h : p.day = 365) :
    isLeapYear (p.yearOfEra + era * 400 + 1) = true := by
  have century := p.century_bounds
  have cycle := p.cycle_bounds
  obtain ⟨year, last⟩ := p.leap h
  simp only [isLeapYear, yearOfEra, Bool.and_eq_true, Bool.or_eq_true, beq_iff_eq, bne_iff_ne]
  omega

end Place

/-! ## Months -/

/-- The month of a day of the year, counted from March. -/
def monthOfDay (u : Nat) : Nat :=
  (5 * u + 2) / 153

/-- The day of the month of a day of the year. -/
def dayOfMonth (u : Nat) : Nat :=
  u - (153 * monthOfDay u + 2) / 5 + 1

/-- The number of a month that is counted from March. -/
def monthNumber (m : Nat) : Nat :=
  if m < 10 then m + 3 else m - 9

theorem daysInMonth_of_ne_two (a b : Int) {month : Nat} (h : month ≠ 2) :
    daysInMonth a month = daysInMonth b month := by
  simp only [daysInMonth]
  split <;> simp_all

/-- No February is shorter than that of the first year. -/
theorem february_le (year : Int) : daysInMonth 1 2 ≤ daysInMonth year 2 := by
  show 28 ≤ if isLeapYear year then 29 else 28
  split <;> decide

theorem monthOfDay_spec : ∀ u < 366, monthOfDay u ≤ 11 ∧ (153 * monthOfDay u + 2) / 5 ≤ u ∧
    (dayOfMonth u ≤ daysInMonth 1 (monthNumber (monthOfDay u)) ∨
      u = 365 ∧ monthNumber (monthOfDay u) = 2 ∧ dayOfMonth u = 29) := by
  decide +kernel

/-! ## Dates -/

namespace Place

variable (p : Place) (era : Int)

/-- The date of a place in an era. -/
def date : Date :=
  let month := monthNumber (monthOfDay p.day)
  ⟨if month ≤ 2 then p.yearOfEra + era * 400 + 1 else p.yearOfEra + era * 400, month,
    dayOfMonth p.day⟩

theorem toDays_date : (p.date era).toDays = era * 146097 + p.dayOfEra - 719468 := by
  obtain ⟨least, most⟩ := p.yearOfEra_bounds
  obtain ⟨month, day, -⟩ := monthOfDay_spec p.day (by have := p.day_le; omega)
  have fromMarch : (if monthNumber (monthOfDay p.day) ≤ 2
      then (monthNumber (monthOfDay p.day) : Int) + 9 else monthNumber (monthOfDay p.day) - 3) =
      monthOfDay p.day := by
    simp only [monthNumber]
    split <;> split <;> omega
  rw [p.dayOfEra_eq]
  simp only [Date.toDays, date, dayOfMonth]
  split <;> omega

theorem exists_date : (p.date era).Exists := by
  obtain ⟨-, -, fits | ⟨last, february, day⟩⟩ := monthOfDay_spec p.day (by have := p.day_le; omega)
  · refine ⟨Nat.le_add_left .., Nat.le_trans fits ?_⟩
    by_cases february : monthNumber (monthOfDay p.day) = 2
    · simp only [date, february]
      exact february_le _
    · exact Nat.le_of_eq (daysInMonth_of_ne_two _ _ february)
  · simp only [Date.Exists, date, february, day]
    simp [daysInMonth, p.isLeapYear_of_day era last]

theorem ofDays_eq_date {n : Int} (h : n = era * 146097 + p.dayOfEra - 719468) :
    Date.ofDays n = p.date era := by
  obtain ⟨least, most⟩ := p.dayOfEra_bounds
  have inEra : (n + 719468) / 146097 = era ∧ (n + 719468) % 146097 = p.dayOfEra := by omega
  have ofYear : p.dayOfEra - (365 * p.yearOfEra + p.yearOfEra / 4 - p.yearOfEra / 100) = p.day := by
    have := p.dayOfEra_eq
    omega
  have fromMarch : (5 * (p.day : Int) + 2) / 153 = monthOfDay p.day := by
    simp only [monthOfDay]
    omega
  obtain ⟨-, day, -⟩ := monthOfDay_spec p.day (by have := p.day_le; omega)
  simp only [Date.ofDays, inEra.1, inEra.2, p.yearOfEra_eq, ofYear, fromMarch, date]
  simp only [dayOfMonth, monthNumber, Date.mk.injEq]
  refine ⟨?_, ?_, ?_⟩ <;> (repeat' split) <;> omega

end Place

namespace Date

/-- Months and days have at most two digits. -/
theorem Exists.bounds {d : Date} (h : d.Exists) : d.month ≤ 12 ∧ d.day ≤ 31 := by
  obtain ⟨first, last⟩ := h
  revert last
  simp only [daysInMonth]
  split <;> (try split) <;> omega

theorem ofDays_eq (n : Int) :
    ∃ (p : Place) (era : Int), n = era * 146097 + p.dayOfEra - 719468 ∧ ofDays n = p.date era := by
  obtain ⟨p, hp⟩ := Place.exists_dayOfEra (d := (n + 719468) % 146097) (by omega) (by omega)
  have day : n = (n + 719468) / 146097 * 146097 + p.dayOfEra - 719468 := by omega
  exact ⟨p, _, day, p.ofDays_eq_date _ day⟩

/-- The date of a day exists. -/
theorem exists_ofDays (n : Int) : (ofDays n).Exists := by
  obtain ⟨p, era, -, h⟩ := ofDays_eq n
  exact h ▸ p.exists_date era

/-- The date of a day lies on that day. -/
theorem toDays_ofDays (n : Int) : (ofDays n).toDays = n := by
  obtain ⟨p, era, day, h⟩ := ofDays_eq n
  rw [h, p.toDays_date, ← day]

end Date

end JobSwarm.Time
