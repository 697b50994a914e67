import InfraGraph.Calendar
import Mathlib.Algebra.BigOperators.Intervals
import Mathlib.Algebra.Order.BigOperators.Group.Finset
import Mathlib.Tactic.IntervalCases

/-!
# The date of a day

A date is computed from a number of days through years that begin in March and eras of 400 years.
The calendar itself is said by the lengths of its years and months.  Main statements:

* `IsLeap`, `yearLength`, `monthLength` — the rules of the calendar, and `Date.Valid`, the dates
  that it has;
* `Date.dayNumber` — days from the first day of 1970 to a date, year by year and month by month;
* `Date.yearOfEra_eq` — the year of an era, from its centuries, cycles of four years and years;
* `Date.valid_ofDays`, `Date.dayNumber_ofDays` — the date of a day is in the calendar, and as many
  days after the first one;
* `Date.Valid.dayNumber_lt_of_year` and its like for months and days — later dates have larger
  numbers.
-/

namespace InfraGraph
namespace Calendar

/-! ## The rules of the calendar -/

/-- Every fourth year is a leap year, but of the full centuries only every fourth. -/
def IsLeap (year : Nat) : Prop := 4 ∣ year ∧ (¬100 ∣ year ∨ 400 ∣ year)

instance : DecidablePred IsLeap := fun _ => inferInstanceAs (Decidable (_ ∧ _))

def leapDays (year : Nat) : Nat := if IsLeap year then 1 else 0

def yearLength (year : Nat) : Nat := 365 + leapDays year

/-- Days of a month of a year, the first month being January. -/
def monthLength (year month : Nat) : Nat :=
  match month with
  | 2 => 28 + leapDays year
  | 4 | 6 | 9 | 11 => 30
  | _ => 31

theorem leapDays_cases (year : Nat) :
    leapDays year = 1 ∧ year % 4 = 0 ∧ (year % 100 ≠ 0 ∨ year % 400 = 0) ∨
      leapDays year = 0 ∧ ¬(year % 4 = 0 ∧ (year % 100 ≠ 0 ∨ year % 400 = 0)) := by
  unfold leapDays
  by_cases h : IsLeap year
  · rw [if_pos h]
    unfold IsLeap at h
    omega
  · rw [if_neg h]
    unfold IsLeap at h
    omega

theorem monthLength_le (year month : Nat) : monthLength year month ≤ 31 := by
  have hleap := leapDays_cases year
  unfold monthLength
  split <;> omega

/-- Leap days of the years from 1 up to a year. -/
def leapsUpTo (year : Nat) : Nat := year / 4 + year / 400 - year / 100

/-- The leap days up to a year are counted year by year. -/
theorem leapsUpTo_succ (year : Nat) :
    leapsUpTo (year + 1) = leapsUpTo year + leapDays (year + 1) := by
  have hleap := leapDays_cases (year + 1)
  unfold leapsUpTo
  omega

theorem leapsUpTo_mono : Monotone leapsUpTo :=
  monotone_nat_of_le_succ fun year => by
    rw [leapsUpTo_succ]
    exact Nat.le_add_right _ _

namespace Date

/-- The date is in the calendar. -/
structure Valid (d : Date) : Prop where
  month_pos : 1 ≤ d.month
  month_le : d.month ≤ 12
  day_pos : 1 ≤ d.day
  day_le : d.day ≤ monthLength d.year d.month

/-- Days from the first day of 1970 to a later date: those of the years before its year, of the
months of its year before its month, and of its month before its day. -/
def dayNumber (d : Date) : Nat :=
  ∑ year ∈ Finset.Ico 1970 d.year, yearLength year +
    ∑ month ∈ Finset.Ico 1 d.month, monthLength d.year month + (d.day - 1)

/-- The years up to 1969 have 719162 days. -/
theorem sum_yearLength {year : Nat} (h : 1969 ≤ year) :
    ∑ y ∈ Finset.Ico 1970 (year + 1), yearLength y + 719162 = 365 * year + leapsUpTo year := by
  induction year, h using Nat.le_induction with
  | base => simp [leapsUpTo]
  | succ year h ih =>
      rw [Finset.sum_Ico_succ_top (by omega), leapsUpTo_succ, yearLength]
      omega

/-- The lengths of the months from March to December. -/
theorem monthLength_add_three (year : Nat) {month : Nat} (h : month ≤ 9) :
    monthLength year (month + 3) + daysBeforeMonth month = daysBeforeMonth (month + 1) := by
  interval_cases month <;> rfl

/-- From March on, the days before a month are counted from the end of February. -/
theorem sum_monthLength (year : Nat) {month : Nat} (h : month ≤ 9) :
    ∑ m ∈ Finset.Ico 1 (month + 3), monthLength year m =
      59 + leapDays year + daysBeforeMonth month := by
  induction month with
  | zero =>
      -- January and February
      simp [Finset.sum_Ico_succ_top, monthLength, daysBeforeMonth]
      omega
  | succ month ih =>
      have hlength := monthLength_add_three year (show month ≤ 9 by omega)
      rw [Finset.sum_Ico_succ_top (by omega), ih (by omega)]
      omega

/-! ## Years that begin in March -/

/-- The date of a day of a year that begins in March. -/
def ofMarch (year dayOfYear : Nat) : Date :=
  let marchMonth := (5 * dayOfYear + 2) / 153
  let month := if marchMonth < 10 then marchMonth + 3 else marchMonth - 9
  ⟨year + if month ≤ 2 then 1 else 0, month, dayOfYear - daysBeforeMonth marchMonth + 1⟩

variable {year dayOfYear : Nat}

/-- A day of a year that begins in March stands in one of the months up to December, or in January
or February of the next year. -/
theorem ofMarch_cases (year : Nat) (h : dayOfYear ≤ 365) :
    (∃ month day, month ≤ 9 ∧ day < monthLength year (month + 3) ∧
        dayOfYear = daysBeforeMonth month + day ∧
        ofMarch year dayOfYear = ⟨year, month + 3, day + 1⟩) ∨
      (∃ day, day < 31 ∧ dayOfYear = 306 + day ∧
        ofMarch year dayOfYear = ⟨year + 1, 1, day + 1⟩) ∨
      ∃ day, day < 29 ∧ dayOfYear = 337 + day ∧
        ofMarch year dayOfYear = ⟨year + 1, 2, day + 1⟩ := by
  have hmonth : (5 * dayOfYear + 2) / 153 ≤ 9 ∨ (5 * dayOfYear + 2) / 153 = 10 ∨
      (5 * dayOfYear + 2) / 153 = 11 := by omega
  rcases hmonth with hmonth | hmonth | hmonth
  · left
    have hlength := monthLength_add_three year hmonth
    refine ⟨(5 * dayOfYear + 2) / 153, dayOfYear - daysBeforeMonth ((5 * dayOfYear + 2) / 153),
      hmonth, ?_, ?_, ?_⟩
    · unfold daysBeforeMonth at hlength ⊢
      omega
    · unfold daysBeforeMonth
      omega
    · have hlt : (5 * dayOfYear + 2) / 153 < 10 := by omega
      simp [ofMarch, hlt]
  · right; left
    exact ⟨dayOfYear - 306, by omega, by omega, by simp [ofMarch, hmonth, daysBeforeMonth]⟩
  · right; right
    exact ⟨dayOfYear - 337, by omega, by omega, by simp [ofMarch, hmonth, daysBeforeMonth]⟩

/-- The last day of February is there in leap years only. -/
theorem valid_ofMarch (h : dayOfYear ≤ 364 + leapDays (year + 1)) :
    (ofMarch year dayOfYear).Valid := by
  have hleap := leapDays_cases (year + 1)
  rcases ofMarch_cases year (show dayOfYear ≤ 365 by omega) with
    ⟨month, day, hmonth, hday, -, hdate⟩ | ⟨day, hday, -, hdate⟩ | ⟨day, -, hyear, hdate⟩
  · rw [hdate]
    exact ⟨by simp, by simpa using hmonth, by simp, hday⟩
  · rw [hdate]
    exact ⟨by simp, by simp, by simp, hday⟩
  · rw [hdate]
    refine ⟨by simp, by simp, by simp, ?_⟩
    show day + 1 ≤ 28 + leapDays (year + 1)
    omega

/-- Days up to a day of a year that begins in March, from 1970 on. -/
theorem dayNumber_ofMarch (year : Nat) (h : dayOfYear ≤ 365)
    (hepoch : epoch ≤ 365 * year + leapsUpTo year + dayOfYear) :
    1970 ≤ (ofMarch year dayOfYear).year ∧
      (ofMarch year dayOfYear).dayNumber + epoch = 365 * year + leapsUpTo year + dayOfYear := by
  unfold epoch at hepoch ⊢
  have hearly : year ≤ 1969 → leapsUpTo year ≤ 477 := fun hle => leapsUpTo_mono hle
  rcases ofMarch_cases year h with
    ⟨month, day, hmonth, hday, hyear, hdate⟩ | ⟨day, hday, hyear, hdate⟩ | ⟨day, hday, hyear, hdate⟩
  · -- no month from March on is in a year before 1970
    have hlater : 1970 ≤ year := by
      have hdays := monthLength_add_three year hmonth
      unfold daysBeforeMonth at hyear hdays
      omega
    obtain ⟨last, rfl⟩ : ∃ last, year = last + 1 := ⟨year - 1, by omega⟩
    have hsum := sum_yearLength (show 1969 ≤ last by omega)
    rw [hdate, dayNumber, leapsUpTo_succ]
    simp only [sum_monthLength (last + 1) hmonth]
    omega
  all_goals
    have hsum := sum_yearLength (show 1969 ≤ year by omega)
    have hmonths : ∑ m ∈ Finset.Ico 1 1, monthLength (year + 1) m = 0 ∧
        ∑ m ∈ Finset.Ico 1 2, monthLength (year + 1) m = 31 := ⟨by simp, by simp [monthLength]⟩
    rw [hdate, dayNumber]
    simp only [hmonths]
    omega

/-! ## Eras of 400 years -/

/-- A day of an era, by its century, cycle of four years in the century, year in the cycle and day
in the year.  A day 365 is there at the end of a cycle only, and at the end of a century only if it
is the last of the era. -/
structure InEra (century cycle year day : Nat) : Prop where
  century_le : century ≤ 3
  cycle_le : cycle ≤ 24
  year_le : year ≤ 3
  day_le : day ≤ 365
  last : day = 365 → year = 3 ∧ (cycle < 24 ∨ century = 3)

/-- Every day of an era has a century, a cycle, a year and a day. -/
theorem exists_inEra {dayOfEra : Nat} (h : dayOfEra < eraDays) :
    ∃ century cycle year day, InEra century cycle year day ∧
      dayOfEra = 36524 * century + (1461 * cycle + 365 * year + day) := by
  unfold eraDays at h
  -- only the last century has as many days as this
  have hcentury : ∃ century rest, dayOfEra = 36524 * century + rest ∧ century ≤ 3 ∧
      rest ≤ 36524 ∧ (rest = 36524 → century = 3) := by
    by_cases hlast : dayOfEra = 146096
    · exact ⟨3, 36524, by omega⟩
    · exact ⟨dayOfEra / 36524, dayOfEra % 36524, by omega⟩
  obtain ⟨century, rest, rfl, hle, hrest, hthird⟩ := hcentury
  by_cases hlast : rest % 1461 = 1460
  · exact ⟨century, rest / 1461, 3, 365, ⟨hle, by omega, by omega, by omega, by omega⟩, by omega⟩
  · exact ⟨century, rest / 1461, rest % 1461 / 365, rest % 1461 % 365,
      ⟨hle, by omega, by omega, by omega, by omega⟩, by omega⟩

variable {century cycle day : Nat}

/-- The year of an era is computed without looking for the century and the cycle. -/
theorem yearOfEra_eq (h : InEra century cycle year day) :
    yearOfEra (36524 * century + (1461 * cycle + 365 * year + day)) =
      100 * century + 4 * cycle + year := by
  obtain ⟨hcentury, hcycle, hyear, hday, hlast⟩ := h
  by_cases hend : 1461 * cycle + 365 * year + day = 36524
  · -- the last day of the era
    obtain ⟨rfl, rfl, rfl⟩ : cycle = 24 ∧ year = 3 ∧ century = 3 := by omega
    rw [hend]
    rfl
  have hera : (36524 * century + (1461 * cycle + 365 * year + day)) / 146096 = 0 := by omega
  have hcenturies :
      (36524 * century + (1461 * cycle + 365 * year + day)) / 36524 = century := by omega
  have hcycles : (36524 * century + (1461 * cycle + 365 * year + day)) / 1460 =
      25 * century + cycle + (24 * century + cycle + 365 * year + day) / 1460 := by omega
  -- the correction for cycles comes one too early, but not before the last year of the cycle
  have hearly : 24 * century + cycle + 365 * year + day < 1460 ∧ day ≤ 364 ∨
      1460 ≤ 24 * century + cycle + 365 * year + day ∧ 1 ≤ day := by omega
  unfold yearOfEra
  rw [hcycles, hcenturies, hera]
  rcases hearly with ⟨hbefore, hle⟩ | ⟨hafter, hpos⟩
  · rw [Nat.div_eq_of_lt hbefore]
    omega
  · have hone : (24 * century + cycle + 365 * year + day) / 1460 = 1 := by omega
    rw [hone]
    omega

/-- Days before a year of an era, by century, cycle and year. -/
theorem daysBeforeYear_eq (h : InEra century cycle year day) :
    daysBeforeYear (100 * century + 4 * cycle + year) =
      36524 * century + (1461 * cycle + 365 * year) := by
  obtain ⟨hcentury, hcycle, hyear, -, -⟩ := h
  unfold daysBeforeYear
  omega

/-- A day of an era is in its year. -/
theorem day_of_yearOfEra {dayOfEra : Nat} (h : dayOfEra < eraDays) :
    yearOfEra dayOfEra < 400 ∧ daysBeforeYear (yearOfEra dayOfEra) ≤ dayOfEra ∧
      dayOfEra - daysBeforeYear (yearOfEra dayOfEra) ≤ 365 := by
  obtain ⟨century, cycle, year, day, hera, rfl⟩ := exists_inEra h
  rw [yearOfEra_eq hera, daysBeforeYear_eq hera]
  obtain ⟨hcentury, hcycle, hyear, hday, -⟩ := hera
  omega

/-- A day 365 is there in years before a leap year only, as February comes last. -/
theorem InEra.day_le_leapDays (h : InEra century cycle year day) (era : Nat) :
    day ≤ 364 + leapDays (100 * century + 4 * cycle + year + era * 400 + 1) := by
  obtain ⟨hcentury, hcycle, hyear, hday, hlast⟩ := h
  rcases leapDays_cases (100 * century + 4 * cycle + year + era * 400 + 1) with hleap | hleap
  · omega
  · by_contra hlong
    obtain ⟨rfl, hend⟩ := hlast (by omega)
    omega

/-- A date is that of a day of a year that begins in March. -/
theorem exists_ofMarch (days : Nat) :
    ∃ year dayOfYear, ofDays days = ofMarch year dayOfYear ∧
      dayOfYear ≤ 364 + leapDays (year + 1) ∧
      days + epoch = 365 * year + leapsUpTo year + dayOfYear := by
  obtain ⟨century, cycle, year, day, hera, hday⟩ :=
    exists_inEra (Nat.mod_lt (days + epoch) (show 0 < eraDays by decide))
  have hyear : yearOfEra ((days + epoch) % eraDays) = 100 * century + 4 * cycle + year := by
    rw [hday, yearOfEra_eq hera]
  have hdayOfYear : (days + epoch) % eraDays - daysBeforeYear (100 * century + 4 * cycle + year) =
      day := by
    rw [daysBeforeYear_eq hera, hday]
    omega
  refine ⟨100 * century + 4 * cycle + year + (days + epoch) / eraDays * 400, day, ?_,
    hera.day_le_leapDays _, ?_⟩
  · simp only [ofDays, hyear, hdayOfYear, ofMarch]
  · have hsplit := Nat.div_add_mod (days + epoch) eraDays
    obtain ⟨hcentury, hcycle, hyear, -, -⟩ := hera
    unfold eraDays at hsplit hday ⊢
    unfold leapsUpTo
    omega

/-! ## The date of a day -/

/-- The date of a number of days is in the calendar. -/
theorem valid_ofDays (days : Nat) : (ofDays days).Valid := by
  obtain ⟨year, dayOfYear, hdate, hle, -⟩ := exists_ofMarch days
  rw [hdate]
  exact valid_ofMarch hle

/-- There are no more years than days. -/
theorem year_ofDays_le (days : Nat) : (ofDays days).year ≤ days + epoch := by
  obtain ⟨year, dayOfYear, hdate, hle, hdays⟩ := exists_ofMarch days
  have hleap := leapDays_cases (year + 1)
  have hepoch : epoch = 719468 := rfl
  rw [hdate]
  rcases ofMarch_cases year (show dayOfYear ≤ 365 by omega) with
    ⟨month, day, -, -, -, hmarch⟩ | ⟨day, -, -, hmarch⟩ | ⟨day, -, -, hmarch⟩
  all_goals
    rw [hmarch]
    dsimp only
    omega

/-- Counting the days of a date gives back the number that it was made from. -/
theorem le_year_and_dayNumber_ofDays (days : Nat) :
    1970 ≤ (ofDays days).year ∧ (ofDays days).dayNumber = days := by
  obtain ⟨year, dayOfYear, hdate, hle, hdays⟩ := exists_ofMarch days
  have hleap := leapDays_cases (year + 1)
  obtain ⟨hlater, hnumber⟩ :=
    dayNumber_ofMarch year (show dayOfYear ≤ 365 by omega) (by omega)
  rw [hdate]
  exact ⟨hlater, by omega⟩

/-- No date is before 1970. -/
theorem le_year_ofDays (days : Nat) : 1970 ≤ (ofDays days).year :=
  (le_year_and_dayNumber_ofDays days).1

/-- The date of a day is as many days after the first day of 1970. -/
theorem dayNumber_ofDays (days : Nat) : (ofDays days).dayNumber = days :=
  (le_year_and_dayNumber_ofDays days).2

/-! ## Later dates -/

variable {d e : Date}

/-- What comes before a later place of a sum has this place in it. -/
theorem sum_Ico_add_le {f : Nat → Nat} {start a b : Nat} (hstart : start ≤ a) (h : a < b) :
    ∑ n ∈ Finset.Ico start a, f n + f a ≤ ∑ n ∈ Finset.Ico start b, f n := by
  rw [← Finset.sum_Ico_succ_top hstart]
  exact Finset.sum_le_sum_of_subset (Finset.Ico_subset_Ico_right h)

/-- The months of a year have its days. -/
theorem sum_monthLength_year (year : Nat) :
    ∑ m ∈ Finset.Ico 1 13, monthLength year m = yearLength year := by
  rw [Finset.sum_Ico_succ_top (by decide), sum_monthLength year (show 9 ≤ 9 by decide)]
  simp [daysBeforeMonth, monthLength, yearLength]
  omega

/-- A date of a later year has a higher number. -/
theorem Valid.dayNumber_lt_of_year (hd : d.Valid) (h1970 : 1970 ≤ d.year) (h : d.year < e.year) :
    d.dayNumber < e.dayNumber := by
  have hyears := sum_Ico_add_le (f := yearLength) h1970 h
  have hmonths := sum_Ico_add_le (f := monthLength d.year) hd.month_pos
    (show d.month < 13 from Nat.lt_of_le_of_lt hd.month_le (by decide))
  have hyear := sum_monthLength_year d.year
  have hpos := hd.day_pos
  have hle := hd.day_le
  unfold dayNumber
  omega

/-- So has a date of a later month of the year. -/
theorem Valid.dayNumber_lt_of_month (hd : d.Valid) (hyear : d.year = e.year)
    (h : d.month < e.month) : d.dayNumber < e.dayNumber := by
  have hmonths := sum_Ico_add_le (f := monthLength d.year) hd.month_pos h
  have hpos := hd.day_pos
  have hle := hd.day_le
  unfold dayNumber
  rw [← hyear]
  omega

/-- So has a later day of the month. -/
theorem Valid.dayNumber_lt_of_day (hd : d.Valid) (hyear : d.year = e.year)
    (hmonth : d.month = e.month) (h : d.day < e.day) : d.dayNumber < e.dayNumber := by
  have hpos := hd.day_pos
  unfold dayNumber
  rw [← hyear, ← hmonth]
  omega

end Date

end Calendar
end InfraGraph
