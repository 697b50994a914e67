import InfraGraph.Proofs.Calendar.Gregorian

/-!
# The course of a date in machine integers

A date is computed in signed integers of 64 bits.  An operation on these fails where its result is
no such integer.  Main statements:

* `Machine` — the operations, each of which can fail;
* `course?` — the computation of a date, one operation after the other;
* `course?_ofNat` — it does not fail, and every value on the way is the one of `Date.ofDays`;
* `Course.InRange`, `Course.inRange_ofDays` — where these values lie.
-/

namespace InfraGraph
namespace Calendar

/-! ## Operations that can fail -/

namespace Machine

/-- The machine integer of a number, unless the number is too large or too small. -/
def ofInt? (n : Int) : Option Int64 :=
  if Int64.minValue.toInt ≤ n ∧ n ≤ Int64.maxValue.toInt then some (Int64.ofInt n) else none

def add? (a b : Int64) : Option Int64 := ofInt? (a.toInt + b.toInt)

def sub? (a b : Int64) : Option Int64 := ofInt? (a.toInt - b.toInt)

def mul? (a b : Int64) : Option Int64 := ofInt? (a.toInt * b.toInt)

/-- Quotient, rounded toward zero. -/
def div? (a b : Int64) : Option Int64 := if b = 0 then none else ofInt? (a.toInt.tdiv b.toInt)

/-- Quotient that leaves no negative remainder. -/
def divEuclid? (a b : Int64) : Option Int64 := if b = 0 then none else ofInt? (a.toInt / b.toInt)

/-- Remainder that is not negative. -/
def modEuclid? (a b : Int64) : Option Int64 := if b = 0 then none else ofInt? (a.toInt % b.toInt)

variable {m n : Nat}

/-- Numbers below 2 ^ 63 are machine integers. -/
theorem ofInt?_natCast (h : n < 2 ^ 63) : ofInt? n = some (.ofNat n) := by
  have hmin : Int64.minValue.toInt = -9223372036854775808 := rfl
  have hmax : Int64.maxValue.toInt = 9223372036854775807 := rfl
  rw [ofInt?, if_pos (by omega), Int64.ofInt_eq_ofNat]

/-- Sums that stay below 2 ^ 63 are exact, and likewise for the other operations. -/
theorem add?_ofNat (h : m + n < 2 ^ 63) : add? (.ofNat m) (.ofNat n) = some (.ofNat (m + n)) := by
  rw [add?, Int64.toInt_ofNat_of_lt (by omega), Int64.toInt_ofNat_of_lt (by omega),
    ← Int.natCast_add, ofInt?_natCast h]

theorem sub?_ofNat (h : n ≤ m) (hm : m < 2 ^ 63) :
    sub? (.ofNat m) (.ofNat n) = some (.ofNat (m - n)) := by
  rw [sub?, Int64.toInt_ofNat_of_lt hm, Int64.toInt_ofNat_of_lt (by omega), ← Int.natCast_sub h,
    ofInt?_natCast (by omega)]

theorem mul?_ofNat (hm : m < 2 ^ 63) (hn : n < 2 ^ 63) (h : m * n < 2 ^ 63) :
    mul? (.ofNat m) (.ofNat n) = some (.ofNat (m * n)) := by
  rw [mul?, Int64.toInt_ofNat_of_lt hm, Int64.toInt_ofNat_of_lt hn, ← Int.natCast_mul,
    ofInt?_natCast h]

theorem ofNat_ne_zero (hpos : 0 < n) (hn : n < 2 ^ 63) : Int64.ofNat n ≠ 0 := by
  intro h
  have hint := congrArg Int64.toInt h
  rw [Int64.toInt_ofNat_of_lt hn, Int64.toInt_zero] at hint
  omega

theorem div?_ofNat (hm : m < 2 ^ 63) (hpos : 0 < n) (hn : n < 2 ^ 63) :
    div? (.ofNat m) (.ofNat n) = some (.ofNat (m / n)) := by
  rw [div?, if_neg (ofNat_ne_zero hpos hn), Int64.toInt_ofNat_of_lt hm, Int64.toInt_ofNat_of_lt hn,
    ← Int.ofNat_tdiv, ofInt?_natCast (Nat.lt_of_le_of_lt (Nat.div_le_self m n) hm)]

theorem divEuclid?_ofNat (hm : m < 2 ^ 63) (hpos : 0 < n) (hn : n < 2 ^ 63) :
    divEuclid? (.ofNat m) (.ofNat n) = some (.ofNat (m / n)) := by
  rw [divEuclid?, if_neg (ofNat_ne_zero hpos hn), Int64.toInt_ofNat_of_lt hm,
    Int64.toInt_ofNat_of_lt hn, ← Int.natCast_ediv,
    ofInt?_natCast (Nat.lt_of_le_of_lt (Nat.div_le_self m n) hm)]

theorem modEuclid?_ofNat (hm : m < 2 ^ 63) (hpos : 0 < n) (hn : n < 2 ^ 63) :
    modEuclid? (.ofNat m) (.ofNat n) = some (.ofNat (m % n)) := by
  rw [modEuclid?, if_neg (ofNat_ne_zero hpos hn), Int64.toInt_ofNat_of_lt hm,
    Int64.toInt_ofNat_of_lt hn, ← Int.natCast_emod,
    ofInt?_natCast (Nat.lt_of_le_of_lt (Nat.mod_le m n) hm)]

theorem ofNat_lt_ofNat (hm : m < 2 ^ 63) (hn : n < 2 ^ 63) :
    Int64.ofNat m < Int64.ofNat n ↔ m < n := by
  rw [Int64.lt_iff_toInt_lt, Int64.toInt_ofNat_of_lt hm, Int64.toInt_ofNat_of_lt hn, Int.ofNat_lt]

theorem ofNat_le_ofNat (hm : m < 2 ^ 63) (hn : n < 2 ^ 63) :
    Int64.ofNat m ≤ Int64.ofNat n ↔ m ≤ n := by
  rw [Int64.le_iff_toInt_le, Int64.toInt_ofNat_of_lt hm, Int64.toInt_ofNat_of_lt hn, Int.ofNat_le]

end Machine

/-! ## The course -/

open Machine

/-- The values on the way to a date. -/
structure Course where
  shifted : Int64
  era : Int64
  dayOfEra : Int64
  yearOfEra : Int64
  dayOfYear : Int64
  marchMonth : Int64
  day : Int64
  month : Int64
  year : Int64

/-- Year within its era of a day of the era. -/
def yearOfEra? (dayOfEra : Int64) : Option Int64 := do
  let uncycled ← sub? dayOfEra (← div? dayOfEra (.ofNat 1460))
  let centuries ← add? uncycled (← div? dayOfEra (.ofNat 36524))
  div? (← sub? centuries (← div? dayOfEra (.ofNat 146096))) (.ofNat 365)

def daysBeforeYear? (yearOfEra : Int64) : Option Int64 := do
  let cycles ← add? (← mul? (.ofNat 365) yearOfEra) (← div? yearOfEra (.ofNat 4))
  sub? cycles (← div? yearOfEra (.ofNat 100))

def daysBeforeMonth? (marchMonth : Int64) : Option Int64 := do
  div? (← add? (← mul? (.ofNat 153) marchMonth) (.ofNat 2)) (.ofNat 5)

def marchMonth? (dayOfYear : Int64) : Option Int64 := do
  div? (← add? (← mul? (.ofNat 5) dayOfYear) (.ofNat 2)) (.ofNat 153)

def day? (dayOfYear marchMonth : Int64) : Option Int64 := do
  add? (← sub? dayOfYear (← daysBeforeMonth? marchMonth)) (.ofNat 1)

def month? (marchMonth : Int64) : Option Int64 :=
  if marchMonth < .ofNat 10 then add? marchMonth (.ofNat 3) else sub? marchMonth (.ofNat 9)

def year? (yearOfEra era month : Int64) : Option Int64 := do
  let begun ← add? yearOfEra (← mul? era (.ofNat 400))
  add? begun (if month ≤ .ofNat 2 then .ofNat 1 else .ofNat 0)

/-- The date a number of days after the first day of 1970, one operation after the other. -/
def course? (days : Int64) : Option Course := do
  let shifted ← add? days (.ofNat Date.epoch)
  let era ← divEuclid? shifted (.ofNat Date.eraDays)
  let dayOfEra ← modEuclid? shifted (.ofNat Date.eraDays)
  let yearOfEra ← yearOfEra? dayOfEra
  let dayOfYear ← sub? dayOfEra (← daysBeforeYear? yearOfEra)
  let marchMonth ← marchMonth? dayOfYear
  let day ← day? dayOfYear marchMonth
  let month ← month? marchMonth
  let year ← year? yearOfEra era month
  return ⟨shifted, era, dayOfEra, yearOfEra, dayOfYear, marchMonth, day, month, year⟩

/-! ## No operation fails -/

/-- The year of an era comes out without an overflow. -/
theorem yearOfEra?_ofNat {dayOfEra : Nat} (h : dayOfEra < 2 ^ 63) :
    yearOfEra? (.ofNat dayOfEra) = some (.ofNat (Date.yearOfEra dayOfEra)) := by
  simp (disch := omega) only [yearOfEra?, Date.yearOfEra, div?_ofNat, sub?_ofNat, add?_ofNat,
    Option.bind_eq_bind, Option.bind_some]

theorem daysBeforeYear?_ofNat {yearOfEra : Nat} (h : yearOfEra < 400) :
    daysBeforeYear? (.ofNat yearOfEra) = some (.ofNat (Date.daysBeforeYear yearOfEra)) := by
  simp (disch := omega) only [daysBeforeYear?, Date.daysBeforeYear, mul?_ofNat, div?_ofNat,
    sub?_ofNat, add?_ofNat, Option.bind_eq_bind, Option.bind_some]

theorem daysBeforeMonth?_ofNat {marchMonth : Nat} (h : marchMonth < 12) :
    daysBeforeMonth? (.ofNat marchMonth) = some (.ofNat (Date.daysBeforeMonth marchMonth)) := by
  simp (disch := omega) only [daysBeforeMonth?, Date.daysBeforeMonth, mul?_ofNat, div?_ofNat,
    add?_ofNat, Option.bind_eq_bind, Option.bind_some]

variable {dayOfYear : Nat}

/-- The month, counted from March, comes out without an overflow. -/
theorem marchMonth?_ofNat (h : dayOfYear ≤ 365) :
    marchMonth? (.ofNat dayOfYear) = some (.ofNat ((5 * dayOfYear + 2) / 153)) := by
  simp (disch := omega) only [marchMonth?, mul?_ofNat, div?_ofNat, add?_ofNat,
    Option.bind_eq_bind, Option.bind_some]

theorem day?_ofNat (h : dayOfYear ≤ 365) :
    day? (.ofNat dayOfYear) (.ofNat ((5 * dayOfYear + 2) / 153)) =
      some (.ofNat (dayOfYear - Date.daysBeforeMonth ((5 * dayOfYear + 2) / 153) + 1)) := by
  have hbefore : Date.daysBeforeMonth ((5 * dayOfYear + 2) / 153) ≤ dayOfYear := by
    unfold Date.daysBeforeMonth
    omega
  simp (disch := omega) only [day?, daysBeforeMonth?_ofNat, sub?_ofNat, add?_ofNat,
    Option.bind_eq_bind, Option.bind_some]

theorem month?_ofNat {marchMonth : Nat} (h : marchMonth < 12) :
    month? (.ofNat marchMonth) =
      some (.ofNat (if marchMonth < 10 then marchMonth + 3 else marchMonth - 9)) := by
  unfold month?
  rw [if_congr (ofNat_lt_ofNat (by omega) (by decide)) rfl rfl]
  by_cases hlt : marchMonth < 10
  · rw [if_pos hlt, if_pos hlt, add?_ofNat (by omega)]
  · rw [if_neg hlt, if_neg hlt, sub?_ofNat (by omega) (by omega)]

/-- The year comes out without an overflow, as eras are fewer than 2 ^ 53. -/
theorem year?_ofNat {yearOfEra era month : Nat} (hyear : yearOfEra < 400)
    (hera : era < 2 ^ 53) (hmonth : month < 2 ^ 63) :
    year? (.ofNat yearOfEra) (.ofNat era) (.ofNat month) =
      some (.ofNat (yearOfEra + era * 400 + if month ≤ 2 then 1 else 0)) := by
  unfold year?
  rw [if_congr (ofNat_le_ofNat hmonth (by decide)) rfl rfl, ← apply_ite Int64.ofNat]
  have hnext : (if month ≤ 2 then 1 else 0) ≤ 1 := by split <;> omega
  generalize (if month ≤ 2 then 1 else 0) = next at hnext ⊢
  simp (disch := omega) only [mul?_ofNat, add?_ofNat, Option.bind_eq_bind, Option.bind_some]

/-- The same values without a bound on numbers. -/
def Course.ofDays (days : Nat) : Course :=
  let shifted := days + Date.epoch
  let dayOfEra := shifted % Date.eraDays
  let yearOfEra := Date.yearOfEra dayOfEra
  let dayOfYear := dayOfEra - Date.daysBeforeYear yearOfEra
  let date := Date.ofDays days
  ⟨.ofNat shifted, .ofNat (shifted / Date.eraDays), .ofNat dayOfEra, .ofNat yearOfEra,
    .ofNat dayOfYear, .ofNat ((5 * dayOfYear + 2) / 153), .ofNat date.day, .ofNat date.month,
    .ofNat date.year⟩

/-- A computation goes on with the value of an operation that does not fail. -/
theorem bind_of_eq_some {x : Option Int64} {a : Int64} {f : Int64 → Option Course}
    (h : x = some a) : x >>= f = f a := by
  rw [h]
  rfl

/-- No operation fails, and every value on the way is the one without a bound. -/
theorem course?_ofNat {days : Nat} (h : days + Date.epoch < 2 ^ 63) :
    course? (.ofNat days) = some (Course.ofDays days) := by
  have hera : Date.eraDays = 146097 := rfl
  have hpos : 0 < Date.eraDays := by omega
  have hmod := Nat.mod_lt (days + Date.epoch) hpos
  obtain ⟨hyear, hbefore, hday⟩ := Date.day_of_yearOfEra hmod
  have hlast : (days + Date.epoch) / Date.eraDays < 2 ^ 53 := by
    rw [hera]
    omega
  unfold course?
  -- one operation after the other, with the bounds on what went before
  rw [bind_of_eq_some (add?_ofNat h),
    bind_of_eq_some (divEuclid?_ofNat h hpos (by omega)),
    bind_of_eq_some (modEuclid?_ofNat h hpos (by omega)),
    bind_of_eq_some (yearOfEra?_ofNat (by omega)),
    bind_of_eq_some (daysBeforeYear?_ofNat hyear),
    bind_of_eq_some (sub?_ofNat hbefore (by omega)),
    bind_of_eq_some (marchMonth?_ofNat hday),
    bind_of_eq_some (day?_ofNat hday),
    bind_of_eq_some (month?_ofNat (by omega)),
    bind_of_eq_some (year?_ofNat hyear hlast (by split <;> omega))]
  rfl

/-! ## Where the values lie -/

/-- The values lie in an era, a year of it, a month of the year and a day of the month. -/
structure Course.InRange (c : Course) : Prop where
  era : 0 ≤ c.era.toInt
  dayOfEra : 0 ≤ c.dayOfEra.toInt ∧ c.dayOfEra.toInt ≤ 146096
  yearOfEra : 0 ≤ c.yearOfEra.toInt ∧ c.yearOfEra.toInt ≤ 399
  dayOfYear : 0 ≤ c.dayOfYear.toInt ∧ c.dayOfYear.toInt ≤ 365
  marchMonth : 0 ≤ c.marchMonth.toInt ∧ c.marchMonth.toInt ≤ 11
  day : 1 ≤ c.day.toInt ∧ c.day.toInt ≤ 31
  month : 1 ≤ c.month.toInt ∧ c.month.toInt ≤ 12
  year : 1970 ≤ c.year.toInt

/-- The date that the values end in. -/
def Course.date (c : Course) : Date := ⟨c.year.toInt.toNat, c.month.toInt.toNat, c.day.toInt.toNat⟩

variable {days : Nat}

/-- The course ends in the date. -/
theorem Course.date_ofDays (h : days + Date.epoch < 2 ^ 63) :
    (Course.ofDays days).date = Date.ofDays days := by
  have hvalid := Date.valid_ofDays days
  have hyear := Date.year_ofDays_le days
  have hmonth := hvalid.month_le
  have hday := hvalid.day_le.trans (monthLength_le _ _)
  unfold Course.date Course.ofDays
  dsimp only
  rw [Int64.toInt_ofNat_of_lt (by omega), Int64.toInt_ofNat_of_lt (by omega),
    Int64.toInt_ofNat_of_lt (by omega), Int.toNat_natCast, Int.toNat_natCast, Int.toNat_natCast]

/-- All values on the way are in range. -/
theorem Course.inRange_ofDays (h : days + Date.epoch < 2 ^ 63) : (Course.ofDays days).InRange := by
  have hmod := Nat.mod_lt (days + Date.epoch) (show 0 < Date.eraDays by decide)
  have hdiv := Nat.div_le_self (days + Date.epoch) Date.eraDays
  obtain ⟨hyearOfEra, -, hdayOfYear⟩ := Date.day_of_yearOfEra hmod
  have hera : Date.eraDays = 146097 := rfl
  have hvalid := Date.valid_ofDays days
  have hmonthPos := hvalid.month_pos
  have hmonth := hvalid.month_le
  have hdayPos := hvalid.day_pos
  have hday := hvalid.day_le.trans (monthLength_le _ _)
  have hlater := Date.le_year_ofDays days
  have hyear := Date.year_ofDays_le days
  have hlast : (days + Date.epoch) / Date.eraDays < 2 ^ 63 := hdiv.trans_lt h
  constructor
  case era =>
    show 0 ≤ (Int64.ofNat ((days + Date.epoch) / Date.eraDays)).toInt
    rw [Int64.toInt_ofNat_of_lt hlast]
    exact Int.natCast_nonneg _
  all_goals
    unfold Course.ofDays
    dsimp only
    rw [Int64.toInt_ofNat_of_lt (by omega)]
    omega

end Calendar
end InfraGraph
