/-!
# Calendar — points in time as texts

Dates are those of the Gregorian calendar, extended without end.  Days are counted in years that
begin in March, so that the leap day is the last day of its year, and in eras of 400 years, which
all have the same length.

* `Calendar.Date.ofDays` — the date a number of days after the first day of 1970;
* `Calendar.text` — the text of a number of seconds after the beginning of 1970.
-/

namespace InfraGraph
namespace Calendar

structure Date where
  year : Nat
  /-- From 1 to 12. -/
  month : Nat
  /-- From 1. -/
  day : Nat
deriving DecidableEq

namespace Date

/-- Days from the first of March of the year 0 to the first day of 1970. -/
def epoch : Nat := 719468

def eraDays : Nat := 146097

/-- Year within its era of a day of the era. -/
def yearOfEra (dayOfEra : Nat) : Nat :=
  (dayOfEra - dayOfEra / 1460 + dayOfEra / 36524 - dayOfEra / 146096) / 365

def daysBeforeYear (yearOfEra : Nat) : Nat :=
  365 * yearOfEra + yearOfEra / 4 - yearOfEra / 100

/-- Days from the first of March to the first of a later month, counted from March. -/
def daysBeforeMonth (month : Nat) : Nat := (153 * month + 2) / 5

/-- The date a number of days after the first day of 1970. -/
def ofDays (days : Nat) : Date :=
  let shifted := days + epoch
  let dayOfEra := shifted % eraDays
  let yearOfEra := yearOfEra dayOfEra
  let dayOfYear := dayOfEra - daysBeforeYear yearOfEra
  let marchMonth := (5 * dayOfYear + 2) / 153
  let month := if marchMonth < 10 then marchMonth + 3 else marchMonth - 9
  let year := yearOfEra + shifted / eraDays * 400 + if month ≤ 2 then 1 else 0
  ⟨year, month, dayOfYear - daysBeforeMonth marchMonth + 1⟩

end Date

def daySeconds : Nat := 86400

/-- Decimal digits with zeros in front up to a width. -/
def padded (width n : Nat) : String :=
  let digits := Nat.toDigits 10 n
  String.ofList (List.replicate (width - digits.length) '0' ++ digits)

/-- Text of a number of seconds after the beginning of 1970. -/
def text (seconds : UInt64) : String :=
  let date := Date.ofDays (seconds.toNat / daySeconds)
  let rest := seconds.toNat % daySeconds
  padded 4 date.year ++ "-" ++ padded 2 date.month ++ "-" ++ padded 2 date.day ++ "T" ++
    padded 2 (rest / 3600) ++ ":" ++ padded 2 (rest % 3600 / 60) ++ ":" ++
    padded 2 (rest % 60) ++ "Z"

end Calendar
end InfraGraph
