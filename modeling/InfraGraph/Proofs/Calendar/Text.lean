import InfraGraph.Proofs.Calendar.Course
import InfraGraph.Proofs.Calendar.Numeral
import Mathlib.Data.String.Basic

/-!
# The text of a point in time

Main statements:

* `Moment`, `Moment.Valid`, `Moment.seconds` — a day of the calendar with a time of the day, and the
  seconds from the beginning of 1970 up to it;
* `Moment.Shows`, `Moment.eq_of_shows` — what a text says, and that it says one thing;
* `Moment.seconds_lt_iff` — points in time are compared from the year down to the second;
* `text_exact` — the text of a number of seconds shows the point in time after these, it is computed
  without a failure in machine integers, and up to the year 9999 texts are in the order of time.
-/

namespace InfraGraph
namespace Calendar

/-! ## Points in time -/

/-- A time of a calendar day. -/
structure Moment where
  date : Date
  hour : Nat
  minute : Nat
  second : Nat

namespace Moment

structure Valid (m : Moment) : Prop where
  date : m.date.Valid
  hour_lt : m.hour < 24
  minute_lt : m.minute < 60
  second_lt : m.second < 60

/-- Seconds from the beginning of 1970. -/
def seconds (m : Moment) : Nat :=
  ((m.date.dayNumber * 24 + m.hour) * 60 + m.minute) * 60 + m.second

/-- The point in time a number of seconds after the beginning of 1970. -/
def ofSeconds (seconds : UInt64) : Moment :=
  let rest := seconds.toNat % daySeconds
  ⟨Date.ofDays (seconds.toNat / daySeconds), rest / 3600, rest % 3600 / 60, rest % 60⟩

/-- The moment of a number of seconds is one of a calendar day. -/
theorem valid_ofSeconds (seconds : UInt64) : (ofSeconds seconds).Valid := by
  have hrest := Nat.mod_lt seconds.toNat (show 0 < daySeconds by decide)
  unfold daySeconds at hrest
  refine ⟨Date.valid_ofDays _, ?_, ?_, ?_⟩
  all_goals
    unfold ofSeconds daySeconds
    dsimp only
    omega

/-- The seconds of that moment are the number. -/
theorem seconds_ofSeconds (seconds : UInt64) : (ofSeconds seconds).seconds = seconds.toNat := by
  unfold Moment.seconds ofSeconds daySeconds
  dsimp only
  rw [Date.dayNumber_ofDays]
  omega

/-! ## The order of time -/

variable {m n : Moment}

/-- Numbers of a point in time, from the year down to the second. -/
def fields (m : Moment) : List Nat :=
  [m.date.year, m.date.month, m.date.day, m.hour, m.minute, m.second]

theorem eq_of_fields_eq (h : m.fields = n.fields) : m = n := by
  obtain ⟨⟨year, month, day⟩, hour, minute, second⟩ := m
  obtain ⟨⟨year', month', day'⟩, hour', minute', second'⟩ := n
  simpa [fields, and_assoc] using h

/-- A moment of an earlier day is earlier. -/
theorem seconds_lt_of_date (hm : m.Valid) (h : m.date.dayNumber < n.date.dayNumber) :
    m.seconds < n.seconds := by
  obtain ⟨-, hhour, hminute, hsecond⟩ := hm
  unfold Moment.seconds
  omega

/-- Numbers of moments are compared from the year down, and so are seconds. -/
theorem seconds_lt_of_fields_lt (hm : m.Valid) (h1970 : 1970 ≤ m.date.year)
    (h : m.fields < n.fields) : m.seconds < n.seconds := by
  simp only [fields, List.cons_lt_cons_iff, List.not_lt_nil, and_false, or_false] at h
  -- the first number that differs decides
  rcases h with hyear | ⟨hyear, hmonth | ⟨hmonth, hday | ⟨hday, htime⟩⟩⟩
  · exact seconds_lt_of_date hm (hm.date.dayNumber_lt_of_year h1970 hyear)
  · exact seconds_lt_of_date hm (hm.date.dayNumber_lt_of_month hyear hmonth)
  · exact seconds_lt_of_date hm (hm.date.dayNumber_lt_of_day hyear hmonth hday)
  · have hnumber : m.date.dayNumber = n.date.dayNumber := by
      unfold Date.dayNumber
      rw [hyear, hmonth, hday]
    obtain ⟨-, hhour, hminute, hsecond⟩ := hm
    unfold Moment.seconds
    omega

/-- Points in time are compared from the year down to the second. -/
theorem seconds_lt_iff (hm : m.Valid) (hn : n.Valid) (hmYear : 1970 ≤ m.date.year)
    (hnYear : 1970 ≤ n.date.year) : m.seconds < n.seconds ↔ m.fields < n.fields := by
  refine ⟨fun h => ?_, seconds_lt_of_fields_lt hm hmYear⟩
  rcases lt_trichotomy m.fields n.fields with hlt | heq | hgt
  · exact hlt
  · rw [eq_of_fields_eq heq] at h
    exact absurd h (lt_irrefl _)
  · exact absurd h (seconds_lt_of_fields_lt hn hnYear hgt).asymm

/-! ## Texts -/

def text (m : Moment) : String :=
  padded 4 m.date.year ++ "-" ++ padded 2 m.date.month ++ "-" ++ padded 2 m.date.day ++ "T" ++
    padded 2 m.hour ++ ":" ++ padded 2 m.minute ++ ":" ++ padded 2 m.second ++ "Z"

/-- The text of the moment is the one that is written. -/
theorem text_ofSeconds (seconds : UInt64) : (ofSeconds seconds).text = Calendar.text seconds := rfl

theorem toList_text (m : Moment) :
    m.text.toList = (padded 4 m.date.year).toList ++ '-' :: ((padded 2 m.date.month).toList ++
      '-' :: ((padded 2 m.date.day).toList ++ 'T' :: ((padded 2 m.hour).toList ++
        ':' :: ((padded 2 m.minute).toList ++ ':' :: ((padded 2 m.second).toList ++ ['Z']))))) := by
  simp [text]

/-- A text shows a point in time by the numerals of its numbers, the year with at least four digits
and the others with two. -/
def Shows (s : String) (m : Moment) : Prop :=
  ∃ year month day hour minute second : List Char,
    IsNumeral 4 m.date.year year ∧ IsNumeral 2 m.date.month month ∧ IsNumeral 2 m.date.day day ∧
      IsNumeral 2 m.hour hour ∧ IsNumeral 2 m.minute minute ∧ IsNumeral 2 m.second second ∧
      s.toList = year ++ '-' :: (month ++ '-' :: (day ++ 'T' :: (hour ++ ':' :: (minute ++
        ':' :: (second ++ ['Z'])))))

/-- The text of a moment shows its numbers. -/
theorem shows_text (m : Moment) : Shows m.text m :=
  ⟨_, _, _, _, _, _, isNumeral_padded (by decide) _, isNumeral_padded (by decide) _,
    isNumeral_padded (by decide) _, isNumeral_padded (by decide) _, isNumeral_padded (by decide) _,
    isNumeral_padded (by decide) _, toList_text m⟩

/-- A text says one thing: each of its numerals ends at the first character that is no digit. -/
theorem eq_of_shows {s : String} (hm : Shows s m) (hn : Shows s n) : m = n := by
  obtain ⟨year, month, day, hour, minute, second, hmYear, hmMonth, hmDay, hmHour, hmMinute,
    hmSecond, hs⟩ := hm
  obtain ⟨year', month', day', hour', minute', second', hnYear, hnMonth, hnDay, hnHour, hnMinute,
    hnSecond, hs'⟩ := hn
  obtain ⟨hyear, h⟩ := hmYear.eq_of_append_cons hnYear rfl (hs.symm.trans hs')
  obtain ⟨hmonth, h⟩ := hmMonth.eq_of_append_cons hnMonth rfl h
  obtain ⟨hday, h⟩ := hmDay.eq_of_append_cons hnDay rfl h
  obtain ⟨hhour, h⟩ := hmHour.eq_of_append_cons hnHour rfl h
  obtain ⟨hminute, h⟩ := hmMinute.eq_of_append_cons hnMinute rfl h
  obtain ⟨hsecond, -⟩ := hmSecond.eq_of_append_cons hnSecond rfl h
  -- behind the last numeral only the end of the text is left
  apply eq_of_fields_eq
  simp only [fields, hyear, hmonth, hday, hhour, hminute, hsecond]

/-- Texts of points in time up to the year 9999 are compared from the year down to the second. -/
theorem text_lt_iff (hm : m.Valid) (hn : n.Valid) (hmYear : m.date.year < 10000)
    (hnYear : n.date.year < 10000) : m.text < n.text ↔ m.fields < n.fields := by
  obtain ⟨⟨-, hmMonth, -, hmDay⟩, hmHour, hmMinute, hmSecond⟩ := hm
  obtain ⟨⟨-, hnMonth, -, hnDay⟩, hnHour, hnMinute, hnSecond⟩ := hn
  have hmMonthLength := monthLength_le m.date.year m.date.month
  have hnMonthLength := monthLength_le n.date.year n.date.month
  rw [String.lt_iff_toList_lt, toList_text, toList_text]
  -- numerals of one width are compared as their numbers, and the characters behind them are equal
  simp (disch := omega) only [padded_append_lt_iff, List.cons_lt_cons_iff, fields,
    lt_irrefl, false_or, true_and, and_false, or_false]

theorem le_year_ofSeconds (seconds : UInt64) : 1970 ≤ (ofSeconds seconds).date.year :=
  Date.le_year_ofDays _

end Moment

/-! ## Seconds -/

/-- Whole days are counted in a machine integer without loss. -/
theorem toInt64_days (seconds : UInt64) :
    (seconds / 86400).toInt64 = .ofNat (seconds.toNat / daySeconds) := by
  have hdays : seconds / 86400 = .ofNat (seconds.toNat / daySeconds) := by
    apply UInt64.toNat.inj
    -- the quotient is small enough not to wrap
    have hseconds := seconds.toNat_lt
    have hsize : UInt64.size = 2 ^ 64 := rfl
    rw [UInt64.toNat_div, UInt64.toNat_ofNat_of_lt' (by unfold daySeconds; omega)]
    rfl
  rw [hdays, UInt64.toInt64_ofNat']

/-- Days fit into 63 bits, so the course of every number of seconds is exact. -/
theorem days_lt (seconds : UInt64) : seconds.toNat / daySeconds + Date.epoch < 2 ^ 63 := by
  have hseconds := seconds.toNat_lt
  unfold daySeconds Date.epoch
  omega

/-- Texts up to the year 9999 are in the order of time. -/
theorem text_lt_text_iff {seconds later : UInt64}
    (hyear : (Moment.ofSeconds seconds).date.year < 10000)
    (hlater : (Moment.ofSeconds later).date.year < 10000) :
    text seconds < text later ↔ seconds < later := by
  rw [← Moment.text_ofSeconds, ← Moment.text_ofSeconds,
    Moment.text_lt_iff (Moment.valid_ofSeconds _) (Moment.valid_ofSeconds _) hyear hlater,
    ← Moment.seconds_lt_iff (Moment.valid_ofSeconds _) (Moment.valid_ofSeconds _)
      (Moment.le_year_ofSeconds _) (Moment.le_year_ofSeconds _),
    Moment.seconds_ofSeconds, Moment.seconds_ofSeconds, UInt64.lt_iff_toNat_lt]

/-- The text of a number of seconds shows a day of the calendar and a time of the day, which are
exactly so many seconds after the beginning of 1970.  The operations on machine integers that lead
to the date do not fail, and no value on the way leaves its range.  Up to the year 9999, texts are
in the order of time. -/
theorem text_exact (seconds : UInt64) :
    (∃ m : Moment, Moment.Shows (text seconds) m ∧
      (∀ n : Moment, Moment.Shows (text seconds) n → n = m) ∧
      m.Valid ∧ 1970 ≤ m.date.year ∧ m.seconds = seconds.toNat ∧
      ∃ c, course? (seconds / 86400).toInt64 = some c ∧ c.InRange ∧ c.date = m.date) ∧
    ∀ later : UInt64, (Moment.ofSeconds seconds).date.year < 10000 →
      (Moment.ofSeconds later).date.year < 10000 →
      (seconds ≤ later ↔ text seconds ≤ text later) := by
  have hdays := days_lt seconds
  have hshows := Moment.shows_text (Moment.ofSeconds seconds)
  refine ⟨⟨Moment.ofSeconds seconds, hshows, fun n hn => Moment.eq_of_shows hn hshows,
    Moment.valid_ofSeconds seconds, Moment.le_year_ofSeconds seconds,
    Moment.seconds_ofSeconds seconds, Course.ofDays (seconds.toNat / daySeconds), ?_,
    Course.inRange_ofDays hdays, Course.date_ofDays hdays⟩, fun later hyear hlater => ?_⟩
  · rw [toInt64_days, course?_ofNat hdays]
  · -- both orders are total
    rw [← UInt64.not_lt, ← not_lt, text_lt_text_iff hlater hyear]

example : text 951782400 = "2000-02-29T00:00:00Z" := by decide

end Calendar
end InfraGraph
