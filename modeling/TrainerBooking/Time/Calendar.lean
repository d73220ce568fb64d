import TrainerBooking.Text.Digits

/-! # The civil calendar

Days are numbered from `1970-01-01`, which is day `0`, and dated by the Gregorian calendar extended
to all years; the year before year `1` is year `0`.

Inside, a year begins on the first of March (`Date.marchYear`, `Date.marchMonth`), so the leap day is
the last day of its year and the number of days before a month is `(153 m + 2) / 5`, whatever the
year.  Years repeat after 400 years, an **era** of 146097 days. -/

namespace TrainerBooking

/-- A date of the Gregorian calendar. -/
structure Date where
  /-- The year; `0` is the year before year `1`. -/
  year : Int
  /-- The month, `1` to `12`. -/
  month : Nat
  /-- The day of the month, from `1`. -/
  day : Nat
deriving DecidableEq, Repr

namespace Date

/-- Every fourth year is a leap year, except the hundredth ones that are not four-hundredth. -/
def isLeap (year : Int) : Bool :=
  decide (year % 4 = 0) && (decide (year % 100 ≠ 0) || decide (year % 400 = 0))

/-- The number of days in a month. -/
def daysIn (year : Int) (month : Nat) : Nat :=
  if month = 2 then (if isLeap year then 29 else 28)
  else if month = 4 ∨ month = 6 ∨ month = 9 ∨ month = 11 then 30
  else 31

/-- Does the date exist? -/
def isValid (d : Date) : Bool :=
  decide (1 ≤ d.month) && decide (d.month ≤ 12) && decide (1 ≤ d.day) &&
    decide (d.day ≤ daysIn d.year d.month)

/-- The year counted from the first of March. -/
def marchYear (d : Date) : Int := if d.month ≤ 2 then d.year - 1 else d.year

/-- The month counted from March, which is `0`. -/
def marchMonth (d : Date) : Int := if d.month ≤ 2 then (d.month : Int) + 9 else (d.month : Int) - 3

/-- The number of the day, `0` for `1970-01-01`. -/
def dayNumber (d : Date) : Int :=
  let era := d.marchYear / 400
  let yearOfEra := d.marchYear - era * 400
  let dayOfYear := (153 * d.marchMonth + 2) / 5 + (d.day : Int) - 1
  let dayOfEra := yearOfEra * 365 + yearOfEra / 4 - yearOfEra / 100 + dayOfYear
  era * 146097 + dayOfEra - 719468

/-- The date of a day number. -/
def ofDayNumber (n : Int) : Date :=
  let shifted := n + 719468
  let era := shifted / 146097
  let dayOfEra := shifted - era * 146097
  let yearOfEra := (dayOfEra - dayOfEra / 1460 + dayOfEra / 36524 - dayOfEra / 146096) / 365
  let dayOfYear := dayOfEra - (365 * yearOfEra + yearOfEra / 4 - yearOfEra / 100)
  let month := (5 * dayOfYear + 2) / 153
  let day := dayOfYear - (153 * month + 2) / 5 + 1
  let civilMonth := if month < 10 then month + 3 else month - 9
  let year := yearOfEra + era * 400
  ⟨if civilMonth ≤ 2 then year + 1 else year, civilMonth.toNat, day.toNat⟩

/-- A year in at least four digits, with a minus sign before a negative one. -/
def yearText (year : Int) : String :=
  if year < 0 then "-" ++ Text.padded 4 year.natAbs else Text.padded 4 year.natAbs

/-- The date as year, month and day, joined by hyphens. -/
def text (d : Date) : String :=
  yearText d.year ++ "-" ++ Text.padded 2 d.month ++ "-" ++ Text.padded 2 d.day

example : ofDayNumber 0 = ⟨1970, 1, 1⟩ := by decide
example : ofDayNumber (-719529) = ⟨-1, 12, 31⟩ := by decide
example : dayNumber ⟨2000, 2, 29⟩ = 11016 := by decide
example : ofDayNumber 11016 = ⟨2000, 2, 29⟩ := by decide

end Date

end TrainerBooking
