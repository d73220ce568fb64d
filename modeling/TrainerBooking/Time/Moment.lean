import TrainerBooking.Time.Calendar

/-! # Moments

A `Moment` is an instant together with the offset from UTC in which it is written.  Moments are
compared by their instants alone; the offset decides only how a moment is dated and displayed.

* **Representable.** A moment can be written down when its year, in its own offset, lies in
  `-9999 … 9999`.  Moving a moment to UTC or shifting it may leave that range, so both are partial
  (`toUtc?`, `shift?`).
* **Seconds.** `second` is the whole Unix second at or before the instant. -/

namespace TrainerBooking

/-- An instant, and the offset in which it is written. -/
structure Moment where
  /-- Nanoseconds since `1970-01-01T00:00:00Z`. -/
  nanos : Int
  /-- Seconds by which the local clock is ahead of UTC. -/
  offset : Int
deriving DecidableEq, Repr

namespace Moment

/-- Nanoseconds in a second. -/
def perSecond : Int := 1000000000

/-- Nanoseconds in an hour. -/
def perHour : Int := 3600 * perSecond

/-- Nanoseconds in a week. -/
def perWeek : Int := 7 * 24 * perHour

instance : LE Moment := ⟨fun a b => a.nanos ≤ b.nanos⟩

instance : LT Moment := ⟨fun a b => a.nanos < b.nanos⟩

instance (a b : Moment) : Decidable (a ≤ b) := inferInstanceAs (Decidable (a.nanos ≤ b.nanos))

instance (a b : Moment) : Decidable (a < b) := inferInstanceAs (Decidable (a.nanos < b.nanos))

theorem le_def {a b : Moment} : a ≤ b ↔ a.nanos ≤ b.nanos := Iff.rfl

theorem lt_def {a b : Moment} : a < b ↔ a.nanos < b.nanos := Iff.rfl

/-- The Unix second in which the moment lies. -/
def second (m : Moment) : Int := m.nanos / perSecond

/-- The nanoseconds past that second. -/
def subsecond (m : Moment) : Nat := (m.nanos % perSecond).toNat

/-- The second of the local clock, counted like a Unix second. -/
def localSecond (m : Moment) : Int := m.second + m.offset

/-- The date on the local calendar. -/
def date (m : Moment) : Date := Date.ofDayNumber (m.localSecond / 86400)

/-- The second of the local day. -/
def secondOfDay (m : Moment) : Nat := (m.localSecond % 86400).toNat

/-- The hour of the local day. -/
def hour (m : Moment) : Nat := m.secondOfDay / 3600

/-- The minute of the local hour. -/
def minute (m : Moment) : Nat := m.secondOfDay / 60 % 60

/-- The second of the local minute. -/
def secondOfMinute (m : Moment) : Nat := m.secondOfDay % 60

/-- The first second of the year `-9999`. -/
def firstSecond : Int := Date.dayNumber ⟨-9999, 1, 1⟩ * 86400

/-- The last second of the year `9999`. -/
def lastSecond : Int := Date.dayNumber ⟨9999, 12, 31⟩ * 86400 + 86399

/-- Does a second of the local clock lie in the years `-9999 … 9999`? -/
def inYears (localSecond : Int) : Bool :=
  decide (firstSecond ≤ localSecond) && decide (localSecond ≤ lastSecond)

/-- Can the moment be written in its offset? -/
def representable (m : Moment) : Bool := inYears m.localSecond

/-- The moment if it can be written in its offset. -/
def checked (m : Moment) : Option Moment := if m.representable then some m else none

/-- The same instant in UTC. -/
def toUtc? (m : Moment) : Option Moment := checked ⟨m.nanos, 0⟩

/-- The moment so many nanoseconds later, in the same offset. -/
def shift? (m : Moment) (nanos : Int) : Option Moment := checked ⟨m.nanos + nanos, m.offset⟩

/-- The moment of a Unix second, in UTC. -/
def ofSecond? (second : Int) : Option Moment := checked ⟨second * perSecond, 0⟩

/-- The instant at which the UTC hour of the moment begins. -/
def hourStart (m : Moment) : Int := m.nanos - m.nanos % perHour

/-- Does the moment lie exactly at the beginning of a UTC hour? -/
def isFullHour (m : Moment) : Bool := decide (m.nanos % perHour = 0)

/-- The nanoseconds past the second as a decimal fraction of one digit at least. -/
def fractionText (nanos : Nat) : String :=
  let digits := (Text.padded 9 nanos).toList
  let kept := (digits.reverse.dropWhile (· == '0')).reverse
  if kept.isEmpty then "0" else String.ofList kept

/-- The offset as sign, hours, minutes and seconds. -/
def offsetText (offset : Int) : String :=
  let n := offset.natAbs
  (if offset < 0 then "-" else "+") ++ Text.padded 2 (n / 3600) ++ ":" ++
    Text.padded 2 (n / 60 % 60) ++ ":" ++ Text.padded 2 (n % 60)

/-- The moment as it is written in messages, such as `2025-12-01 8:00:00.0 +00:00:00`: the hour is
not filled up, and the fraction and the offset are always there. -/
def text (m : Moment) : String :=
  m.date.text ++ " " ++ Nat.repr m.hour ++ ":" ++ Text.padded 2 m.minute ++ ":" ++
    Text.padded 2 m.secondOfMinute ++ "." ++ fractionText m.subsecond ++ " " ++ offsetText m.offset

theorem second_nonneg_subsecond (m : Moment) :
    m.second * perSecond + m.subsecond = m.nanos := by
  simp only [second, subsecond, perSecond]
  omega

theorem toUtc?_eq_some {m u : Moment} (h : m.toUtc? = some u) : u = ⟨m.nanos, 0⟩ := by
  simp only [toUtc?, checked] at h
  split at h <;> simp_all

end Moment

end TrainerBooking
