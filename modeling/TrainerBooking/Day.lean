import TrainerBooking.Ending
import TrainerBooking.Hour

/-! # Days of the calendar

The calendar is shown by UTC days.  `Day.group` cuts a list of hours, which comes in the order of
time, into its runs of equal UTC date; `Day.ofDated` is the cut itself.  Dating an hour moves it to
UTC and crashes if that is not possible. -/

namespace TrainerBooking

/-- An hour as the calendar shows it. -/
structure HourView where
  time : Moment
  available : Bool
  booked : Bool
deriving DecidableEq, Repr

/-- How the calendar shows an hour. -/
def Hour.view (h : Hour) : HourView := ⟨h.time, h.isAvailable, h.hasTraining⟩

/-- A day of the calendar. -/
structure Day where
  date : Date
  /-- Can at least one hour of the day be booked? -/
  hasFreeHours : Bool
  hours : List HourView
deriving DecidableEq, Repr

namespace Day

/-- Puts an hour in front of days: into the first of them if it has the date of the hour. -/
def cons (date : Date) (view : HourView) : List Day → List Day
  | [] => [⟨date, view.available, [view]⟩]
  | d :: rest =>
    if d.date = date then ⟨date, view.available || d.hasFreeHours, view :: d.hours⟩ :: rest
    else ⟨date, view.available, [view]⟩ :: d :: rest

/-- Cuts dated hours into runs of equal date. -/
def ofDated : List (Date × HourView) → List Day
  | [] => []
  | (date, view) :: rest => cons date view (ofDated rest)

/-- The hour with its UTC date. -/
def dated {ε : Type} (h : Hour) : Ending ε (Date × HourView) :=
  match h.time.toUtc? with
  | some utc => .done (utc.date, h.view)
  | none => .crashed

/-- The days of a list of hours. -/
def group {ε : Type} (hours : List Hour) : Ending ε (List Day) := do
  return ofDated (← hours.mapM dated)

/-! ### Laws of the cut -/

theorem hours_cons (date : Date) (view : HourView) (days : List Day) :
    (cons date view days).flatMap Day.hours = view :: days.flatMap Day.hours := by
  cases days with
  | nil => simp [cons]
  | cons d rest => by_cases h : d.date = date <;> simp [cons, h]

/-- **The cut keeps every hour in its place.** -/
theorem hours_ofDated (l : List (Date × HourView)) :
    (ofDated l).flatMap Day.hours = l.map Prod.snd := by
  induction l with
  | nil => rfl
  | cons x rest ih => simp [ofDated, hours_cons, ih]

end Day

end TrainerBooking
