import TrainerBooking.Day
import TrainerBooking.Desk.Watched
import TrainerBooking.Repository.Hours

/-! # The calendar desk

The operations on the calendar: hours are opened, closed, booked and released, and the calendar is
shown.  A list of hours is worked through from the front, each hour by an update of its own, so the
hours before the first one that fails stay changed. -/

namespace TrainerBooking.Desk

/-- The transition of an hour by one step. -/
def stepping (step : HourStep) (h : Hour) : Act Failure Hour := Act.ofRule (h.step step)

/-- Books an hour. -/
def scheduleHour (time : Moment) : Act Failure Unit :=
  watched .scheduleHour do
    let _ ← (Repository.updateHour time (stepping .scheduleTraining)).within
      "schedule-training-failed" "unable to schedule training"
    return ()

/-- Releases a booked hour. -/
def cancelHour (time : Moment) : Act Failure Unit :=
  watched .cancelHour do
    let _ ← (Repository.updateHour time (stepping .cancelTraining)).within
      "cancel-training-failed" "unable to cancel training"
    return ()

/-- Books a new hour, then releases the old one.  If the second half fails, the new hour stays
booked. -/
def moveHour (new old : Moment) : Act Failure Unit := do
  (scheduleHour new).within "schedule-new-hour-failed" "unable to schedule training"
  (cancelHour old).within "cancel-original-hour-failed" "unable to cancel training"

/-- Takes hours one after the other through a step, naming the hour in a failure. -/
def stepAll (step : HourStep) (slug word : String) : List Moment → Act Failure Unit
  | [] => return ()
  | time :: rest => do
    let _ ← (Repository.updateHour time (stepping step)).within slug
      ("unable to make hour " ++ time.text ++ " " ++ word)
    stepAll step slug word rest

/-- Opens hours for bookings. -/
def makeHoursAvailable (times : List Moment) : Act Failure Unit :=
  watched .makeHoursAvailable <|
    stepAll .makeAvailable "make-hours-available-failed" "available" times

/-- Closes hours for bookings. -/
def makeHoursUnavailable (times : List Moment) : Act Failure Unit :=
  watched .makeHoursUnavailable <|
    stepAll .makeNotAvailable "make-hours-unavailable-failed" "unavailable" times

/-- The calendar from one time to another. -/
def availableHours (first last : Moment) : Act Failure (List Day) :=
  watched .availableHours <|
    if last < first then Act.refuse (.rule (.invertedRange first last))
    else do
      let hours ← Repository.hoursBetween first last
      Act.ofEnding (Day.group hours)

/-- Can the hour be booked?  An hour that was never written cannot. -/
def hourAvailability (time : Moment) : Act Failure Bool :=
  watched .hourAvailability do
    match ← Repository.hour? time with
    | some h => return h.isAvailable
    | none => return false

end TrainerBooking.Desk
