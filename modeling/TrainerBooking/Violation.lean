import TrainerBooking.Role
import TrainerBooking.Time.Moment

/-! # Violations of the booking rules

Every rule of the domain has its violation.  A `Violation` knows three things about itself: the
**kind** of failure it is, which decides how it is reported, a **slug** that names the rule for
programs, and a **message** for people. -/

namespace TrainerBooking

/-- The kinds of failure that reporting tells apart. -/
inductive FailureKind where
  /-- The input breaks a rule and never succeeds as it stands. -/
  | validation
  /-- The input is sound but does not fit the present state. -/
  | conflict
  /-- What the input refers to does not exist. -/
  | notFound
  /-- The caller may not see it or act on it. -/
  | authorization
  /-- The storage failed. -/
  | infrastructure
deriving DecidableEq, Repr

namespace FailureKind

/-- The written form of a kind. -/
def label : FailureKind → String
  | validation => "validation"
  | conflict => "conflict"
  | notFound => "not_found"
  | authorization => "authorization"
  | infrastructure => "infrastructure"

end FailureKind

/-- A rule of the domain that an operation would break. -/
inductive Violation where
  /-- The limits of the booking window contradict themselves. -/
  | unsoundLimits (problems : String)
  /-- The hour does not begin on a full hour. -/
  | notFullHour (hour : Moment)
  /-- The hour lies more weeks ahead than the calendar may be edited. -/
  | tooDistant (weeks : Nat) (hour : Moment)
  /-- The hour has begun already. -/
  | pastHour (hour : Moment)
  /-- The hour is earlier in the day than allowed. -/
  | tooEarly (earliest : Nat) (hour : Moment)
  /-- The hour is later in the day than allowed. -/
  | tooLate (latest : Nat) (hour : Moment)
  /-- The text names no availability. -/
  | unknownAvailability (text : String)
  /-- A booked hour cannot be opened or closed. -/
  | trainingScheduled
  /-- The hour has no training to cancel. -/
  | noTrainingScheduled
  /-- The hour is not open for bookings. -/
  | hourNotAvailable
  /-- The hour is open already. -/
  | hourAlreadyAvailable
  /-- The hour is closed already. -/
  | hourAlreadyNotAvailable
  /-- A field that every training needs is blank. -/
  | emptyTrainingField (field : String)
  /-- The notes are longer than allowed. -/
  | notesTooLong (length limit : Nat)
  /-- A canceled training cannot be changed. -/
  | trainingCanceled
  /-- The training was canceled before. -/
  | trainingAlreadyCanceled
  /-- The training begins too soon to be moved without consent. -/
  | tooLateToReschedule (time : Moment)
  /-- There is no proposal to answer. -/
  | noRescheduleRequested
  /-- A proposal cannot be approved by the role that made it. -/
  | sameRoleApproval (role : Role)
  /-- The text names no role. -/
  | unknownRole (text : String)
  /-- A field that every person needs is blank. -/
  | emptyUserField (field : String)
  /-- The training belongs to somebody else. -/
  | notVisible (user owner : String)
  /-- The change would take the balance below zero or beyond its greatest value. -/
  | insufficientBalance (user : String) (balance change : Int)
  /-- The range ends before it begins. -/
  | invertedRange (first last : Moment)
deriving DecidableEq, Repr

namespace Violation

/-- The kind of failure that the violation is. -/
def kind : Violation → FailureKind
  | unsoundLimits _ | notFullHour _ | tooDistant _ _ | pastHour _ | tooEarly _ _ | tooLate _ _
  | unknownAvailability _ | emptyTrainingField _ | notesTooLong _ _ | unknownRole _
  | emptyUserField _ | invertedRange _ _ => .validation
  | trainingScheduled | noTrainingScheduled | hourNotAvailable | hourAlreadyAvailable
  | hourAlreadyNotAvailable | trainingCanceled | trainingAlreadyCanceled | tooLateToReschedule _
  | noRescheduleRequested | sameRoleApproval _ | insufficientBalance _ _ _ => .conflict
  | notVisible _ _ => .authorization

/-- The stable name of the rule. -/
def slug : Violation → String
  | unsoundLimits _ => "invalid-factory-config"
  | notFullHour _ => "hour-not-full-hour"
  | tooDistant _ _ => "hour-too-distant"
  | pastHour _ => "hour-in-the-past"
  | tooEarly _ _ => "hour-too-early"
  | tooLate _ _ => "hour-too-late"
  | unknownAvailability _ => "invalid-availability"
  | trainingScheduled => "training-scheduled"
  | noTrainingScheduled => "no-training-scheduled"
  | hourNotAvailable => "hour-not-available"
  | hourAlreadyAvailable => "hour-already-available"
  | hourAlreadyNotAvailable => "hour-already-not-available"
  | emptyTrainingField _ => "invalid-training-data"
  | notesTooLong _ _ => "notes-too-long"
  | trainingCanceled => "training-canceled"
  | trainingAlreadyCanceled => "training-already-canceled"
  | tooLateToReschedule _ => "cant-reschedule-before-time"
  | noRescheduleRequested => "no-reschedule-requested"
  | sameRoleApproval _ => "same-user-type-approval"
  | unknownRole _ => "invalid-user-type"
  | emptyUserField _ => "invalid-user-data"
  | notVisible _ _ => "forbidden-to-see-training"
  | insufficientBalance _ _ _ => "insufficient-balance"
  | invertedRange _ _ => "invalid-date-range"

/-- What is said about the violation. -/
def message : Violation → String
  | unsoundLimits problems => "Invalid hour factory config: " ++ problems
  | notFullHour hour => "Hour " ++ hour.text ++ " is not a full hour"
  | tooDistant weeks hour =>
    "Schedule can be only set for next " ++ Nat.repr weeks ++ " weeks, provided date: " ++ hour.text
  | pastHour hour => "Cannot create hour from the past: " ++ hour.text
  | tooEarly earliest hour =>
    "Too early hour " ++ hour.text ++ ", min UTC hour: " ++ Nat.repr earliest
  | tooLate latest hour => "Too late hour " ++ hour.text ++ ", max UTC hour: " ++ Nat.repr latest
  | unknownAvailability text => "Invalid availability: " ++ text
  | trainingScheduled => "Unable to modify hour, because scheduled training"
  | noTrainingScheduled => "Training is not scheduled"
  | hourNotAvailable => "Hour is not available"
  | hourAlreadyAvailable => "Hour is already available"
  | hourAlreadyNotAvailable => "Hour is already not available"
  | emptyTrainingField field => "Empty training " ++ field
  | notesTooLong length limit =>
    "Notes too long: " ++ Nat.repr length ++ " characters, max " ++ Nat.repr limit
  | trainingCanceled => "Training is canceled"
  | trainingAlreadyCanceled => "Training is already canceled"
  | tooLateToReschedule time =>
    "Can't reschedule training at " ++ time.text ++ ": less than 24h before the training"
  | noRescheduleRequested => "No training reschedule was requested yet"
  | sameRoleApproval role =>
    "Cannot approve reschedule by the same user type that proposed it: " ++ role.label
  | unknownRole text => "Invalid user type: " ++ text
  | emptyUserField field => "Empty user " ++ field
  | notVisible user owner => "User '" ++ user ++ "' can't see training of user '" ++ owner ++ "'"
  | insufficientBalance user balance change =>
    "Insufficient balance for user '" ++ user ++ "': balance " ++ Text.ofInt balance ++
      ", change " ++ Text.ofInt change
  | invertedRange first last =>
    "Date from (" ++ first.text ++ ") is after date to (" ++ last.text ++ ")"

end Violation

namespace Role

/-- Reads a role. -/
def parse (s : String) : Except Violation Role :=
  match ofLabel? s with
  | some r => .ok r
  | none => .error (.unknownRole s)

end Role

end TrainerBooking
