import TrainerBooking.Violation

/-! # Hours of the calendar

An `Hour` is one bookable slot of the trainer's calendar.  Four steps change its availability, and
each is possible from one availability only:

* **make available** and **make not available** open and close an hour that is not booked,
* **schedule training** books an open hour,
* **cancel training** opens a booked hour again.

Every other pair of step and availability is refused with the violation that says why
(`Availability.after`). -/

namespace TrainerBooking

/-- Whether an hour can be booked. -/
inductive Availability where
  /-- The trainer is free. -/
  | available
  /-- The trainer takes no bookings. -/
  | notAvailable
  /-- A training is booked. -/
  | trainingScheduled
deriving DecidableEq, Repr

/-- The steps that change the availability of an hour. -/
inductive HourStep where
  | makeAvailable
  | makeNotAvailable
  | scheduleTraining
  | cancelTraining
deriving DecidableEq, Repr

namespace Availability

/-- The written form of an availability. -/
def label : Availability → String
  | available => "available"
  | notAvailable => "not_available"
  | trainingScheduled => "training_scheduled"

/-- The availability with a given written form. -/
def ofLabel? (s : String) : Option Availability :=
  if s = "available" then some available
  else if s = "not_available" then some notAvailable
  else if s = "training_scheduled" then some trainingScheduled
  else none

/-- Reads an availability. -/
def parse (s : String) : Except Violation Availability :=
  match ofLabel? s with
  | some a => .ok a
  | none => .error (.unknownAvailability s)

@[simp] theorem ofLabel?_label (a : Availability) : ofLabel? a.label = some a := by
  cases a <;> rfl

theorem label_of_ofLabel? {s : String} {a : Availability} (h : ofLabel? s = some a) :
    a.label = s := by
  unfold ofLabel? at h
  split at h
  · next hs => rw [← Option.some.inj h, hs]; rfl
  · split at h
    · next hs => rw [← Option.some.inj h, hs]; rfl
    · split at h
      · next hs => rw [← Option.some.inj h, hs]; rfl
      · cases h

/-- Texts that are read as an availability are its written form. -/
theorem ofLabel?_eq_none {text : String} :
    ofLabel? text = none ↔ ∀ a : Availability, text ≠ a.label := by
  constructor
  · rintro h a rfl
    rw [ofLabel?_label] at h
    cases h
  · intro h
    cases ha : ofLabel? text with
    | none => rfl
    | some a => exact absurd (label_of_ofLabel? ha).symm (h a)

/-- The availability after a step. -/
def after : HourStep → Availability → Except Violation Availability
  | .makeAvailable, notAvailable => .ok available
  | .makeAvailable, available => .error .hourAlreadyAvailable
  | .makeAvailable, trainingScheduled => .error .trainingScheduled
  | .makeNotAvailable, available => .ok notAvailable
  | .makeNotAvailable, notAvailable => .error .hourAlreadyNotAvailable
  | .makeNotAvailable, trainingScheduled => .error .trainingScheduled
  | .scheduleTraining, available => .ok trainingScheduled
  | .scheduleTraining, _ => .error .hourNotAvailable
  | .cancelTraining, trainingScheduled => .ok available
  | .cancelTraining, _ => .error .noTrainingScheduled

end Availability

/-- A slot of the calendar. -/
structure Hour where
  time : Moment
  availability : Availability
deriving DecidableEq, Repr

namespace Hour

/-- Is the hour open for bookings? -/
def isAvailable (h : Hour) : Bool := decide (h.availability = .available)

/-- Is a training booked in the hour? -/
def hasTraining (h : Hour) : Bool := decide (h.availability = .trainingScheduled)

/-- The hour after a step. -/
def step (s : HourStep) (h : Hour) : Except Violation Hour :=
  match Availability.after s h.availability with
  | .ok a => .ok ⟨h.time, a⟩
  | .error v => .error v

theorem step_eq_ok_iff {s : HourStep} {h h' : Hour} :
    h.step s = .ok h' ↔
      h'.time = h.time ∧ Availability.after s h.availability = .ok h'.availability := by
  unfold step
  cases Availability.after s h.availability with
  | error v => simp
  | ok a => cases h'; simp [eq_comm]

end Hour

end TrainerBooking
