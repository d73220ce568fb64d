import TrainerBooking.Desk.Accounts
import TrainerBooking.Desk.Calendar
import TrainerBooking.Repository.Trainings

/-! # The trainings desk

The operations on trainings.  They reach into the calendar and the accounts through the operations of
the other two desks, and nothing holds the three together: **if a later step fails, the earlier steps
in the other two are not undone.**

* Booking stores the training, charges one credit, then books the hour.
* Canceling, moving and approving are updates of the training whose transition works on the other two
  first, so a refusal there leaves the training as it was. -/

namespace TrainerBooking.Desk

/-- Books a training. -/
def scheduleTraining (id owner ownerName : String) (time : Moment) (notes : String) :
    Act Failure Unit :=
  watched .scheduleTraining do
    let training ← (Act.ofRule (Training.book id owner ownerName time notes)).within
      "invalid-training-data" "invalid training data"
    (Repository.addTraining training).within "add-training-failed" "unable to add training"
    (changeBalance training.owner (-1)).within
      "update-balance-failed" "unable to change trainings balance"
    (scheduleHour training.time).within "schedule-training-failed" "unable to schedule training"

/-- The transition that cancels a training: it credits the owner, then releases the hour. -/
def canceling (caller : Caller) (now : Moment) (training : Training) : Act Failure Training := do
  let canceled ← (Act.ofRule training.cancel).within
    "cancel-training-failed" "unable to cancel training"
  let credit := canceled.cancelCredit caller.role now
  if credit ≠ 0 then
    (changeBalance canceled.owner credit).within
      "update-balance-failed" "unable to change trainings balance"
  (cancelHour canceled.time).within "cancel-training-failed" "unable to cancel training"
  return canceled

/-- Cancels a training. -/
def cancelTraining (id : String) (caller : Caller) : Act Failure Unit :=
  watched .cancelTraining do
    let now ← Act.now
    let _ ← Repository.updateTraining id caller (canceling caller now)
    return ()

/-- The transition that moves a training directly. -/
def rescheduling (newTime : Moment) (notes : String) (now : Moment) (training : Training) :
    Act Failure Training := do
  let noted ← (Act.ofRule (training.updateNotes notes)).within
    "update-notes-failed" "unable to update notes"
  let moved ← (Act.ofRule (noted.reschedule newTime now)).within
    "reschedule-training-failed" "unable to reschedule training"
  (moveHour newTime training.time).within "move-training-failed" "unable to move training"
  return moved

/-- Moves a training directly. -/
def rescheduleTraining (id : String) (newTime : Moment) (notes : String) (caller : Caller) :
    Act Failure Unit :=
  watched .rescheduleTraining do
    let now ← Act.now
    let _ ← Repository.updateTraining id caller (rescheduling newTime notes now)
    return ()

/-- The transition that proposes to move a training. -/
def requesting (newTime : Moment) (notes : String) (caller : Caller) (training : Training) :
    Act Failure Training := do
  let noted ← (Act.ofRule (training.updateNotes notes)).within
    "update-notes-failed" "unable to update notes"
  (Act.ofRule (noted.propose newTime caller.role)).within
    "request-reschedule-failed" "unable to request training reschedule"

/-- Proposes to move a training. -/
def requestReschedule (id : String) (newTime : Moment) (notes : String) (caller : Caller) :
    Act Failure Unit :=
  watched .requestReschedule do
    let _ ← Repository.updateTraining id caller (requesting newTime notes caller)
    return ()

/-- The transition that moves a training as it was proposed. -/
def approving (caller : Caller) (training : Training) : Act Failure Training := do
  let moved ← (Act.ofRule (training.approve caller.role)).within
    "approve-reschedule-failed" "unable to approve training reschedule"
  (moveHour moved.time training.time).within "move-training-failed" "unable to move training"
  return moved

/-- Approves a proposal to move a training. -/
def approveReschedule (id : String) (caller : Caller) : Act Failure Unit :=
  watched .approveReschedule do
    let _ ← Repository.updateTraining id caller (approving caller)
    return ()

/-- The transition that drops a proposal. -/
def rejecting (training : Training) : Act Failure Training :=
  (Act.ofRule training.reject).within
    "reject-reschedule-failed" "unable to reject training reschedule"

/-- Rejects a proposal to move a training. -/
def rejectReschedule (id : String) (caller : Caller) : Act Failure Unit :=
  watched .rejectReschedule do
    let _ ← Repository.updateTraining id caller rejecting
    return ()

/-- All trainings. -/
def allTrainings : Act Failure (List Training) :=
  watched .allTrainings Repository.allTrainings

/-- The trainings of a caller that are not canceled. -/
def trainingsOfCaller (caller : Caller) : Act Failure (List Training) :=
  watched .trainingsOfCaller <| Repository.trainingsOf caller.id

end TrainerBooking.Desk
