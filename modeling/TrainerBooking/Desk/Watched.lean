import TrainerBooking.Act

/-! # Watched operations

The operations that the program offers are **commands**, which change something, and **queries**,
which answer something.  `watched` puts the watch around one of them:

* it opens the span of the operation, next to and not inside the span of an operation that called it,
* it writes one event before the operation and one after it, a warning exactly if the storage failed,
* it counts successes and failures by the name of the operation.

The watch changes neither the outcome nor the store.  A crash leaves no event and is not counted. -/

namespace TrainerBooking.Desk

/-- The operations of the program. -/
inductive Operation where
  | scheduleHour | cancelHour | makeHoursAvailable | makeHoursUnavailable
  | availableHours | hourAvailability
  | scheduleTraining | cancelTraining | rescheduleTraining | requestReschedule
  | approveReschedule | rejectReschedule | allTrainings | trainingsOfCaller
  | createUser | changeBalance | recordIp | currentUser
deriving DecidableEq, Repr

namespace Operation

/-- The name under which an operation is watched. -/
def name : Operation → String
  | scheduleHour => "trainer.schedule_training"
  | cancelHour => "trainer.cancel_training"
  | makeHoursAvailable => "trainer.make_hours_available"
  | makeHoursUnavailable => "trainer.make_hours_unavailable"
  | availableHours => "trainer.available_hours"
  | hourAvailability => "trainer.hour_availability"
  | scheduleTraining => "trainings.schedule_training"
  | cancelTraining => "trainings.cancel_training"
  | rescheduleTraining => "trainings.reschedule_training"
  | requestReschedule => "trainings.request_training_reschedule"
  | approveReschedule => "trainings.approve_training_reschedule"
  | rejectReschedule => "trainings.reject_training_reschedule"
  | allTrainings => "trainings.all_trainings"
  | trainingsOfCaller => "trainings.trainings_for_user"
  | createUser => "users.create_user"
  | changeBalance => "users.update_training_balance"
  | recordIp => "users.update_last_ip"
  | currentUser => "users.current_user"

/-- Does the operation answer something, and change nothing? -/
def isQuery : Operation → Bool
  | availableHours | hourAvailability | allTrainings | trainingsOfCaller | currentUser => true
  | _ => false

/-- What the operation is called in events. -/
def noun (o : Operation) : String := if o.isQuery then "query" else "command"

/-- What the operation is called at the beginning of an event. -/
def title (o : Operation) : String := if o.isQuery then "Query" else "Command"

/-- The span of the operation. -/
def span (o : Operation) : String := o.noun ++ " " ++ o.name

/-- The key under which the outcomes of the operation are counted. -/
def counter (o : Operation) (success : Bool) : String :=
  (if o.isQuery then "queries." else "commands.") ++ o.name ++
    (if success then ".success" else ".failure")

end Operation

/-- The level at which a failure is written. -/
def failureLevel (f : Failure) : Level := if f.kind = .infrastructure then .warn else .debug

/-- The event that ends a failed operation. -/
def noteFailure (o : Operation) (f : Failure) : Act Failure Unit :=
  Act.note (failureLevel f) ("Failed to execute " ++ o.noun)
    [("error", .text f.message), ("slug", .text f.slug)]

/-- Runs an operation between its two events and counts its outcome, if it is to be counted. -/
def narrated {α : Type} (o : Operation) (counted : Bool) (body : Act Failure α) :
    Act Failure α := do
  Act.note .debug ("Executing " ++ o.noun) []
  match ← body.settle with
  | .done a =>
    if counted then Act.count (o.counter true)
    Act.note .debug (o.title ++ " executed successfully") []
    return a
  | .refused f =>
    if counted then Act.count (o.counter false)
    noteFailure o f
    Act.refuse f
  | .crashed => Act.crash

/-- Runs an operation under the watch of the setting. -/
def watched {α : Type} (o : Operation) (body : Act Failure α) : Act Failure α := do
  let s ← Act.setting
  match s.watch with
  | .bare => body
  | .silent => (narrated o false body).inside fun s => { s with spans := [o.span] }
  | .full span => (narrated o true body).inside fun s => { s with spans := [span, o.span] }

end TrainerBooking.Desk
