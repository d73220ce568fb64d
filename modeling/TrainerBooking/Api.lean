import TrainerBooking.Api.Identity
import TrainerBooking.Api.Request
import TrainerBooking.Api.Response
import TrainerBooking.Desk.Trainings

/-! # The API

Each function carries out one request on behalf of a caller: it checks the role of the caller, reads
the time stamps of the request, runs the operation, and makes the response.  A failure of the
operation becomes the refusal that belongs to it.  Identifiers of new trainings and accounts are
drawn outside and handed in as `fresh`. -/

namespace TrainerBooking.Api

/-- An operation, with its failures as refusals. -/
def operation {α : Type} (act : Act Failure α) : Act Refusal α := act.mapCause Refusal.ofFailure

/-- A response that may be refused. -/
def respond {α : Type} (e : Except Refusal α) : Act Refusal α := Act.ofExcept e

/-- Asks for the role that an action needs. -/
def require (role : Role) (caller : Caller) (action : String) : Act Refusal Unit :=
  (Act.ofExcept (Identity.require role caller action)).mapCause IdentityFault.toRefusal

/-- The moment of a time stamp in a field. -/
def readTime (field value : String) : Except Refusal Moment :=
  match Stamp.read value with
  | .ok m => .ok m
  | .error f =>
    .error (.invalidInput field ("'" ++ value ++ "' is not an RFC 3339 timestamp: " ++ f.message))

/-- The moments of the time stamps of hours. -/
def readHours (hours : List String) : Except Refusal (List Moment) :=
  hours.mapM (readTime "hours")

/-! ### The calendar -/

/-- The calendar of a range. -/
def availableHours (r : CalendarRequest) : Act Refusal (List DayResponse) := do
  let first ← respond (readTime CalendarRequest.firstName r.first)
  let last ← respond (readTime CalendarRequest.lastName r.last)
  let days ← operation (Desk.availableHours first last)
  respond (days.mapM DayResponse.of)

/-- Can an hour be booked? -/
def hourAvailability (r : HourRequest) : Act Refusal AvailabilityResponse := do
  let hour ← respond (readTime HourRequest.hourName r.hour)
  let available ← operation (Desk.hourAvailability hour)
  let stamp ← respond (Response.stamp hour)
  return ⟨stamp, available⟩

/-- Opens hours for bookings. -/
def makeHoursAvailable (caller : Caller) (r : HoursRequest) : Act Refusal Unit := do
  require .trainer caller "make_hours_available"
  let hours ← respond (readHours r.hours)
  operation (Desk.makeHoursAvailable hours)
  Act.note .info "Hours made available"
    [("trainer", .text caller.id), ("count", .number hours.length)]

/-- Closes hours for bookings. -/
def makeHoursUnavailable (caller : Caller) (r : HoursRequest) : Act Refusal Unit := do
  require .trainer caller "make_hours_unavailable"
  let hours ← respond (readHours r.hours)
  operation (Desk.makeHoursUnavailable hours)
  Act.note .info "Hours made unavailable"
    [("trainer", .text caller.id), ("count", .number hours.length)]

/-! ### Trainings -/

/-- The trainings that a caller sees in a list: all of them for a trainer, the own ones that are not
canceled for an attendee. -/
def trainings (caller : Caller) : Act Refusal (List TrainingResponse) := do
  let list ← operation <|
    match caller.role with
    | .trainer => Desk.allTrainings
    | .attendee => Desk.trainingsOfCaller caller
  let now ← Act.now
  respond (list.mapM (TrainingResponse.of now))

/-- The fields of an event about a training. -/
def trainingFields (caller : Caller) (id : String) : List (String × FieldValue) :=
  [("training_uuid", .text id), ("user_uuid", .text caller.id)]

/-- Books a training for an attendee and answers its identifier. -/
def createTraining (caller : Caller) (fresh : String) (r : TrainingRequest) :
    Act Refusal String := do
  require .attendee caller "create_training"
  let time ← respond (readTime "time" r.time)
  operation (Desk.scheduleTraining fresh caller.id caller.name time r.notes)
  Act.note .info "Training created" (trainingFields caller fresh)
  return fresh

/-- Cancels a training. -/
def cancelTraining (caller : Caller) (id : String) : Act Refusal Unit := do
  operation (Desk.cancelTraining id caller)
  Act.note .info "Training canceled" (trainingFields caller id)

/-- Moves a training directly. -/
def rescheduleTraining (caller : Caller) (id : String) (r : TrainingRequest) :
    Act Refusal Unit := do
  let time ← respond (readTime "time" r.time)
  operation (Desk.rescheduleTraining id time r.notes caller)
  Act.note .info "Training rescheduled" (trainingFields caller id)

/-- Proposes to move a training. -/
def requestReschedule (caller : Caller) (id : String) (r : TrainingRequest) :
    Act Refusal Unit := do
  let time ← respond (readTime "time" r.time)
  operation (Desk.requestReschedule id time r.notes caller)
  Act.note .debug "Reschedule requested" (trainingFields caller id)

/-- Approves a proposal to move a training. -/
def approveReschedule (caller : Caller) (id : String) : Act Refusal Unit := do
  operation (Desk.approveReschedule id caller)
  Act.note .info "Reschedule approved" (trainingFields caller id)

/-- Rejects a proposal to move a training. -/
def rejectReschedule (caller : Caller) (id : String) : Act Refusal Unit := do
  operation (Desk.rejectReschedule id caller)
  Act.note .debug "Reschedule rejected" (trainingFields caller id)

/-! ### Accounts -/

/-- The account of a caller; the address of the call, if it is known, is written down first. -/
def currentUser (caller : Caller) (ip : Option String) : Act Refusal UserResponse := do
  if let some ip := ip then
    operation (Desk.recordIp caller.id ip)
  let account ← operation (Desk.currentUser caller.id)
  return ⟨account.id, caller.name, caller.role.label, account.balance⟩

/-- Creates an account and answers its identifier, which is a fresh one unless one is given. -/
def createUser (caller : Caller) (fresh : String) (r : UserRequest) : Act Refusal String := do
  require .trainer caller "create_user"
  match Role.ofLabel? r.role with
  | none => Act.refuse (.invalidInput "role" ("Unknown role '" ++ r.role ++ "'"))
  | some role =>
    let id := r.id.getD fresh
    operation (Desk.createUser id role r.name r.balance)
    Act.note .info "User created" [("user_uuid", .text id), ("user_type", .text role.label)]
    return id

/-- Adds credits to an account, or withdraws them. -/
def changeBalance (caller : Caller) (id : String) (r : BalanceRequest) : Act Refusal Unit := do
  require .trainer caller "update_training_balance"
  operation (Desk.changeBalance id r.amount)
  Act.note .info "Training balance updated"
    [("user_uuid", .text id), ("amount_change", .number r.amount)]

end TrainerBooking.Api
