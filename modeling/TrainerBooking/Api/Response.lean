import TrainerBooking.Account
import TrainerBooking.Api.Refusal
import TrainerBooking.Day
import TrainerBooking.Json.Value
import TrainerBooking.Time.Stamp

/-! # Responses

What callers get.  Times are written as time stamps; a time that has none makes the whole response an
internal refusal (`Response.stamp`).  Each response has its JSON form. -/

namespace TrainerBooking

/-- An hour of a calendar response. -/
structure HourResponse where
  hour : String
  available : Bool
  booked : Bool
deriving DecidableEq, Repr

/-- A day of a calendar response. -/
structure DayResponse where
  date : String
  /-- Can at least one hour be booked? -/
  hasFreeHours : Bool
  hours : List HourResponse
deriving DecidableEq, Repr

/-- Says whether an hour can be booked. -/
structure AvailabilityResponse where
  hour : String
  available : Bool
deriving DecidableEq, Repr

/-- A training as it is shown to a caller. -/
structure TrainingResponse where
  id : String
  ownerName : String
  owner : String
  time : String
  notes : String
  canceled : Bool
  /-- Can it still be canceled and moved freely? -/
  movesFreely : Bool
  proposed : Bool
  proposedTime : Option String
  proposedBy : Option String
deriving DecidableEq, Repr

/-- The account of a caller. -/
structure UserResponse where
  id : String
  /-- The name under which the caller called. -/
  name : String
  /-- The role in which the caller called. -/
  role : String
  balance : Int
deriving DecidableEq, Repr

namespace Response

/-- The time stamp of a moment. -/
def stamp (m : Moment) : Except Refusal String :=
  match m.stamp? with
  | some s => .ok s
  | none =>
    .error (.internal ("Failed to format timestamp: " ++
      "The year component cannot be formatted into the requested format."))

/-- The time stamp of a moment that may be missing. -/
def stampOption : Option Moment → Except Refusal (Option String)
  | some m => (stamp m).map some
  | none => .ok none

end Response

/-- The response for an hour. -/
def HourResponse.of (v : HourView) : Except Refusal HourResponse := do
  return ⟨← Response.stamp v.time, v.available, v.booked⟩

/-- The response for a day. -/
def DayResponse.of (d : Day) : Except Refusal DayResponse := do
  return ⟨d.date.text, d.hasFreeHours, ← d.hours.mapM HourResponse.of⟩

/-- The response for a training, as it is seen at the moment `now`. -/
def TrainingResponse.of (now : Moment) (t : Training) : Except Refusal TrainingResponse := do
  let time ← Response.stamp t.time
  let proposedTime ← Response.stampOption (t.proposal.map Proposal.newTime)
  return {
    id := t.id, ownerName := t.ownerName, owner := t.owner, time := time, notes := t.notes,
    canceled := t.canceled, movesFreely := !t.canceled && t.movesFreely now,
    proposed := t.proposal.isSome, proposedTime := proposedTime,
    proposedBy := t.proposal.map fun p => p.proposedBy.label }

/-! ### JSON forms -/

namespace HourResponse

/-- The JSON form. -/
def json (r : HourResponse) : Json :=
  .object [("hour", .string r.hour), ("available", .bool r.available),
    ("has_training_scheduled", .bool r.booked)]

end HourResponse

namespace DayResponse

/-- The JSON form. -/
def json (r : DayResponse) : Json :=
  .object [("date", .string r.date), ("has_free_hours", .bool r.hasFreeHours),
    ("hours", .array (r.hours.map HourResponse.json))]

end DayResponse

namespace AvailabilityResponse

/-- The JSON form. -/
def json (r : AvailabilityResponse) : Json :=
  .object [("hour", .string r.hour), ("available", .bool r.available)]

end AvailabilityResponse

namespace TrainingResponse

/-- The JSON form. -/
def json (r : TrainingResponse) : Json :=
  .object [("uuid", .string r.id), ("user", .string r.ownerName), ("user_uuid", .string r.owner),
    ("time", .string r.time), ("notes", .string r.notes), ("canceled", .bool r.canceled),
    ("can_be_cancelled", .bool r.movesFreely), ("move_requires_accept", .bool r.proposed),
    ("proposed_time", Json.ofOption .string r.proposedTime),
    ("move_proposed_by", Json.ofOption .string r.proposedBy)]

end TrainingResponse

namespace UserResponse

/-- The JSON form. -/
def json (r : UserResponse) : Json :=
  .object [("uuid", .string r.id), ("display_name", .string r.name), ("role", .string r.role),
    ("balance", .ofInt r.balance)]

end UserResponse

namespace Response

/-- The JSON form of a calendar. -/
def calendar (days : List DayResponse) : Json := .array (days.map DayResponse.json)

/-- The JSON form of a list of trainings. -/
def trainings (list : List TrainingResponse) : Json :=
  .object [("trainings", .array (list.map TrainingResponse.json))]

/-- The JSON form of the identifier of a new training. -/
def newTraining (id : String) : Json := .object [("training_uuid", .string id)]

/-- The JSON form of the identifier of a new account. -/
def newUser (id : String) : Json := .object [("user_uuid", .string id)]

end Response

end TrainerBooking
