import TrainerBooking.Api
import TrainerBooking.Json.Reader
import TrainerBooking.Web.Endpoint
import TrainerBooking.Web.MediaType
import TrainerBooking.Web.Session

/-! # The HTTP service

`answer` answers a call.  The path and the method select an endpoint; then, where the endpoint needs
them, come the session, the identifier in the path, and the query or the body, in this order, and the
first of them that cannot be had decides the answer.  What the API refuses is written to the journal
and answered with the status of the refusal.  A crash is answered, too: nothing that a call does ends
the service. -/

namespace TrainerBooking.Web

/-! ### What endpoints read -/

/-- The identifier that a segment of the path stands for. -/
def readSegment (segment : String) : Act Stop String :=
  match Text.decodeStrict (Text.percentDecode (Text.utf8Bytes segment)) with
  | some id => return id
  | none => Act.refuse (.unfit 400)

/-- The request in the query of a call: a record whose fields are the fields of the form. -/
def readQuery {α : Type} (read : Draft → Except Unfit α) (call : Call) : Act Stop α :=
  let members := (Text.formPairs call.query).map fun (name, value) =>
    (some name, Draft.string (some value))
  match read (.object members true) with
  | .ok request => return request
  | .error _ => Act.refuse (.unfit 400)

/-- Does the call say that its body is JSON? -/
def hasJsonBody (call : Call) : Bool :=
  match (call.header? "content-type").filter isReadableHeader with
  | some value => ((MediaType.read? value).map MediaType.isJson).getD false
  | none => false

/-- The size of the greatest body that is read. -/
def greatestBody : Nat := 2097152

/-- The request in the body of a call. -/
def readBody {α : Type} (read : Draft → Except Unfit α) (call : Call) : Act Stop α :=
  if !hasJsonBody call then Act.refuse (.unfit 415)
  else if call.body.utf8ByteSize > greatestBody then Act.refuse (.unfit 413)
  else
    let (draft, alone) := Draft.read call.body
    match read draft with
    | .ok request => if alone then return request else Act.refuse (.unfit 400)
    | .error .malformed => Act.refuse (.unfit 400)
    | .error .mismatched => Act.refuse (.unfit 422)

/-! ### What endpoints do -/

/-- Carries out a request. -/
def carryOut {α : Type} (act : Act Refusal α) : Act Stop α := act.mapCause Stop.refused

/-- Writes that a request is about to be carried out. -/
def noteHandling (action : String) (fields : List (String × FieldValue)) : Act Stop Unit :=
  Act.note .info ("Handling " ++ action) fields

/-- The fields of the events about a change of the calendar. -/
def calendarFields (caller : Caller) (r : HoursRequest) : List (String × FieldValue) :=
  [("trainer", .text caller.id), ("hours", .number r.hours.length)]

/-- The fields of the events about a training. -/
def trainingFields (caller : Caller) (id : String) : List (String × FieldValue) :=
  [("user_uuid", .text caller.id), ("training_uuid", .text id)]

/-- Moves a training, or proposes to. -/
def answerMove (action segment : String)
    (move : Caller → String → TrainingRequest → Act Refusal Unit) (call : Call) :
    Act Stop Answer := do
  let session ← Session.begin call
  let id ← readSegment segment
  let r ← readBody TrainingRequest.read call
  noteHandling action (trainingFields session.caller id)
  carryOut (move session.caller id r)
  return .changed

/-- Does something to a training that needs nothing but its identifier. -/
def answerTraining (action segment : String) (act : Caller → String → Act Refusal Unit)
    (call : Call) : Act Stop Answer := do
  let session ← Session.begin call
  let id ← readSegment segment
  noteHandling action (trainingFields session.caller id)
  carryOut (act session.caller id)
  return .changed

/-- Opens or closes hours. -/
def answerHours (action : String) (act : Caller → HoursRequest → Act Refusal Unit) (call : Call) :
    Act Stop Answer := do
  let session ← Session.begin call
  let r ← readBody HoursRequest.read call
  noteHandling action (calendarFields session.caller r)
  carryOut (act session.caller r)
  return .changed

/-- Answers a call to an endpoint; `fresh` is the identifier of what the call may create. -/
def answerAt (fresh : String) (call : Call) : Endpoint → Act Stop Answer
  | .health => return .shown (.object [("status", .string "ok")])
  | .calendar => do
    let _ ← Session.begin call
    let r ← readQuery CalendarRequest.read call
    return .shown (Response.calendar (← carryOut (Api.availableHours r)))
  | .hourAvailability => do
    let _ ← Session.begin call
    let r ← readQuery HourRequest.read call
    return .shown (← carryOut (Api.hourAvailability r)).json
  | .makeHoursAvailable => answerHours "make_hours_available" Api.makeHoursAvailable call
  | .makeHoursUnavailable => answerHours "make_hours_unavailable" Api.makeHoursUnavailable call
  | .trainings => do
    let session ← Session.begin call
    return .shown (Response.trainings (← carryOut (Api.trainings session.caller)))
  | .createTraining => do
    let session ← Session.begin call
    let r ← readBody TrainingRequest.read call
    noteHandling "create_training"
      [("user_uuid", .text session.caller.id), ("time", .text r.time)]
    return .created (Response.newTraining (← carryOut (Api.createTraining session.caller fresh r)))
  | .cancelTraining segment => answerTraining "cancel_training" segment Api.cancelTraining call
  | .rescheduleTraining segment =>
    answerMove "reschedule_training" segment Api.rescheduleTraining call
  | .requestReschedule segment => answerMove "request_reschedule" segment Api.requestReschedule call
  | .approveReschedule segment =>
    answerTraining "approve_reschedule" segment Api.approveReschedule call
  | .rejectReschedule segment => answerTraining "reject_reschedule" segment Api.rejectReschedule call
  | .createUser => do
    let session ← Session.begin call
    let r ← readBody UserRequest.read call
    noteHandling "create_user" [("trainer", .text session.caller.id), ("role", .text r.role)]
    return .created (Response.newUser (← carryOut (Api.createUser session.caller fresh r)))
  | .currentUser => do
    let session ← Session.begin call
    return .shown (← carryOut (Api.currentUser session.caller session.ip)).json
  | .changeBalance segment => do
    let session ← Session.begin call
    let id ← readSegment segment
    let r ← readBody BalanceRequest.read call
    noteHandling "update_training_balance"
      [("trainer", .text session.caller.id), ("user_uuid", .text id),
        ("amount_change", .number r.amount)]
    carryOut (Api.changeBalance session.caller id r)
    return .changed

/-! ### Answers -/

/-- Finds the endpoint of a call and answers there. -/
def dispatch (fresh : String) (call : Call) : Act Stop Answer :=
  match Endpoint.under call.segments with
  | [] => Act.refuse (.unfit 404)
  | endpoints =>
    match endpoints.find? fun e => e.1 == call.lookupMethod with
    | some (_, endpoint) => answerAt fresh call endpoint
    | none => Act.refuse (.unfit 405)

/-- Answers a call that is refused. -/
def answerRefusal {ε : Type} (r : Refusal) : Act ε Answer := do
  if r.status < 500 then Act.note .debug "Request rejected" [("error", .text r.message)]
  else Act.note .error "Request failed" [("error", .text r.message)]
  return .refused r

/-- Answers a call, as if it asked for the body in any case. -/
def answerFully {ε : Type} (fresh : String) (call : Call) : Act ε Answer := do
  match ← (dispatch fresh call).settle with
  | .done a => return a
  | .refused (.unfit status) => return .bare status
  | .refused (.refused r) => answerRefusal r
  | .crashed =>
    Act.note .error "Blocking task failed" [("error", .text "the call was cut off")]
    answerRefusal (.internal "request task failed")

/-- Answers a call. -/
def answer {ε : Type} (fresh : String) (call : Call) : Act ε Answer := do
  let a ← answerFully fresh call
  return if call.isHead then .bare a.status else a

end TrainerBooking.Web
