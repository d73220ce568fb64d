import TrainerBooking.Json.Record

/-! # Requests

What callers send.  Times are time stamps that have not been looked at yet.  Each request comes with
the fields by which it is read from JSON; the two that are sent in the query of a target have
the names of their parameters instead. -/

namespace TrainerBooking

/-- Asks for the calendar of a range. -/
structure CalendarRequest where
  first : String
  last : String
deriving DecidableEq, Repr

/-- Asks whether an hour can be booked. -/
structure HourRequest where
  /-- The beginning of the hour. -/
  hour : String
deriving DecidableEq, Repr

/-- Names hours to open or close. -/
structure HoursRequest where
  /-- The beginnings of the hours. -/
  hours : List String
deriving DecidableEq, Repr

/-- A training to book, or another time for one. -/
structure TrainingRequest where
  time : String
  notes : String
deriving DecidableEq, Repr

/-- An account to create. -/
structure UserRequest where
  /-- The identifier, if it is not to be a new one. -/
  id : Option String
  role : String
  name : String
  /-- The credits to begin with. -/
  balance : Int
deriving DecidableEq, Repr

/-- A change of a balance. -/
structure BalanceRequest where
  /-- The credits to add. -/
  amount : Int
deriving DecidableEq, Repr

namespace CalendarRequest

/-- The parameter of the first instant. -/
def firstName : String := "date_from"

/-- The parameter of the last instant. -/
def lastName : String := "date_to"

/-- The fields of the request. -/
def fields : List Field := [.required firstName .text, .required lastName .text]

/-- The request with given fields. -/
def ofRecord : Record fields → CalendarRequest
  | (first, last, ()) => ⟨first, last⟩

/-- Reads the request. -/
def read (d : Draft) : Except Unfit CalendarRequest := (Record.read fields d).map ofRecord

end CalendarRequest

namespace HourRequest

/-- The parameter of the hour. -/
def hourName : String := "hour"

/-- The fields of the request. -/
def fields : List Field := [.required hourName .text]

/-- The request with given fields. -/
def ofRecord : Record fields → HourRequest
  | (hour, ()) => ⟨hour⟩

/-- Reads the request. -/
def read (d : Draft) : Except Unfit HourRequest := (Record.read fields d).map ofRecord

end HourRequest

namespace HoursRequest

/-- The fields of the request. -/
def fields : List Field := [.required "hours" .texts]

/-- The request with given fields. -/
def ofRecord : Record fields → HoursRequest
  | (hours, ()) => ⟨hours⟩

/-- Reads the request. -/
def read (d : Draft) : Except Unfit HoursRequest := (Record.read fields d).map ofRecord

end HoursRequest

namespace TrainingRequest

/-- The fields of the request. -/
def fields : List Field := [.required "time" .text, ⟨"notes", .text, some ""⟩]

/-- The request with given fields. -/
def ofRecord : Record fields → TrainingRequest
  | (time, notes, ()) => ⟨time, notes⟩

/-- Reads the request. -/
def read (d : Draft) : Except Unfit TrainingRequest := (Record.read fields d).map ofRecord

end TrainingRequest

namespace UserRequest

/-- The fields of the request. -/
def fields : List Field :=
  [⟨"user_uuid", .optionalText, some none⟩, .required "role" .text,
    .required "display_name" .text, ⟨"balance", .whole, some (0 : Int)⟩]

/-- The request with given fields. -/
def ofRecord : Record fields → UserRequest
  | (id, role, name, balance, ()) => ⟨id, role, name, balance⟩

/-- Reads the request. -/
def read (d : Draft) : Except Unfit UserRequest := (Record.read fields d).map ofRecord

end UserRequest

namespace BalanceRequest

/-- The fields of the request. -/
def fields : List Field := [.required "amount_change" .whole]

/-- The request with given fields. -/
def ofRecord : Record fields → BalanceRequest
  | (amount, ()) => ⟨amount⟩

/-- Reads the request. -/
def read (d : Draft) : Except Unfit BalanceRequest := (Record.read fields d).map ofRecord

end BalanceRequest

end TrainerBooking
