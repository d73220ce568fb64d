/-! # Endpoints

What calls can ask for.  `Endpoint.under` lists the endpoints under the segments of a path together
with their methods: a path without any is not known, and a method that is not in the list is not
allowed there.  A segment that is written out wins over one that stands for an identifier, and an
identifier is not empty at the end of a path, though it may be inside. -/

namespace TrainerBooking.Web

/-- What a call can ask for; identifiers are given as they stand in the path. -/
inductive Endpoint where
  | health
  | calendar
  | hourAvailability
  | makeHoursAvailable
  | makeHoursUnavailable
  | trainings
  | createTraining
  | cancelTraining (segment : String)
  | rescheduleTraining (segment : String)
  | requestReschedule (segment : String)
  | approveReschedule (segment : String)
  | rejectReschedule (segment : String)
  | createUser
  | currentUser
  | changeBalance (segment : String)
deriving DecidableEq, Repr

namespace Endpoint

/-- The endpoints for a training, under what follows its identifier. -/
def ofTraining (segment : String) : List String → List (String × Endpoint)
  | [] => if segment = "" then [] else [("DELETE", cancelTraining segment)]
  | ["reschedule"] => [("PUT", rescheduleTraining segment)]
  | ["request-reschedule"] => [("PUT", requestReschedule segment)]
  | ["approve-reschedule"] => [("PUT", approveReschedule segment)]
  | ["reject-reschedule"] => [("PUT", rejectReschedule segment)]
  | _ => []

/-- The endpoints for an account, under what follows its identifier. -/
def ofUser (segment : String) : List String → List (String × Endpoint)
  | ["training-balance"] => [("PUT", changeBalance segment)]
  | _ => []

/-- The endpoints under the segments of a path, with their methods. -/
def under : List String → List (String × Endpoint)
  | ["health"] => [("GET", health)]
  | ["trainer", "calendar"] => [("GET", calendar)]
  | ["trainer", "calendar", "hour"] => [("GET", hourAvailability)]
  | ["trainer", "calendar", "make-hours-available"] => [("PUT", makeHoursAvailable)]
  | ["trainer", "calendar", "make-hours-unavailable"] => [("PUT", makeHoursUnavailable)]
  | ["trainings"] => [("GET", trainings), ("POST", createTraining)]
  | ["users"] => [("POST", createUser)]
  | ["users", "current"] => [("GET", currentUser)]
  | "trainings" :: segment :: rest => ofTraining segment rest
  | "users" :: segment :: rest => ofUser segment rest
  | _ => []

end Endpoint

end TrainerBooking.Web
