import TrainerBooking.Act
import TrainerBooking.Api.Identity
import TrainerBooking.Web.Exchange

/-! # Sessions

A gateway in front of the program vouches for the identity of a caller and passes it on in three
headers.  They are looked at in a fixed order, and the first that is missing or unreadable ends the
session before it begins. -/

namespace TrainerBooking.Web

/-- A call that cannot go on. -/
inductive Stop where
  /-- The call is answered by a status alone. -/
  | unfit (status : Nat)
  /-- The request is refused. -/
  | refused (refusal : Refusal)
deriving DecidableEq, Repr

/-- Who calls, and from where. -/
structure Session where
  caller : Caller
  /-- The address of the machine, if it is known. -/
  ip : Option String
deriving DecidableEq, Repr

namespace Session

/-- The header of the caller's identifier. -/
def idHeader : String := "x-user-id"

/-- The header of the caller's role. -/
def roleHeader : String := "x-user-role"

/-- The header of the caller's name. -/
def nameHeader : String := "x-user-name"

/-- The stop because nobody is let in. -/
def denied (reason : String) : Stop := .refused (.authenticationFailed reason)

/-- The value of a header on which the identity of the caller depends. -/
def identityHeader (name : String) (call : Call) : Act Stop String := do
  match call.header? name with
  | none =>
    Act.note .debug "Missing identity header" [("header", .text name)]
    Act.refuse (denied ("missing " ++ name ++ " header"))
  | some value =>
    if isReadableHeader value then return value
    Act.note .warn "Invalid identity header encoding" [("header", .text name)]
    Act.refuse (denied ("invalid " ++ name ++ " header"))

/-- The session of a call. -/
def begin (call : Call) : Act Stop Session := do
  let id ← identityHeader idHeader call
  let role ← identityHeader roleHeader call
  let name ← identityHeader nameHeader call
  match Identity.authenticate id role name with
  | .error fault =>
    Act.note .warn "Authentication failed" [("error", .text fault.message)]
    Act.refuse (denied fault.message)
  | .ok caller =>
    Act.note .debug "Caller identified"
      [("user_uuid", .text caller.id), ("role", .text caller.role.label)]
    return ⟨caller, call.peer.map fun peer => peer.ip.text⟩

end Session

end TrainerBooking.Web
