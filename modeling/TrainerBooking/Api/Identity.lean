import TrainerBooking.Account
import TrainerBooking.Api.Refusal

/-! # Identity

Callers are presented by identifier, role and name.  `Identity.authenticate` makes a `Caller` of the
three, and `Identity.require` asks for the role that an action needs. -/

namespace TrainerBooking

/-- Why a person is not let in. -/
inductive IdentityFault where
  /-- The person is not known. -/
  | authenticationFailed (reason : String)
  /-- The action needs another role. -/
  | unauthorized (action requiredRole : String)
deriving DecidableEq, Repr

namespace IdentityFault

/-- What is said about the fault. -/
def message : IdentityFault → String
  | authenticationFailed reason => "Authentication failed: " ++ reason
  | unauthorized action requiredRole =>
    "Unauthorized: '" ++ action ++ "' requires " ++ requiredRole ++ " role"

/-- The refusal of the request. -/
def toRefusal : IdentityFault → Refusal
  | authenticationFailed reason => .authenticationFailed reason
  | unauthorized action requiredRole => .unauthorized action requiredRole

end IdentityFault

namespace Identity

/-- The caller of the given identifier, role and name. -/
def authenticate (id role name : String) : Except IdentityFault Caller :=
  if Text.isBlank id then .error (.authenticationFailed "missing user id")
  else
    match Role.ofLabel? role with
    | none => .error (.authenticationFailed ("unknown role '" ++ role ++ "'"))
    | some r =>
      match Caller.new id r name with
      | .ok c => .ok c
      | .error v => .error (.authenticationFailed v.message)

/-- Refuses an action to a caller who does not have the role for it. -/
def require (role : Role) (caller : Caller) (action : String) : Except IdentityFault Unit :=
  if caller.role = role then .ok () else .error (.unauthorized action role.label)

end Identity

end TrainerBooking
