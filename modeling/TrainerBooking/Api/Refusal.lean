import TrainerBooking.Failure

/-! # Refusals

What callers of the API are told when their request is not carried out.  A failure of an operation
becomes a refusal by the kind of its root alone (`Refusal.ofFailure`), and keeps the slug of the rule
that failed: **what a client is told does not depend on how often the failure was annotated.** -/

namespace TrainerBooking

/-- Why a request is refused. -/
inductive Refusal where
  /-- The caller is not known. -/
  | authenticationFailed (reason : String)
  /-- The role of the caller does not allow the action. -/
  | unauthorized (action requiredRole : String)
  /-- The caller may not see or change the entity. -/
  | forbidden (rule message : String)
  /-- A field of the request cannot be read. -/
  | invalidInput (field message : String)
  /-- The request breaks a rule. -/
  | ruleViolation (rule message : String)
  /-- The request does not fit the present state. -/
  | conflict (rule message : String)
  /-- What the request refers to does not exist. -/
  | notFound (resource message : String)
  /-- The storage cannot be used at the moment. -/
  | unavailable (rule message : String)
  /-- Something failed for good. -/
  | internal (message : String)
deriving DecidableEq, Repr

namespace Refusal

/-- The stable name of the refusal. -/
def slug : Refusal → String
  | authenticationFailed _ => "authentication-failed"
  | unauthorized _ _ => "unauthorized"
  | forbidden rule _ | ruleViolation rule _ | conflict rule _ | unavailable rule _ => rule
  | invalidInput _ _ => "invalid-input"
  | notFound _ _ => "not-found"
  | internal _ => "internal-error"

/-- Can the same request succeed when it is sent again? -/
def retryable : Refusal → Bool
  | unavailable _ _ => true
  | _ => false

/-- What the caller is told. -/
def message : Refusal → String
  | authenticationFailed reason => "Authentication failed: " ++ reason
  | unauthorized action requiredRole =>
    "Unauthorized: '" ++ action ++ "' requires " ++ requiredRole ++ " role"
  | forbidden rule message => "Forbidden (" ++ rule ++ "): " ++ message
  | invalidInput field message => "Invalid input for field '" ++ field ++ "': " ++ message
  | ruleViolation rule message => "Domain rule violation (" ++ rule ++ "): " ++ message
  | conflict rule message => "Conflict (" ++ rule ++ "): " ++ message
  | notFound resource message => resource ++ " not found: " ++ message
  | unavailable rule message => "Service unavailable (" ++ rule ++ "): " ++ message
  | internal message => "Internal error: " ++ message

/-- The HTTP status of the refusal. -/
def status : Refusal → Nat
  | authenticationFailed _ => 401
  | unauthorized _ _ | forbidden _ _ => 403
  | invalidInput _ _ | ruleViolation _ _ => 400
  | conflict _ _ => 409
  | notFound _ _ => 404
  | unavailable _ _ => 503
  | internal _ => 500

/-- The entity that a failure says is missing. -/
def missingResource (f : Failure) : String :=
  match f.root with
  | .missing resource _ => resource
  | _ => "resource"

/-- The refusal of a request whose operation failed. -/
def ofFailure (f : Failure) : Refusal :=
  match f.kind with
  | .validation => .ruleViolation f.slug f.message
  | .conflict => .conflict f.slug f.message
  | .notFound => .notFound (missingResource f) f.message
  | .authorization => .forbidden f.slug f.message
  | .infrastructure =>
    if f.retryable then .unavailable f.slug f.message else .internal f.message

end Refusal

end TrainerBooking
