import TrainerBooking.Training

/-! # Callers and accounts

A `Caller` is a person as the outside presents them: identifier, role and name.  A trainer sees every
training, an attendee their own.

An `Account` holds a person's training credits.  Its balance is a 64-bit number that no change takes
below zero or beyond the greatest such number (`Account.change`). -/

namespace TrainerBooking

/-- The person on whose behalf an operation runs. -/
structure Caller where
  id : String
  role : Role
  name : String
deriving DecidableEq, Repr

namespace Caller

/-- A caller with an identifier and a name that are not blank. -/
def new (id : String) (role : Role) (name : String) : Except Violation Caller :=
  if Text.isBlank id then .error (.emptyUserField "uuid")
  else if Text.isBlank name then .error (.emptyUserField "display name")
  else .ok ⟨id, role, name⟩

/-- Is the training one that the caller may see? -/
def sees (c : Caller) (t : Training) : Bool := decide (c.role = .trainer) || decide (c.id = t.owner)

/-- Refuses a training that the caller may not see. -/
def checkSees (c : Caller) (t : Training) : Except Violation Unit :=
  if c.sees t then .ok () else .error (.notVisible c.id t.owner)

end Caller

/-- A person's training credits. -/
structure Account where
  id : String
  role : Role
  name : String
  balance : Int
  /-- The address of the latest request. -/
  lastIp : Option String
deriving DecidableEq, Repr

namespace Account

/-- The greatest balance. -/
def greatestBalance : Int := 9223372036854775807

/-- The least number that a balance or a change of one is stored in. -/
def leastBalance : Int := -9223372036854775808

/-- A new account. -/
def new (id : String) (role : Role) (name : String) (balance : Int) : Except Violation Account :=
  match Caller.new id role name with
  | .error v => .error v
  | .ok c =>
    if balance < 0 then .error (.insufficientBalance id 0 balance)
    else .ok ⟨c.id, role, c.name, balance, none⟩

/-- The account after a change of its balance. -/
def change (amount : Int) (a : Account) : Except Violation Account :=
  if 0 ≤ a.balance + amount ∧ a.balance + amount ≤ greatestBalance then
    .ok { a with balance := a.balance + amount }
  else .error (.insufficientBalance a.id a.balance amount)

/-- The account after a request from an address. -/
def seenFrom (ip : String) (a : Account) : Account := { a with lastIp := some ip }

end Account

end TrainerBooking
