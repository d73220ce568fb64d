import TrainerBooking.Account
import TrainerBooking.Hour
import TrainerBooking.Store.Column
import TrainerBooking.Store.DatabaseFault

/-! # Rows

What the tables hold.  Times are kept as whole Unix seconds, availabilities and roles in their
written form, and a proposal as two columns that are both null or both set.

Every kind of row has its encoding and its decoding.  Decoding gives back what was encoded, each time
moved to UTC and cut to the second, and refuses rows that no encoding makes with a `corruptedRow`. -/

namespace TrainerBooking

/-- A stored hour. -/
structure HourRow where
  rowId : Nat
  /-- The Unix second of the hour. -/
  second : Int
  /-- The written form of the availability. -/
  availability : String
deriving DecidableEq, Repr

/-- A stored training. -/
structure TrainingRow where
  id : String
  owner : String
  ownerName : String
  /-- The Unix second of the beginning. -/
  second : Int
  notes : String
  /-- The Unix second of the proposed beginning. -/
  newSecond : Option Int
  /-- The written form of the role that proposed it. -/
  proposedBy : Option String
  /-- Zero if the training is not canceled; of another number the low half decides. -/
  canceled : Int
deriving DecidableEq, Repr

/-- A stored account. -/
structure AccountRow where
  id : String
  /-- The written form of the role. -/
  role : String
  name : String
  balance : Int
  /-- The address of the latest request. -/
  lastIp : Option String
deriving DecidableEq, Repr

namespace Row

/-- The moment of a stored second. -/
def decodeSecond (second : Int) : Except DatabaseFault Moment :=
  match Moment.ofSecond? second with
  | some m => .ok m
  | none =>
    .error (.corruptedRow ("timestamp " ++ Text.ofInt second ++ ": timestamp was not in range"))

/-- The role of a stored text. -/
def decodeRole (text : String) : Except DatabaseFault Role :=
  match Role.parse text with
  | .ok r => .ok r
  | .error v => .error (.corruptedRow ("user type '" ++ text ++ "': " ++ v.message))

/-- The availability of a stored text. -/
def decodeAvailability (text : String) : Except DatabaseFault Availability :=
  match Availability.parse text with
  | .ok a => .ok a
  | .error v => .error (.corruptedRow ("availability '" ++ text ++ "': " ++ v.message))

/-- The roles that the tables admit. -/
def isRole (text : String) : Bool := text == "trainer" || text == "attendee"

/-- The availabilities that the tables admit. -/
def isAvailability (text : String) : Bool :=
  text == "available" || text == "not_available" || text == "training_scheduled"

/-- The tables admit the roles that can be read back. -/
@[simp] theorem isRole_eq (text : String) : isRole text = (Role.ofLabel? text).isSome := by
  by_cases htrainer : text = "trainer"
  · rw [htrainer]
    rfl
  by_cases hattendee : text = "attendee"
  · rw [hattendee]
    rfl
  · simp [isRole, Role.ofLabel?, htrainer, hattendee]

theorem exists_of_isRole {text : String} (h : isRole text = true) :
    ∃ role, Role.ofLabel? text = some role := by
  rw [isRole_eq] at h
  exact Option.isSome_iff_exists.mp h

/-- The tables admit the availabilities that can be read back. -/
@[simp] theorem isAvailability_eq (text : String) :
    isAvailability text = (Availability.ofLabel? text).isSome := by
  by_cases havailable : text = "available"
  · rw [havailable]
    rfl
  by_cases hnot : text = "not_available"
  · rw [hnot]
    rfl
  by_cases hscheduled : text = "training_scheduled"
  · rw [hscheduled]
    rfl
  · simp [isAvailability, Availability.ofLabel?, havailable, hnot, hscheduled]

end Row

namespace HourRow

/-- The hour that a row holds. -/
def decode (r : HourRow) : Except DatabaseFault Hour := do
  let time ← Row.decodeSecond r.second
  let availability ← Row.decodeAvailability r.availability
  return ⟨time, availability⟩

/-- The row of an hour, under a given number. -/
def encode (rowId : Nat) (h : Hour) : HourRow := ⟨rowId, h.time.second, h.availability.label⟩

/-- The constraint on hours: the availability is known. -/
def isSound (r : HourRow) : Bool := Row.isAvailability r.availability

end HourRow

namespace TrainingRow

/-- The proposal that a row holds. -/
def decodeProposal (r : TrainingRow) : Except DatabaseFault (Option Proposal) :=
  match r.newSecond, r.proposedBy with
  | some second, some role => do
    let newTime ← Row.decodeSecond second
    let proposedBy ← Row.decodeRole role
    return some ⟨newTime, proposedBy⟩
  | none, none => .ok none
  | _, _ => .error (.corruptedRow ("training '" ++ r.id ++ "' has a partial reschedule proposal"))

/-- The training that a row holds. -/
def decode (r : TrainingRow) : Except DatabaseFault Training := do
  let proposal ← r.decodeProposal
  let time ← Row.decodeSecond r.second
  return ⟨r.id, r.owner, r.ownerName, time, r.notes, Column.holds r.canceled, proposal⟩

/-- The row of a training. -/
def encode (t : Training) : TrainingRow :=
  { id := t.id, owner := t.owner, ownerName := t.ownerName, second := t.time.second,
    notes := t.notes, newSecond := t.proposal.map fun p => p.newTime.second,
    proposedBy := t.proposal.map fun p => p.proposedBy.label,
    canceled := if t.canceled then 1 else 0 }

/-- The constraints on trainings: a whole proposal or none, by a known role, and canceled or not. -/
def isSound (r : TrainingRow) : Bool :=
  (r.newSecond.isNone == r.proposedBy.isNone) &&
    (match r.proposedBy with
      | some role => Row.isRole role
      | none => true) &&
    (r.canceled == 0 || r.canceled == 1)

/-- Rows in a list are ordered by second, and those of one second by identifier. -/
def before (a b : TrainingRow) : Bool :=
  decide (a.second < b.second) || (decide (a.second = b.second) && decide (a.id ≤ b.id))

end TrainingRow

namespace AccountRow

/-- The account that a row holds. -/
def decode (r : AccountRow) : Except DatabaseFault Account := do
  let role ← Row.decodeRole r.role
  return ⟨r.id, role, r.name, r.balance, r.lastIp⟩

/-- The row of an account. -/
def encode (a : Account) : AccountRow := ⟨a.id, a.role.label, a.name, a.balance, a.lastIp⟩

/-- The constraint on roles: the role is known. -/
def hasKnownRole (r : AccountRow) : Bool := Row.isRole r.role

/-- The constraint on balances: no balance is negative. -/
def hasSoundBalance (r : AccountRow) : Bool := decide (0 ≤ r.balance)

/-- The constraints on accounts. -/
def isSound (r : AccountRow) : Bool := r.hasKnownRole && r.hasSoundBalance

end AccountRow

end TrainerBooking
