import TrainerBooking.Text.Blank
import TrainerBooking.Violation

/-! # Trainings

A `Training` is booked by an attendee, its owner.  It can be moved in two ways:

* **directly,** while at least 24 hours are left before it (`Training.movesFreely`),
* **by consent:** either side proposes a new time, and the other one approves; either side may
  reject.  A new proposal replaces a pending one.

Once it is canceled a training is frozen: every change is refused. -/

namespace TrainerBooking

/-- A pending request to move a training. -/
structure Proposal where
  newTime : Moment
  proposedBy : Role
deriving DecidableEq, Repr

/-- A booked training. -/
structure Training where
  id : String
  /-- The identifier of the attendee who owns it. -/
  owner : String
  /-- The name of the owner at the time of booking. -/
  ownerName : String
  time : Moment
  notes : String
  canceled : Bool
  proposal : Option Proposal
deriving DecidableEq, Repr

namespace Training

/-- The greatest length of notes, in characters. -/
def notesLimit : Nat := 1000

/-- The time before a training in which it is no longer moved or canceled freely. -/
def freeWindow : Int := 24 * Moment.perHour

/-- Refuses notes that are too long. -/
def checkNotes (notes : String) : Except Violation Unit :=
  if notes.length > notesLimit then .error (.notesTooLong notes.length notesLimit) else .ok ()

/-- A new training. -/
def book (id owner ownerName : String) (time : Moment) (notes : String) :
    Except Violation Training :=
  if Text.isBlank id then .error (.emptyTrainingField "uuid")
  else if Text.isBlank owner then .error (.emptyTrainingField "user uuid")
  else if Text.isBlank ownerName then .error (.emptyTrainingField "user name")
  else
    match checkNotes notes with
    | .ok _ => .ok ⟨id, owner, ownerName, time, notes, false, none⟩
    | .error v => .error v

/-- Are at least 24 hours left before the training? -/
def movesFreely (t : Training) (now : Moment) : Bool :=
  decide (freeWindow ≤ t.time.nanos - now.nanos)

/-- The 24 hours, in nanoseconds. -/
theorem movesFreely_iff {t : Training} {now : Moment} :
    t.movesFreely now = true ↔ now.nanos + 86400000000000 ≤ t.time.nanos := by
  rw [movesFreely, decide_eq_true_iff, freeWindow, Moment.perHour, Moment.perSecond]
  omega

/-- Runs a change of a training that is not canceled. -/
def whileActive (t : Training) (change : Except Violation Training) : Except Violation Training :=
  if t.canceled then .error .trainingCanceled else change

/-- The training with other notes. -/
def updateNotes (notes : String) (t : Training) : Except Violation Training :=
  t.whileActive <|
    match checkNotes notes with
    | .ok _ => .ok { t with notes := notes }
    | .error v => .error v

/-- The training, canceled. -/
def cancel (t : Training) : Except Violation Training :=
  if t.canceled then .error .trainingAlreadyCanceled else .ok { t with canceled := true }

/-- The training, moved directly. -/
def reschedule (newTime now : Moment) (t : Training) : Except Violation Training :=
  t.whileActive <|
    if t.movesFreely now then .ok { t with time := newTime }
    else .error (.tooLateToReschedule t.time)

/-- The training with a proposal to move it. -/
def propose (newTime : Moment) (proposer : Role) (t : Training) : Except Violation Training :=
  t.whileActive <| .ok { t with proposal := some ⟨newTime, proposer⟩ }

/-- The training, moved as it was proposed. -/
def approve (approver : Role) (t : Training) : Except Violation Training :=
  t.whileActive <|
    match t.proposal with
    | none => .error .noRescheduleRequested
    | some p =>
      if p.proposedBy = approver then .error (.sameRoleApproval approver)
      else .ok { t with time := p.newTime, proposal := none }

/-- The training without its proposal. -/
def reject (t : Training) : Except Violation Training :=
  t.whileActive <|
    match t.proposal with
    | none => .error .noRescheduleRequested
    | some _ => .ok { t with proposal := none }

/-- The credits that a cancellation gives back to the owner.

In time, everybody gets the credit back.  Late, the attendee loses it, and a trainer who cancels
returns it with one more. -/
def cancelCredit (t : Training) (canceledBy : Role) (now : Moment) : Int :=
  if t.movesFreely now then 1
  else
    match canceledBy with
    | .trainer => 2
    | .attendee => 0

/-- Trainings in a list are ordered by their instants, and those of one instant by identifier. -/
def before (a b : Training) : Bool :=
  decide (a.time < b.time) || (decide (a.time.nanos = b.time.nanos) && decide (a.id ≤ b.id))

end Training

end TrainerBooking
