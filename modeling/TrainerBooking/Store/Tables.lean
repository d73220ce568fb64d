import TrainerBooking.Registry
import TrainerBooking.Store.Column
import TrainerBooking.Store.Row

/-! # The store in tables

Hours, trainings and accounts live in one database each, which holds a table of rows.  This module
says what single statements do to single tables; when they take effect is said where transactions
are made.

* **Constraints.** Keys are unique, and the rows that statements insert satisfy the constraints of
  their tables; the constraint on a row is looked at before its key.
* **Hours are numbered** in the order of their insertion, and no number is used twice.
* **Traps.** A `Trap` on a database makes statements of a kind fail, or silently pass over rows,
  before constraints are looked at.  A statement that finds no row meets no trap.
* **Mishaps.** A `Mishap` makes a statement fail, too, but only in one try to update one hour. -/

namespace TrainerBooking

/-- The databases. -/
inductive Database where
  | calendar | trainings | accounts
deriving DecidableEq, Repr

/-- The kinds of statement that change rows. -/
inductive Statement where
  | insert | update | delete
deriving DecidableEq, Repr

/-- What happens to the rows that statements of one kind would change in one database. -/
structure Trap where
  database : Database
  statement : Statement
  /-- The wording with which the statement fails; without one the rows are passed over. -/
  wording : Option String
deriving DecidableEq, Repr

/-- A fault that comes and goes: of all updates of hours, it is met in the try of one number to update
the hour of one second. -/
structure Mishap where
  second : Int
  attempt : Nat
  statement : Statement
  /-- The wording with which the statement fails. -/
  wording : String
deriving DecidableEq, Repr

/-- What the statement that has the mishap meets. -/
def Mishap.trap (m : Mishap) : Trap := ⟨.calendar, m.statement, some m.wording⟩

/-- The table of hours. -/
structure HourTable where
  /-- The rows, by Unix second. -/
  rows : Registry Int HourRow
  /-- The greatest number that a row has had. -/
  lastRowId : Nat

/-- The databases of the store. -/
structure Tables where
  hours : HourTable
  trainings : Registry String TrainingRow
  accounts : Registry String AccountRow
  traps : List Trap
  /-- The faults that come and go. -/
  mishaps : List Mishap
  /-- The number of connections that each database can have at a time. -/
  connections : Nat

namespace HourTable

/-- The table without rows. -/
def empty : HourTable := ⟨Registry.empty, 0⟩

/-- Adds a row under the next number. -/
def append (second : Int) (availability : String) (t : HourTable) : HourTable :=
  ⟨t.rows.put second ⟨t.lastRowId + 1, second, availability⟩, t.lastRowId + 1⟩

/-- Is there a row of that number? -/
def hasRow (rowId : Nat) (t : HourTable) : Bool := t.rows.values.any fun r => r.rowId == rowId

/-- Sets the availability of the row of a number. -/
def setAvailability (rowId : Nat) (availability : String) (t : HourTable) : HourTable :=
  { t with rows := t.rows.map fun r =>
      if r.rowId = rowId then { r with availability := availability } else r }

end HourTable

namespace Tables

/-- New databases. -/
def empty (connections : Nat) : Tables :=
  ⟨HourTable.empty, Registry.empty, Registry.empty, [], [], connections⟩

/-- The trap that a statement meets. -/
def trap? (t : Tables) (database : Database) (statement : Statement) : Option Trap :=
  t.traps.find? fun trap => trap.database = database ∧ trap.statement = statement

/-- Sets a trap in the place of the one for the same statements. -/
def setTrap (trap : Trap) (t : Tables) : Tables :=
  { t with traps := trap :: t.traps.filter fun other =>
      !decide (other.database = trap.database ∧ other.statement = trap.statement) }

/-- Takes away the trap for statements of one kind in one database. -/
def clearTrap (database : Database) (statement : Statement) (t : Tables) : Tables :=
  { t with traps := t.traps.filter fun other =>
      !decide (other.database = database ∧ other.statement = statement) }

/-- The mishap of the try of a number to update the hour of a second; a try has one at most. -/
def mishap? (second : Int) (number : Nat) (t : Tables) : Option Mishap :=
  t.mishaps.find? fun m => m.second = second ∧ m.attempt = number

/-- The databases as that try finds them: its mishap comes before the traps. -/
def inTry (second : Int) (number : Nat) (t : Tables) : Tables :=
  { t with traps := ((t.mishap? second number).map Mishap.trap).toList ++ t.traps }

/-- Runs a statement that changes `before`: the trap decides first.  With the new state comes whether
rows were changed. -/
def change {σ : Type} (t : Tables) (database : Database) (statement : Statement) (before : σ)
    (effect : Except DatabaseFault σ) : Except DatabaseFault (σ × Bool) :=
  match t.trap? database statement with
  | some ⟨_, _, some wording⟩ => .error (.ofReport (.refused .unknown wording))
  | some ⟨_, _, none⟩ => .ok (before, false)
  | none => effect.map fun after => (after, true)

/-- What a transaction wants a connection for. -/
inductive Access where
  | reading | writing
deriving DecidableEq, Repr

/-- Takes another connection to a database of which an update is under way, or is not.

The update keeps its connection, and it keeps every other writer out until it ends, which it does
not while somebody waits for it; readers see the rows as they were before it. -/
def lease (t : Tables) (updating : Bool) (access : Access) : Except DatabaseFault Unit :=
  if !updating then .ok ()
  else if t.connections ≤ 1 then
    .error (.ofReport (.unreachable "timed out waiting for connection"))
  else
    match access with
    | .reading => .ok ()
    | .writing => .error (.ofReport (.refused .unknown "database is locked"))

/-! ### Statements on hours -/

/-- Inserts the row of an hour unless the second has one. -/
def insertHour (t : Tables) (second : Int) (availability : String) (table : HourTable) :
    Except DatabaseFault (HourTable × Bool) :=
  if table.rows.contains second then .ok (table, false)
  else t.change .calendar .insert table (.ok (table.append second availability))

/-- Sets the availability of a row, which has to be there. -/
def updateHour (t : Tables) (rowId : Nat) (availability : String) (table : HourTable) :
    Except DatabaseFault HourTable :=
  let missing := .error (.notFound ("trainer hour " ++ Nat.repr rowId))
  if table.hasRow rowId then
    match t.change .calendar .update table (.ok (table.setAvailability rowId availability)) with
    | .ok (after, true) => .ok after
    | .ok (_, false) => missing
    | .error f => .error f
  else missing

/-- Deletes the row of a second; says whether there was one. -/
def deleteHour (t : Tables) (second : Int) : Except DatabaseFault (HourTable × Bool) :=
  if t.hours.rows.contains second then
    t.change .calendar .delete t.hours (.ok { t.hours with rows := t.hours.rows.erase second })
  else .ok (t.hours, false)

/-- The rows of the seconds from the first to the last, in order of time. -/
def hoursBetween (t : Tables) (first last : Int) : List HourRow :=
  t.hours.rows.values.filter fun r => decide (first ≤ r.second) && decide (r.second ≤ last)

/-! ### Statements on trainings -/

/-- Inserts the row of a training. -/
def insertTraining (t : Tables) (row : TrainingRow) :
    Except DatabaseFault (Registry String TrainingRow × Bool) :=
  t.change .trainings .insert t.trainings <|
    if !row.isSound then .error (.checkViolation "CHECK constraint failed: canceled IN (0, 1)")
    else if t.trainings.contains row.id then
      .error (.uniqueViolation "UNIQUE constraint failed: trainings.training_id")
    else .ok (t.trainings.put row.id row)

/-- Writes the columns of a training that can change; its row has to be there. -/
def saveTraining (t : Tables) (row : TrainingRow) :
    Except DatabaseFault (Registry String TrainingRow) :=
  let missing := .error (.notFound ("training " ++ row.id))
  match t.trainings.get? row.id with
  | none => missing
  | some old =>
    let new : TrainingRow := { old with
      second := row.second, notes := row.notes, newSecond := row.newSecond,
      proposedBy := row.proposedBy, canceled := row.canceled }
    match t.change .trainings .update t.trainings (.ok (t.trainings.put row.id new)) with
    | .ok (after, true) => .ok after
    | .ok (_, false) => missing
    | .error f => .error f

/-- The rows that satisfy a condition, by second and identifier. -/
def listTrainings (keep : TrainingRow → Bool) (t : Tables) : List TrainingRow :=
  (t.trainings.values.filter keep).mergeSort TrainingRow.before

/-! ### Statements on accounts -/

/-- The row of an account, with its balance as a 64-bit number. -/
def account? (t : Tables) (id : String) : Option AccountRow :=
  (t.accounts.get? id).map fun r => { r with balance := Column.read r.balance }

/-- Inserts the row of an account. -/
def insertAccount (t : Tables) (row : AccountRow) :
    Except DatabaseFault (Registry String AccountRow × Bool) :=
  t.change .accounts .insert t.accounts <|
    if !row.hasKnownRole then
      .error (.checkViolation "CHECK constraint failed: user_type IN ('trainer', 'attendee')")
    else if !row.hasSoundBalance then
      .error (.checkViolation "CHECK constraint failed: balance >= 0")
    else if t.accounts.contains row.id then
      .error (.uniqueViolation "UNIQUE constraint failed: users.user_id")
    else .ok (t.accounts.put row.id row)

/-- Adds an amount to a balance if the sum is not negative; says whether it was. -/
def changeBalance (t : Tables) (id : String) (amount : Int) :
    Except DatabaseFault (Registry String AccountRow × Bool) :=
  match t.accounts.get? id with
  | none => .ok (t.accounts, false)
  | some row =>
    let balance := Column.sum row.balance amount
    if balance < 0 then .ok (t.accounts, false)
    else
      t.change .accounts .update t.accounts
        (.ok (t.accounts.put id { row with balance := balance }))

/-- Writes the address of the latest request; says whether there is such an account. -/
def setLastIp (t : Tables) (id ip : String) :
    Except DatabaseFault (Registry String AccountRow × Bool) :=
  match t.accounts.get? id with
  | none => .ok (t.accounts, false)
  | some row =>
    t.change .accounts .update t.accounts
      (.ok (t.accounts.put id { row with lastIp := some ip }))

/-! ### Rows from elsewhere

Other programs may write rows, too.  They need not keep the constraints on values, but they meet the
same traps. -/

/-- Adds the row of an hour unchecked. -/
def placeHour (second : Int) (availability : String) (t : Tables) : Tables :=
  match t.change .calendar .insert t.hours (.ok (t.hours.append second availability)) with
  | .ok (hours, _) => { t with hours := hours }
  | .error _ => t

/-- Adds the row of a training unchecked. -/
def placeTraining (row : TrainingRow) (t : Tables) : Tables :=
  match t.change .trainings .insert t.trainings (.ok (t.trainings.put row.id row)) with
  | .ok (trainings, _) => { t with trainings := trainings }
  | .error _ => t

/-- Adds the row of an account unchecked. -/
def placeAccount (row : AccountRow) (t : Tables) : Tables :=
  match t.change .accounts .insert t.accounts (.ok (t.accounts.put row.id row)) with
  | .ok (accounts, _) => { t with accounts := accounts }
  | .error _ => t

end Tables

end TrainerBooking
