import TrainerBooking.Act

/-! # The hours of the store

Acts on the calendar of a store of either kind.

* **Reading** (`hour?`, `hoursBetween`) never creates an hour.
* **Updating** (`updateHour`) runs a transition on the hour of a time while the hour is held, and
  writes what the transition makes of it.  An hour that was never written begins as not available, if
  the booking window admits it.  If the transition is refused, nothing is written.
* In tables an update is a transaction: it works on a copy of the table, which replaces the table
  when the update is done.  A transaction that loses a deadlock is run again, up to
  `greatestAttempts` times in all (`retrying`). -/

namespace TrainerBooking.Repository

/-- The failure to get hold of an entry in memory. -/
def held (what : String) : Failure := .storage (.lockTimeout what)

/-- A value, or the fault of the database. -/
def ofDatabase {α : Type} (e : Except DatabaseFault α) : Act Failure α :=
  (Act.ofExcept e).mapCause DatabaseFault.toFailure

/-! ### Reading -/

/-- The hour of a time, if it was ever written. -/
def hour? (time : Moment) : Act Failure (Option Hour) := do
  let s ← Act.setting
  match ← Act.store with
  | .memory m =>
    match m.hours.get? time.second with
    | none => return none
    | some slot =>
      if s.held.hours.contains time.second then Act.refuse (held "trainer hour") else return slot
  | .tables t =>
    ofDatabase (t.lease (!s.held.hours.isEmpty) .reading)
    match t.hours.rows.get? time.second with
    | none => return none
    | some row => return some (← ofDatabase row.decode)

/-- The written hours from the second of one time to the second of another, in order of time.

In memory the range must not end before it begins, unless the calendar was never used. -/
def hoursBetween (first last : Moment) : Act Failure (List Hour) := do
  let s ← Act.setting
  match ← Act.store with
  | .memory m =>
    if last.second < first.second ∧ m.used then Act.crash
    else
      let slots := m.slotsBetween first.second last.second
      if slots.any fun e => s.held.hours.contains e.1 then Act.refuse (held "trainer hour")
      else return slots.filterMap Prod.snd
  | .tables t =>
    ofDatabase (t.lease (!s.held.hours.isEmpty) .reading)
    ofDatabase ((t.hoursBetween first.second last.second).mapM HourRow.decode)

/-! ### Updating in memory -/

/-- The hour with which an update of a time begins. -/
def startingHour (m : Memory) (time : Moment) (s : Setting) : Ending Failure Hour :=
  match m.hour? time.second with
  | some h => .done h
  | none => (s.window.newHour .notAvailable time s.now).mapCause Failure.rule

/-- Updates an hour in memory. -/
def updateHourInMemory (time : Moment) (transition : Hour → Act Failure Hour) (m : Memory) :
    Act Failure Hour := do
  let second := time.second
  let s ← Act.setting
  Act.changeMemory (Memory.claim second)
  if s.held.hours.contains second then Act.refuse (held "trainer hour")
  let update : Act Failure Hour := do
    let h ← Act.ofEnding (startingHour m time s)
    (transition h).holding (Held.withHour second)
  match ← update.settle with
  | .done updated =>
    Act.changeMemory (Memory.file second updated)
    return updated
  | .refused cause =>
    Act.changeMemory (Memory.release second)
    Act.refuse cause
  | .crashed => Act.crash

/-! ### Updating in tables -/

/-- Why a transaction was rolled back. -/
inductive Rollback where
  /-- A statement failed. -/
  | fault (f : DatabaseFault)
  /-- The booking window or the transition refused. -/
  | rejected (f : Failure)
deriving DecidableEq, Repr

/-- The failure of the update. -/
def Rollback.toFailure : Rollback → Failure
  | .fault f => f.toFailure
  | .rejected f => f

/-- Was the transaction the victim of a deadlock?  A rejection never is, whatever it says. -/
def Rollback.deadlock? : Rollback → Option DatabaseFault
  | .fault f => if f.isDeadlock then some f else none
  | .rejected _ => none

/-- How often the update of an hour is tried. -/
def greatestAttempts : Nat := 3

/-- Tries a transaction, and again while it loses deadlocks and repetitions are left.  The number of
each try is handed to it, and `warn` is told of each deadlock that is followed by another try. -/
def retrying {α : Type} (warn : Nat → DatabaseFault → Act Failure Unit)
    (attempt : Nat → Act Rollback α) : (number repetitions : Nat) → Act Failure α
  | number, 0 => (attempt number).mapCause Rollback.toFailure
  | number, repetitions + 1 => do
    match ← (attempt number).settle with
    | .done a => return a
    | .crashed => Act.crash
    | .refused cause =>
      match cause.deadlock? with
      | some f => do
        warn number f
        retrying warn attempt (number + 1) repetitions
      | none => Act.refuse cause.toFailure

/-- The row of a time in the try of a number, inserted if it is missing, and the table with it. -/
def rowForUpdate (time : Moment) (t : Tables) (number : Nat) :
    Act Rollback (HourTable × HourRow) := do
  let second := time.second
  match t.hours.rows.get? second with
  | some row => return (t.hours, row)
  | none =>
    let s ← Act.setting
    let fresh ← Act.ofEnding ((s.window.newHour .notAvailable time s.now).mapCause
      (Rollback.rejected ∘ Failure.rule))
    let (table, inserted) ← (Act.ofExcept ((t.inTry second number).insertHour second
      fresh.availability.label t.hours)).mapCause Rollback.fault
    let fields := [("hour_time", FieldValue.number second),
      ("inserted", FieldValue.number (if inserted then 1 else 0))]
    Act.note .debug "Inserted missing trainer hour" fields
    Act.note .debug "Trainer hour was missing" fields
    match table.rows.get? second with
    | some row => return (table, row)
    | none =>
      Act.refuse (.fault (.notFound ("trainer hour " ++ Text.ofInt second ++ " after insert")))

/-- The try of a number to update an hour in tables. -/
def updateHourOnce (time : Moment) (transition : Hour → Act Failure Hour) (t : Tables)
    (number : Nat) : Act Rollback Hour := do
  let (table, row) ← rowForUpdate time t number
  let h ← (Act.ofExcept row.decode).mapCause Rollback.fault
  let updated ← ((transition h).holding (Held.withHour time.second)).mapCause Rollback.rejected
  let table ← (Act.ofExcept ((t.inTry time.second number).updateHour row.rowId
    updated.availability.label table)).mapCause Rollback.fault
  Act.changeTables fun t => { t with hours := table }
  return updated

/-- Updates an hour in tables. -/
def updateHourInTables (time : Moment) (transition : Hour → Act Failure Hour) (t : Tables) :
    Act Failure Hour := do
  let s ← Act.setting
  ofDatabase (t.lease (!s.held.hours.isEmpty) .writing)
  let warn (number : Nat) (f : DatabaseFault) : Act Failure Unit :=
    Act.note .warn "Trainer hour update deadlocked, retrying"
      [("hour_time", .number time.second), ("attempt", .number number), ("error", .text f.message)]
  retrying warn (updateHourOnce time transition t) 1 (greatestAttempts - 1)

/-- Runs a transition on the hour of a time while it is held, and writes the outcome. -/
def updateHour (time : Moment) (transition : Hour → Act Failure Hour) : Act Failure Hour := do
  match ← Act.store with
  | .memory m => updateHourInMemory time transition m
  | .tables t => updateHourInTables time transition t

/-- Deletes the row of an hour, which makes it an hour that was never written; says whether there was
one.  In memory hours are never deleted. -/
def deleteHour (time : Moment) : Act Failure Bool := do
  let s ← Act.setting
  match ← Act.store with
  | .memory _ => return false
  | .tables t =>
    ofDatabase (t.lease (!s.held.hours.isEmpty) .writing)
    let (table, deleted) ← ofDatabase (t.deleteHour time.second)
    Act.changeTables fun t => { t with hours := table }
    if deleted then
      Act.note .info "Deleted trainer hour" [("hour_time", .number time.second)]
    return deleted

end TrainerBooking.Repository
