import TrainerBooking.Failure

/-! # Faults of the database

A fault starts as what the engine reports (`EngineReport`), is sorted into a `DatabaseFault`, and
reaches the operations as a `StorageFault`.  Reports that carry a kind are sorted by it.  The others
are sorted by their wording (`DatabaseFault.ofWording`): **a lock that was not free wins over a
deadlock,** and everything else is a failed query. -/

namespace TrainerBooking

/-- What can go wrong when rows are read and written. -/
inductive DatabaseFault where
  /-- The database cannot be reached, or no connection to it was free in time. -/
  | connectionFailed (detail : String)
  /-- The tables could not be brought up to date. -/
  | migrationFailed (detail : String)
  /-- The place of the database could not be prepared. -/
  | initialization (detail : String)
  /-- A key is taken. -/
  | uniqueViolation (detail : String)
  /-- A reference leads nowhere. -/
  | foreignKeyViolation (detail : String)
  /-- A value is not allowed in its column. -/
  | checkViolation (detail : String)
  /-- The transaction was the victim of a deadlock. -/
  | deadlock (detail : String)
  /-- A lock was not free in time. -/
  | lockTimeout (detail : String)
  /-- A stored row is no value of the domain. -/
  | corruptedRow (detail : String)
  /-- A row that has to be there is not. -/
  | notFound (detail : String)
  /-- A statement failed for another reason. -/
  | queryFailed (detail : String)
deriving DecidableEq, Repr

/-- The kinds of refused statement that an engine tells apart. -/
inductive ReportKind where
  | uniqueViolation | foreignKeyViolation | unableToSendCommand | serializationFailure
  | readOnlyTransaction | restrictViolation | notNullViolation | checkViolation
  | exclusionViolation | closedConnection | unknown
deriving DecidableEq, Repr

/-- What an engine reports. -/
inductive EngineReport where
  /-- A statement that needs a row found none. -/
  | noRow
  /-- A statement was refused. -/
  | refused (kind : ReportKind) (wording : String)
  /-- No connection could be made or had. -/
  | unreachable (wording : String)
  /-- The engine failed by itself. -/
  | other (wording : String)
deriving DecidableEq, Repr

/-- Does a text occur inside another? -/
def Text.occursIn (part whole : List Char) : Bool :=
  part.isPrefixOf whole ||
    match whole with
    | [] => false
    | _ :: rest => Text.occursIn part rest

namespace DatabaseFault

/-- What is said about the fault. -/
def message : DatabaseFault → String
  | connectionFailed detail => "Database connection failed: " ++ detail
  | migrationFailed detail => "Migration failed: " ++ detail
  | initialization detail => "Initialization error: " ++ detail
  | uniqueViolation detail => "Unique constraint violated: " ++ detail
  | foreignKeyViolation detail => "Foreign key constraint violated: " ++ detail
  | checkViolation detail => "Check constraint violated: " ++ detail
  | deadlock detail => "Deadlock detected: " ++ detail
  | lockTimeout detail => "Lock wait timeout: " ++ detail
  | corruptedRow detail => "Corrupted row: " ++ detail
  | notFound detail => "Not found: " ++ detail
  | queryFailed detail => "Query failed: " ++ detail

/-- Can the transaction succeed when it is run again at once? -/
def isDeadlock : DatabaseFault → Bool
  | deadlock _ => true
  | _ => false

/-- The phrases by which a wording tells of a lock that was not free in time. -/
def lockPhrases : List String :=
  ["database is locked", "database table is locked", "Lock wait timeout"]

/-- The phrases by which a wording tells of a deadlock. -/
def deadlockPhrases : List String := ["Deadlock found", "deadlock"]

/-- Does one of the phrases occur in the wording? -/
def mentions (phrases : List String) (wording : String) : Bool :=
  phrases.any fun phrase => Text.occursIn phrase.toList wording.toList

/-- Sorts a report that has no kind by its wording. -/
def ofWording (wording : String) : DatabaseFault :=
  if mentions lockPhrases wording then lockTimeout wording
  else if mentions deadlockPhrases wording then deadlock wording
  else queryFailed wording

/-- Sorts the report of an engine. -/
def ofReport : EngineReport → DatabaseFault
  | .noRow => notFound "Record not found"
  | .refused .uniqueViolation wording => uniqueViolation wording
  | .refused .foreignKeyViolation wording => foreignKeyViolation wording
  | .refused .checkViolation wording => checkViolation wording
  | .refused .notNullViolation wording => checkViolation wording
  | .refused .serializationFailure wording => deadlock wording
  | .refused .closedConnection wording => connectionFailed wording
  | .refused .unableToSendCommand wording => connectionFailed wording
  | .refused .readOnlyTransaction wording => ofWording wording
  | .refused .restrictViolation wording => ofWording wording
  | .refused .exclusionViolation wording => ofWording wording
  | .refused .unknown wording => ofWording wording
  | .unreachable wording => connectionFailed wording
  | .other wording => queryFailed wording

/-- The fault as operations see it. -/
def toStorage : DatabaseFault → StorageFault
  | uniqueViolation detail => .duplicate detail
  | foreignKeyViolation detail => .danglingReference detail
  | checkViolation detail => .checkFailed detail
  | deadlock detail => .deadlock detail
  | lockTimeout detail => .lockTimeout detail
  | connectionFailed detail => .connection detail
  | corruptedRow detail => .corrupted detail
  | migrationFailed detail => .query (migrationFailed detail).message
  | initialization detail => .query (initialization detail).message
  | notFound detail => .query (notFound detail).message
  | queryFailed detail => .query (queryFailed detail).message

/-- The failure of the operation in which the fault happened. -/
def toFailure (f : DatabaseFault) : Failure := .storage f.toStorage

/-- A deadlock is worth a repetition, also in the eyes of the caller. -/
theorem retryable_of_isDeadlock {f : DatabaseFault} (h : f.isDeadlock = true) :
    f.toStorage.retryable = true := by
  cases f <;> simp_all [isDeadlock, toStorage, StorageFault.retryable]

end DatabaseFault

end TrainerBooking
