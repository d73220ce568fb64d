import TrainerBooking.Violation

/-! # Failures of operations

An operation fails because a rule is violated, because something does not exist, or because the
storage failed.  On the way up a failure may be annotated with the operation in which it happened
(`Failure.within`).  **Annotations never change what went wrong:** kind, slug and the question whether
a repetition can help are read off the innermost failure, its root. -/

namespace TrainerBooking

/-- What can go wrong in the storage. -/
inductive StorageFault where
  /-- An entry with the same key exists. -/
  | duplicate (detail : String)
  /-- What an entry refers to does not exist. -/
  | danglingReference (detail : String)
  /-- A value breaks a constraint of its table. -/
  | checkFailed (detail : String)
  /-- The transaction lost a deadlock. -/
  | deadlock (detail : String)
  /-- A lock was not free in time. -/
  | lockTimeout (detail : String)
  /-- The database cannot be reached. -/
  | connection (detail : String)
  /-- A stored row is no value of the domain. -/
  | corrupted (detail : String)
  /-- Another failure of a statement. -/
  | query (detail : String)
deriving DecidableEq, Repr

namespace StorageFault

/-- The kind of failure. -/
def kind : StorageFault → FailureKind
  | duplicate _ => .conflict
  | danglingReference _ | checkFailed _ => .validation
  | deadlock _ | lockTimeout _ | connection _ | corrupted _ | query _ => .infrastructure

/-- The stable name of the fault. -/
def slug : StorageFault → String
  | duplicate _ => "already-exists"
  | danglingReference _ => "unknown-reference"
  | checkFailed _ => "constraint-violation"
  | deadlock _ => "deadlock"
  | lockTimeout _ => "lock-timeout"
  | connection _ => "database-unavailable"
  | corrupted _ => "corrupted-data"
  | query _ => "database-error"

/-- What is said about the fault. -/
def message : StorageFault → String
  | duplicate detail => "Unique constraint violated: " ++ detail
  | danglingReference detail => "Foreign key constraint violated: " ++ detail
  | checkFailed detail => "Check constraint violated: " ++ detail
  | deadlock detail => "Deadlock or serialization failure: " ++ detail
  | lockTimeout detail => "Lock wait timeout: " ++ detail
  | connection detail => "Connection failed: " ++ detail
  | corrupted detail => "Corrupted row: " ++ detail
  | query detail => "Query failed: " ++ detail

/-- Can the operation succeed when it is run again? -/
def retryable : StorageFault → Bool
  | deadlock _ | lockTimeout _ | connection _ => true
  | duplicate _ | danglingReference _ | checkFailed _ | corrupted _ | query _ => false

end StorageFault

/-- Why an operation failed. -/
inductive Failure where
  /-- A rule of the domain is violated. -/
  | rule (violation : Violation)
  /-- The entity that was asked for does not exist. -/
  | missing (resource id : String)
  /-- The storage failed. -/
  | storage (fault : StorageFault)
  /-- A failure inside the operation with this slug and description. -/
  | within (slug description : String) (source : Failure)
deriving DecidableEq, Repr

namespace Failure

/-- The innermost failure. -/
def root : Failure → Failure
  | within _ _ source => source.root
  | f => f

/-- The kind of the innermost failure. -/
def kind : Failure → FailureKind
  | rule v => v.kind
  | missing _ _ => .notFound
  | storage f => f.kind
  | within _ _ source => source.kind

/-- The stable name of the innermost failure. -/
def slug : Failure → String
  | rule v => v.slug
  | missing _ _ => "not-found"
  | storage f => f.slug
  | within _ _ source => source.slug

/-- Can the operation succeed when it is run again? -/
def retryable : Failure → Bool
  | storage f => f.retryable
  | within _ _ source => source.retryable
  | rule _ | missing _ _ => false

/-- The violated rule, if that is what went wrong. -/
def violation? : Failure → Option Violation
  | rule v => some v
  | within _ _ source => source.violation?
  | missing _ _ | storage _ => none

/-- The slug of the outermost annotation. -/
def operation? : Failure → Option String
  | within slug _ _ => some slug
  | rule _ | missing _ _ | storage _ => none

/-- What is said about the failure: the annotations from the outside in, then the root. -/
def message : Failure → String
  | rule v => v.message
  | missing resource id => resource ++ " '" ++ id ++ "' not found"
  | storage f => f.message
  | within _ description source => description ++ ": " ++ source.message

/-! ### The root decides -/

@[simp] theorem root_within (slug description : String) (f : Failure) :
    (within slug description f).root = f.root := rfl

@[simp] theorem kind_root (f : Failure) : f.root.kind = f.kind := by
  induction f with
  | within _ _ _ ih => exact ih
  | _ => rfl

@[simp] theorem slug_root (f : Failure) : f.root.slug = f.slug := by
  induction f with
  | within _ _ _ ih => exact ih
  | _ => rfl

@[simp] theorem retryable_root (f : Failure) : f.root.retryable = f.retryable := by
  induction f with
  | within _ _ _ ih => exact ih
  | _ => rfl

@[simp] theorem violation?_root (f : Failure) : f.root.violation? = f.violation? := by
  induction f with
  | within _ _ _ ih => exact ih
  | _ => rfl

end Failure

end TrainerBooking
