import TrainerBooking.Act

/-! # Opening the databases

A store in tables is kept in memory, with one connection to each database, or in the files of a
directory.  Opening a directory makes it where it is missing, opens one file after the other, and
brings the tables of each up to date.  What stands in the way of that is an `Obstacle`.

Whoever opens a database says how long to wait for a connection (`Tables.waiting`).  Not to wait at
all is a crash, and only a file in the place of the directory comes before it. -/

namespace TrainerBooking

/-- What can stand in the way of opening a directory. -/
inductive Obstacle where
  /-- The directory is a file. -/
  | fileForDirectory
  /-- The file of the accounts is no database. -/
  | foreignFile
  /-- The database of the accounts has a table of another origin. -/
  | foreignTable
  /-- The file of the accounts is a directory. -/
  | directoryForFile
deriving DecidableEq, Repr

namespace Obstacle

/-- The fault that an obstacle leads to. -/
def fault (directory : String) : Obstacle → DatabaseFault
  | fileForDirectory => .initialization (directory ++ ": File exists (os error 17)")
  | foreignFile => .queryFailed "file is not a database"
  | foreignTable =>
    .migrationFailed
      "Failed to run 2026-01-10-000100_create_trainings with: table trainings already exists"
  | directoryForFile =>
    .ofReport (.unreachable
      "timed out waiting for connection: Unable to open the database file")

end Obstacle

namespace Tables

/-- What comes of connecting to a database, if one waits so many milliseconds at most. -/
def waiting (milliseconds : Nat) (e : Ending DatabaseFault Tables) : Ending DatabaseFault Tables :=
  if milliseconds = 0 then .crashed else e

/-- New databases in memory, which are gone with their only connections. -/
def inMemory (milliseconds : Nat) : Ending DatabaseFault Tables :=
  waiting milliseconds (.done (empty 1))

/-- New databases in a directory, where nothing stands in the way.  There is always at least one
connection to each. -/
def inDirectory (directory : String) (connections milliseconds : Nat) :
    Option Obstacle → Ending DatabaseFault Tables
  | none => waiting milliseconds (.done (empty (max connections 1)))
  | some .fileForDirectory => .refused (Obstacle.fileForDirectory.fault directory)
  | some obstacle => waiting milliseconds (.refused (obstacle.fault directory))

/-- The files of a directory. -/
def files : List String := ["trainer.sqlite3", "trainings.sqlite3", "users.sqlite3"]

end Tables

namespace Act

variable {ε : Type}

/-- Opens the files of a directory. -/
def openFiles (directory : String) (connections : Nat) : List String → Act ε Unit
  | [] => return ()
  | file :: rest => do
    Act.note .info "Initializing SQLite database"
      [("database_url", .text (directory ++ "/" ++ file)), ("mode", .text "File"),
        ("pool_size", .number connections)]
    Act.note .info "Running SQLite database migrations" []
    openFiles directory connections rest

/-- Opens the directory of databases that were opened before: everything is still there. -/
def reopen (directory : String) (connections : Nat) : Act ε Unit := do
  Act.note .info "Opening SQLite stores" [("dir", .text directory)]
  openFiles directory connections Tables.files
  Act.changeTables fun t => { t with connections := max connections 1 }

end Act

end TrainerBooking
