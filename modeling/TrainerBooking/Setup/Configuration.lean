import TrainerBooking.Net.IpAddress
import TrainerBooking.Setup.Arguments
import TrainerBooking.Window

/-! # The configuration

A `Configuration` is made of the arguments of the command line.  What is not set there has a standard
value.  Everything that is wrong is reported at once (`Configuration.problems`), and there is a
configuration exactly if nothing is wrong. -/

namespace TrainerBooking

/-- Where the store is kept. -/
inductive Storage where
  /-- In memory, so it is gone with the program. -/
  | memory
  /-- In the databases of a directory. -/
  | directory (path : String)
deriving DecidableEq, Repr

/-- How the program is set up. -/
structure Configuration where
  /-- Where the program listens. -/
  address : SocketAddress
  /-- Where the store is kept. -/
  storage : Storage
  /-- The number of connections for each database. -/
  poolSize : Nat
  /-- How many milliseconds to wait for a lock. -/
  lockTimeout : Nat
  /-- Which hours may be created. -/
  window : BookingWindow
deriving DecidableEq, Repr

namespace Arguments

/-- The address at which the program listens, as it is written. -/
def writtenAddress (a : Arguments) : String := a.address.getD "127.0.0.1"

/-- The number under which the program listens. -/
def listeningNumber (a : Arguments) : UInt16 := UInt16.ofNat (a.number.getD 3000)

/-- The number of connections for each database. -/
def connections (a : Arguments) : Nat := a.poolSize.getD 8

/-- How many milliseconds to wait for a lock. -/
def patience (a : Arguments) : Nat := a.lockTimeout.getD 5000

/-- The limits of the booking window. -/
def limits (a : Arguments) : Limits :=
  ⟨a.weeks.getD Limits.standard.weeks, a.earliest.getD Limits.standard.earliest,
    a.latest.getD Limits.standard.latest⟩

/-- Where the store is kept. -/
def storage (a : Arguments) : Storage :=
  match a.database with
  | some path => .directory path
  | none => .memory

end Arguments

namespace Configuration

/-- What is wrong with the address. -/
def addressProblems (a : Arguments) : List String :=
  if (IpAddress.read? a.writtenAddress).isSome then []
  else ["bind address '" ++ a.writtenAddress ++ "' is not an IP address"]

/-- What is wrong with the booking window. -/
def windowProblems (a : Arguments) : List String :=
  match BookingWindow.ofLimits a.limits with
  | .ok _ => []
  | .error v => [v.message]

/-- Everything that is wrong with the arguments. -/
def problems (a : Arguments) : List String :=
  addressProblems a ++
  (if a.connections = 0 then ["pool size must be at least 1"] else []) ++
  (if a.patience = 0 then ["lock timeout must be greater than 0 ms"] else []) ++
  windowProblems a

/-- What is said about the problems. -/
def message (problems : List String) : String :=
  "Invalid configuration: " ++ "; ".intercalate problems

/-- The configuration of the arguments, or what is wrong with them. -/
def ofArguments (a : Arguments) : Except (List String) Configuration :=
  match IpAddress.read? a.writtenAddress, BookingWindow.ofLimits a.limits, problems a with
  | some ip, .ok window, [] =>
    .ok ⟨⟨ip, a.listeningNumber⟩, a.storage, a.connections, a.patience, window⟩
  | _, _, found => .error found

end Configuration

end TrainerBooking
