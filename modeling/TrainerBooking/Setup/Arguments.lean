import TrainerBooking.Text.Digits

/-! # The command line

`Arguments.read` reads the arguments of the command line.  Every parameter takes one value, which is
attached to its option or follows it as an argument of its own, and is given at most once.

A value that stands apart from its option is looked at when the next option, or the end, has been
reached.  So the first fault in the order of reading is reported, except that an argument that is not
known wins over a fault of the value before it. -/

namespace TrainerBooking

/-- Why a command line is not carried out. -/
inductive UsageFault where
  /-- Help is asked for. -/
  | helpAsked
  /-- The version is asked for. -/
  | versionAsked
  /-- There is no such option, or no room for another argument. -/
  | unknownArgument
  /-- An option is given twice. -/
  | repeatedOption
  /-- An option lacks its value. -/
  | missingValue
  /-- An option has a value that it does not take. -/
  | superfluousValue
  /-- A value is not a number, or too great. -/
  | unfitValue
deriving DecidableEq, Repr

/-- What can be set on the command line. -/
inductive Parameter where
  /-- The directory of the databases. -/
  | database
  /-- The number under which the program listens. -/
  | number
  /-- The address at which the program listens. -/
  | address
  /-- The number of connections for each database. -/
  | poolSize
  /-- How many milliseconds to wait for a lock. -/
  | lockTimeout
  /-- The number of weeks for which the calendar may be edited ahead. -/
  | weeks
  /-- The first UTC hour of the day. -/
  | earliest
  /-- The last UTC hour of the day. -/
  | latest
deriving DecidableEq, Repr

/-- What is set on the command line. -/
structure Arguments where
  database : Option String
  number : Option Nat
  address : Option String
  poolSize : Option Nat
  lockTimeout : Option Nat
  weeks : Option Nat
  earliest : Option Nat
  latest : Option Nat
deriving DecidableEq, Repr

/-- What an argument is. -/
inductive ArgumentToken where
  /-- The mark after which no options follow. -/
  | endOfOptions
  /-- An option, perhaps with its value. -/
  | option (parameter : Parameter) (attached : Option String)
  /-- The option that asks for help. -/
  | help
  /-- The option that asks for the version. -/
  | version
  /-- An option with a value that it does not take. -/
  | superfluous
  /-- An option that is not known. -/
  | unknown
  /-- Something else. -/
  | word (text : String)
deriving DecidableEq, Repr

namespace ArgumentToken

/-- The parameter of a long name. -/
def parameter? : String → Option Parameter
  | "database" => some .database
  | "port" => some .number
  | "bind" => some .address
  | "pool-size" => some .poolSize
  | "lock-timeout-ms" => some .lockTimeout
  | "max-weeks-in-the-future" => some .weeks
  | "min-utc-hour" => some .earliest
  | "max-utc-hour" => some .latest
  | _ => none

/-- An option that is given by its long name, which ends at the first `=`. -/
def ofLong (cs : List Char) : ArgumentToken :=
  let name := String.ofList (cs.takeWhile (· != '='))
  let attached :=
    if cs.contains '=' then some (String.ofList ((cs.dropWhile (· != '=')).drop 1)) else none
  match parameter? name with
  | some p => .option p attached
  | none =>
    if name = "help" then if attached.isSome then .superfluous else .help
    else if name = "version" then if attached.isSome then .superfluous else .version
    else .unknown

/-- The value that is attached to a letter: one `=` between them does not count. -/
def attachedToLetter : List Char → Option String
  | [] => none
  | '=' :: cs => some (String.ofList cs)
  | cs => some (String.ofList cs)

/-- An option that is given by a letter. -/
def ofLetter (letter : Char) (rest : List Char) : ArgumentToken :=
  match letter with
  | 'd' => .option .database (attachedToLetter rest)
  | 'p' => .option .number (attachedToLetter rest)
  | 'h' => .help
  | 'V' => .version
  | _ => .unknown

/-- What an argument is; a lone dash is a word. -/
def read (argument : String) : ArgumentToken :=
  match argument.toList with
  | ['-', '-'] => .endOfOptions
  | '-' :: '-' :: cs => ofLong cs
  | '-' :: letter :: rest => ofLetter letter rest
  | _ => .word argument

end ArgumentToken

namespace Arguments

/-- Nothing is set. -/
def nothing : Arguments := ⟨none, none, none, none, none, none, none, none⟩

/-- The digits of a number after its sign; minus signs stand before zero only, and where `signed`
numbers are read. -/
def readNumber? (signed : Bool) (text : String) : Option Nat :=
  match text.toList with
  | '+' :: digits => Text.readNat? digits
  | '-' :: digits => if signed then (Text.readNat? digits).filter (· == 0) else none
  | digits => Text.readNat? digits

/-- A number for a parameter that has none yet. -/
def setNumber (old : Option Nat) (signed : Bool) (greatest : Nat) (text : String) :
    Except UsageFault (Option Nat) :=
  if old.isSome then .error .repeatedOption
  else
    match (readNumber? signed text).filter (· ≤ greatest) with
    | some n => .ok (some n)
    | none => .error .unfitValue

/-- A text for a parameter that has none yet. -/
def setText (old : Option String) (text : String) : Except UsageFault (Option String) :=
  if old.isSome then .error .repeatedOption else .ok (some text)

/-- A path for a parameter that has none yet. -/
def setPath (old : Option String) (text : String) : Except UsageFault (Option String) :=
  if old.isSome then .error .repeatedOption
  else if text = "" then .error .missingValue
  else .ok (some text)

/-- Sets a parameter. -/
def set (p : Parameter) (value : String) (a : Arguments) : Except UsageFault Arguments :=
  match p with
  | .database => (setPath a.database value).map fun v => { a with database := v }
  | .number => (setNumber a.number true 65535 value).map fun v => { a with number := v }
  | .address => (setText a.address value).map fun v => { a with address := v }
  | .poolSize => (setNumber a.poolSize true 4294967295 value).map fun v => { a with poolSize := v }
  | .lockTimeout =>
    (setNumber a.lockTimeout false 18446744073709551615 value).map fun v =>
      { a with lockTimeout := v }
  | .weeks => (setNumber a.weeks true 255 value).map fun v => { a with weeks := v }
  | .earliest => (setNumber a.earliest true 255 value).map fun v => { a with earliest := v }
  | .latest => (setNumber a.latest true 255 value).map fun v => { a with latest := v }

/-- An option that stands apart from its value, with the value as soon as it is there. -/
abbrev Waiting := Option (Parameter × Option String)

/-- Sets the parameter of an option that stands apart from its value. -/
def settle (a : Arguments) : Waiting → Except UsageFault Arguments
  | none => .ok a
  | some (_, none) => .error .missingValue
  | some (p, some value) => a.set p value

/-- Reads arguments after those that are already read. -/
def readFrom (a : Arguments) (waiting : Waiting) : List String → Except UsageFault Arguments
  | [] => a.settle waiting
  | argument :: rest =>
    match ArgumentToken.read argument with
    | .endOfOptions => if rest.isEmpty then a.settle waiting else .error .unknownArgument
    | .option p (some value) =>
      match a.settle waiting with
      | .error f => .error f
      | .ok a =>
        match a.set p value with
        | .error f => .error f
        | .ok a => a.readFrom none rest
    | .option p none =>
      match a.settle waiting with
      | .error f => .error f
      | .ok a => a.readFrom (some (p, none)) rest
    | .help => .error (match a.settle waiting with | .error f => f | .ok _ => .helpAsked)
    | .version => .error (match a.settle waiting with | .error f => f | .ok _ => .versionAsked)
    | .superfluous => .error .superfluousValue
    | .unknown => .error .unknownArgument
    | .word text =>
      match waiting with
      | some (p, none) => a.readFrom (some (p, some text)) rest
      | _ => .error .unknownArgument

/-- Reads the arguments of the command line. -/
def read (arguments : List String) : Except UsageFault Arguments :=
  nothing.readFrom none arguments

end Arguments

end TrainerBooking
