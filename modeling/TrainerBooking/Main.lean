import TrainerBooking.Setup.Configuration

/-! # The command line

Checks the command line and says how the program would be set up, or what is wrong. -/

namespace TrainerBooking

/-- How the program is called. -/
def usage : String :=
  "Usage: trainer-booking [--database DIR] [--port NUMBER] [--bind ADDRESS] [--pool-size NUMBER]\n" ++
  "  [--lock-timeout-ms NUMBER] [--max-weeks-in-the-future NUMBER] [--min-utc-hour NUMBER]\n" ++
  "  [--max-utc-hour NUMBER] [--help] [--version]"

namespace UsageFault

/-- What is said about the fault. -/
def notice : UsageFault → String
  | helpAsked => usage
  | versionAsked => "trainer-booking 0.1.0"
  | unknownArgument => "error: unexpected argument\n\n" ++ usage
  | repeatedOption => "error: an option is given twice\n\n" ++ usage
  | missingValue => "error: an option lacks its value\n\n" ++ usage
  | superfluousValue => "error: an option has a value that it does not take\n\n" ++ usage
  | unfitValue => "error: invalid value\n\n" ++ usage

/-- Is the fault no fault, but a question? -/
def isQuestion : UsageFault → Bool
  | helpAsked | versionAsked => true
  | _ => false

end UsageFault

namespace Configuration

/-- How the program is set up, in one line. -/
def summary (c : Configuration) : String :=
  "listening on " ++ c.address.text ++ ", store " ++
    (match c.storage with
      | .memory => "in memory"
      | .directory path => "in " ++ path)

end Configuration

end TrainerBooking

open TrainerBooking in
/-- Checks the command line. -/
def main (arguments : List String) : IO UInt32 := do
  match Arguments.read arguments with
  | .error fault =>
    if fault.isQuestion then
      IO.println fault.notice
      return 0
    IO.eprintln fault.notice
    return 2
  | .ok arguments =>
    match Configuration.ofArguments arguments with
    | .error problems =>
      IO.eprintln (Configuration.message problems)
      return 1
    | .ok c =>
      IO.println c.summary
      return 0
