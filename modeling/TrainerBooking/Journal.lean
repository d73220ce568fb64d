import TrainerBooking.Text.Digits

/-! # The journal

While the program works it writes `Event`s.  An event has a level, a message, named fields, and the
spans inside of which it was written, from the outermost in. -/

namespace TrainerBooking

/-- How much an event matters. -/
inductive Level where
  | trace | debug | info | warn | error
deriving DecidableEq, Repr

namespace Level

/-- The written form of a level. -/
def label : Level → String
  | trace => "TRACE"
  | debug => "DEBUG"
  | info => "INFO"
  | warn => "WARN"
  | error => "ERROR"

end Level

/-- What a field of an event holds. -/
inductive FieldValue where
  | text (s : String)
  | number (i : Int)
deriving DecidableEq, Repr

/-- Something that happened. -/
structure Event where
  level : Level
  message : String
  fields : List (String × FieldValue)
  /-- The spans inside of which it happened. -/
  spans : List String
deriving DecidableEq, Repr

end TrainerBooking
