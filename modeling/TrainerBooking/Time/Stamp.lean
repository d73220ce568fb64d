import TrainerBooking.Time.Moment

/-! # Time stamps

Moments cross every boundary of the program as RFC 3339 time stamps such as
`2025-12-01T13:00:00+01:00`.

* **Writing** (`Moment.stamp?`) is possible for the years `0 … 9999`: offset zero is written `Z`, and
  a fraction only if it is not zero, without trailing zeros.
* **Reading** (`Stamp.read`) goes from left to right, and the first part that cannot be read gives the
  fault; ranges are looked at once the whole text has the form of a stamp.  Any character may stand
  between date and time as long as it is one byte, `Z` may be a small letter, and digits after the
  ninth of the fraction are dropped.
* **Second 60** is read as the last nanosecond of second 59, and only where a leap second can be: in
  the last second of a month in UTC. -/

namespace TrainerBooking

/-- The parts of a time stamp. -/
inductive StampPart where
  | year | month | day | separator | hour | minute | second | subsecond | offsetHour | offsetMinute
deriving DecidableEq, Repr

namespace StampPart

/-- The name of the part in messages. -/
def name : StampPart → String
  | year => "year"
  | month => "month"
  | day => "day"
  | separator => "separator"
  | hour => "hour"
  | minute => "minute"
  | second => "second"
  | subsecond => "subsecond"
  | offsetHour => "offset hour"
  | offsetMinute => "offset minute"

end StampPart

/-- Why a text is no time stamp. -/
inductive StampFault where
  /-- The part is missing or not made of the digits it needs. -/
  | unread (part : StampPart)
  /-- A hyphen or a colon is missing. -/
  | punctuation
  /-- The part is a number outside its range. -/
  | outOfRange (part : StampPart)
  /-- Something follows the stamp. -/
  | trailing
deriving DecidableEq, Repr

namespace StampFault

/-- The wording of the fault. -/
def message : StampFault → String
  | unread part => "the '" ++ part.name ++ "' component could not be parsed"
  | punctuation => "a character literal was not valid"
  | outOfRange part => part.name ++ " was not in range"
  | trailing => "unexpected trailing characters; the end of input was expected"

end StampFault

namespace Stamp

/-! ### Reading -/

/-- Reads exactly `count` digits. -/
def digits (part : StampPart) : Nat → Nat → List Char → Except StampFault (Nat × List Char)
  | 0, sofar, rest => .ok (sofar, rest)
  | _ + 1, _, [] => .error (.unread part)
  | count + 1, sofar, c :: rest =>
    match Text.digit? c with
    | some d => digits part count (10 * sofar + d) rest
    | none => .error (.unread part)

/-- Reads a given punctuation mark. -/
def mark (c : Char) : List Char → Except StampFault (List Char)
  | d :: rest => if d = c then .ok rest else .error .punctuation
  | [] => .error .punctuation

/-- Reads one byte of any kind.  Of a character of several bytes the others are left, and since they
are no digits, that character may as well be left whole. -/
def separator : List Char → Except StampFault (List Char)
  | c :: rest => if c.toNat < 128 then .ok rest else .ok (c :: rest)
  | [] => .error (.unread .separator)

/-- The nanoseconds that the digits of a fraction denote. -/
def fraction (ds : List Nat) : Nat :=
  ((ds ++ List.replicate 9 0).take 9).foldl (fun n d => 10 * n + d) 0

/-- Reads an optional fraction. -/
def subsecond : List Char → Except StampFault (Nat × List Char)
  | '.' :: rest =>
    let ds := rest.takeWhile fun c => (Text.digit? c).isSome
    if ds.isEmpty then .error (.unread .subsecond)
    else .ok (fraction (ds.filterMap Text.digit?), rest.dropWhile fun c => (Text.digit? c).isSome)
  | rest => .ok (0, rest)

/-- Reads an offset, in seconds. -/
def offset : List Char → Except StampFault (Int × List Char)
  | 'Z' :: rest => .ok (0, rest)
  | 'z' :: rest => .ok (0, rest)
  | c :: rest =>
    if c = '+' ∨ c = '-' then do
      let (h, rest) ← digits .offsetHour 2 0 rest
      if h > 23 then throw (.unread .offsetHour)
      let rest ← mark ':' rest
      let (m, rest) ← digits .offsetMinute 2 0 rest
      if m > 59 then throw (.outOfRange .offsetMinute)
      let seconds : Int := h * 3600 + m * 60
      return (if c = '-' then -seconds else seconds, rest)
    else .error (.unread .offsetHour)
  | [] => .error (.unread .offsetHour)

/-- Is the instant in the last second of a month in UTC, at its last nanosecond? -/
def mayBeLeapSecond (m : Moment) : Bool :=
  match m.toUtc? with
  | some u =>
    decide (u.subsecond = 999999999) && decide (u.secondOfDay = 86399) &&
      decide (u.date.day = Date.daysIn u.date.year u.date.month)
  | none => false

/-- The moment that numbers in the form of a stamp denote, if they are in range. -/
def assemble (year month day hour minute second nanos : Nat) (offset : Int) :
    Except StampFault Moment := do
  let leap := second == 60
  let (second, nanos) := if leap then (59, 999999999) else (second, nanos)
  if month > 12 then throw (.outOfRange .month)
  if day = 0 ∨ day > Date.daysIn year month then throw (.outOfRange .day)
  if hour > 23 then throw (.outOfRange .hour)
  if minute > 59 then throw (.outOfRange .minute)
  if second > 59 then throw (.outOfRange .second)
  let localSecond := Date.dayNumber ⟨year, month, day⟩ * 86400 +
    ((hour * 3600 + minute * 60 + second : Nat) : Int)
  let m : Moment := ⟨(localSecond - offset) * Moment.perSecond + nanos, offset⟩
  if leap ∧ !mayBeLeapSecond m then throw (.outOfRange .second)
  return m

/-- Reads a time stamp. -/
def readChars (cs : List Char) : Except StampFault Moment := do
  let (year, cs) ← digits .year 4 0 cs
  let cs ← mark '-' cs
  let (month, cs) ← digits .month 2 0 cs
  if month = 0 then throw (.unread .month)
  let cs ← mark '-' cs
  let (day, cs) ← digits .day 2 0 cs
  let cs ← separator cs
  let (hour, cs) ← digits .hour 2 0 cs
  let cs ← mark ':' cs
  let (minute, cs) ← digits .minute 2 0 cs
  let cs ← mark ':' cs
  let (second, cs) ← digits .second 2 0 cs
  let (nanos, cs) ← subsecond cs
  let (offset, cs) ← offset cs
  if !cs.isEmpty then throw .trailing
  assemble year month day hour minute second nanos offset

/-- The moment that a time stamp denotes. -/
def read (s : String) : Except StampFault Moment := readChars s.toList

end Stamp

namespace Moment

/-! ### Writing -/

/-- The offset as it is written in a stamp. -/
def stampOffset (offset : Int) : String :=
  if offset = 0 then "Z"
  else
    let n := offset.natAbs
    (if offset < 0 then "-" else "+") ++ Text.padded 2 (n / 3600) ++ ":" ++
      Text.padded 2 (n / 60 % 60)

/-- The time stamp of a moment; the years before `0` have none. -/
def stamp? (m : Moment) : Option String :=
  if m.date.year < 0 ∨ 9999 < m.date.year then none
  else
    some <| m.date.text ++ "T" ++ Text.padded 2 m.hour ++ ":" ++ Text.padded 2 m.minute ++ ":" ++
      Text.padded 2 m.secondOfMinute ++
      (if m.subsecond = 0 then "" else "." ++ fractionText m.subsecond) ++ stampOffset m.offset

end Moment

end TrainerBooking
