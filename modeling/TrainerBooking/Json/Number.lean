import TrainerBooking.Binary64
import TrainerBooking.Text.Digits

/-! # JSON numbers

A number literal is an optional minus sign, digits without a leading zero, an optional fraction and
an optional exponent (`Number.read`).  Two questions are asked of literals:

* **Which integer is it?** (`Number.integer?`) Only literals without fraction and exponent are
  integers, and `-0` is none, since integers have no negative zero.
* **Is it beyond the range of floating-point numbers?** (`Number.overflows`)  The digits that 64 bits
  have room for are multiplied by a power of ten, both rounded, and that product decides. -/

namespace TrainerBooking.Number

/-- The digits at the front, and what follows. -/
def spanDigits (cs : List Char) : List Char × List Char :=
  (cs.takeWhile fun c => (Text.digit? c).isSome, cs.dropWhile fun c => (Text.digit? c).isSome)

/-- The integer part at the front: a zero alone, or digits that do not begin with zero. -/
def readWhole (cs : List Char) : Option (List Char × List Char) :=
  match spanDigits cs with
  | (['0'], rest) => some (['0'], rest)
  | (c :: ds, rest) => if c = '0' then none else some (c :: ds, rest)
  | ([], _) => none

/-- The fraction at the front, without its point; empty if there is none. -/
def readFraction : List Char → Option (List Char × List Char)
  | '.' :: rest =>
    match spanDigits rest with
    | ([], _) => none
    | found => some found
  | rest => some ([], rest)

/-- The sign at the front, if there is one. -/
def readSign : List Char → List Char × List Char
  | '+' :: rest => (['+'], rest)
  | '-' :: rest => (['-'], rest)
  | rest => ([], rest)

/-- The exponent at the front, its sign included; empty if there is none. -/
def readExponent : List Char → Option (List Char × List Char)
  | c :: rest =>
    if c = 'e' ∨ c = 'E' then
      let (sign, rest) := readSign rest
      match spanDigits rest with
      | ([], _) => none
      | (ds, rest) => some (sign ++ ds, rest)
    else some ([], c :: rest)
  | [] => some ([], [])

/-- The parts of a literal. -/
structure Parts where
  /-- Is there a minus sign? -/
  negative : Bool
  /-- The digits before the point. -/
  whole : List Char
  /-- The digits after the point. -/
  fraction : List Char
  /-- The exponent with its sign. -/
  exponent : List Char
deriving DecidableEq, Repr

/-- The parts of the literal at the front, and what follows. -/
def readParts (cs : List Char) : Option (Parts × List Char) := do
  let (negative, cs) := match cs with
    | '-' :: rest => (true, rest)
    | _ => (false, cs)
  let (whole, cs) ← readWhole cs
  let (fraction, cs) ← readFraction cs
  let (exponent, cs) ← readExponent cs
  return (⟨negative, whole, fraction, exponent⟩, cs)

/-- Can the character stand in a literal? -/
def isNumberChar (c : Char) : Bool := (Text.digit? c).isSome || "+-.eE".toList.contains c

/-- The literal at the front, and what follows. -/
def read (cs : List Char) : Option (String × List Char) :=
  let span := cs.takeWhile isNumberChar
  (readParts span).map fun (_, rest) =>
    (String.ofList (span.take (span.length - rest.length)), rest ++ cs.drop span.length)

/-- The parts of a literal. -/
def parts? (literal : String) : Option Parts :=
  match readParts literal.toList with
  | some (p, []) => some p
  | _ => none

/-- The integer that a literal denotes. -/
def integer? (literal : String) : Option Int :=
  match parts? literal with
  | some ⟨negative, whole, [], []⟩ =>
    match Text.readNat? whole with
    | some n => if negative then (if n = 0 then none else some (-(n : Int))) else some n
    | none => none
  | _ => none

/-- The exponent of a literal as a number. -/
def exponentValue : List Char → Int
  | '-' :: ds => -((Text.readNat? ds).getD 0 : Nat)
  | '+' :: ds => ((Text.readNat? ds).getD 0 : Nat)
  | ds => ((Text.readNat? ds).getD 0 : Nat)

/-- Takes digits into a significand as long as it has no more than 64 bits, and gives the digits that
are left over. -/
def accumulate (significand : Nat) : List Char → Nat × List Char
  | [] => (significand, [])
  | c :: rest =>
    let next := 10 * significand + (Text.digit? c).getD 0
    if next < 18446744073709551616 then accumulate next rest else (significand, c :: rest)

/-- The significand of a literal, of its first digits, and the power of ten that scales it. -/
def scaled (p : Parts) : Nat × Int :=
  let (significand, wholeRest) := accumulate 0 p.whole
  let (significand, fractionRest) := accumulate significand p.fraction
  (significand, wholeRest.length - (p.fraction.length - fractionRest.length) +
    exponentValue p.exponent)

/-- The greatest power of ten that is a floating-point number. -/
def greatestPower : Int := 308

/-- Is the number too great for a floating-point number, if it is evaluated as the product of its
significand and a power of ten? -/
def overflows (literal : String) : Bool :=
  match (parts? literal).map scaled with
  | none => false
  | some (significand, power) =>
    if significand = 0 ∨ power < 0 then false
    else if power > greatestPower then true
    else (Binary64.product? significand (Nat.pow 10 power.toNat)).isNone

end TrainerBooking.Number
