import TrainerBooking.Text.Digits

/-! # Network addresses

An `IpAddress` has four octets or eight groups of 16 bits.

* **Written** (`IpAddress.text`), octets are decimal and groups hexadecimal, without leading zeros.
  The first longest run of two or more zero groups shrinks to `::`, and the addresses that stand for
  addresses of four octets show those.
* **Read** (`IpAddress.read?`), an address may have leading zeros in its groups, any one run of zero
  groups as `::`, and its last two groups in the form of four octets.

A `SocketAddress` adds the number under which the machine listens.  Read, an address of eight groups
stands in brackets there, and may name a zone of the network after a `%` (`readZone`), which has no
part in the address. -/

namespace TrainerBooking

/-- An address of a machine. -/
inductive IpAddress where
  /-- Four octets. -/
  | v4 (a b c d : UInt8)
  /-- Eight groups. -/
  | v6 (groups : Vector UInt16 8)
deriving DecidableEq, Repr

/-- The address of a machine, and a number under which it listens. -/
structure SocketAddress where
  /-- The machine. -/
  ip : IpAddress
  /-- The number. -/
  number : UInt16
deriving DecidableEq, Repr

namespace IpAddress

/-! ### Writing -/

/-- The written form of four octets. -/
def textOfOctets (a b c d : UInt8) : String :=
  ".".intercalate ([a, b, c, d].map fun o => Nat.repr o.toNat)

/-- The written form of groups, without shrinking. -/
def textOfGroups (groups : List UInt16) : String :=
  ":".intercalate (groups.map fun g => Text.hex g.toNat)

/-- The number of zero groups at the front. -/
def leadingZeros (groups : List UInt16) : Nat := (groups.takeWhile (· == 0)).length

/-- The length of the longest run of zero groups. -/
def longestRun : List UInt16 → Nat
  | [] => 0
  | g :: rest => max (leadingZeros (g :: rest)) (longestRun rest)

/-- Splits groups at the first run of so many zero groups; the run is dropped. -/
def cutRun (length : Nat) : List UInt16 → List UInt16 × List UInt16
  | [] => ([], [])
  | g :: rest =>
    if leadingZeros (g :: rest) = length then ([], (g :: rest).drop length)
    else
      let (before, after) := cutRun length rest
      (g :: before, after)

/-- The written form of eight groups. -/
def textOfV6 (groups : List UInt16) : String :=
  match groups with
  | [0, 0, 0, 0, 0, 0xFFFF, high, low] =>
    "::ffff:" ++ textOfOctets (high >>> 8).toUInt8 high.toUInt8 (low >>> 8).toUInt8 low.toUInt8
  | _ =>
    let run := longestRun groups
    if run > 1 then
      let (before, after) := cutRun run groups
      textOfGroups before ++ "::" ++ textOfGroups after
    else textOfGroups groups

/-- The written form of an address. -/
def text : IpAddress → String
  | v4 a b c d => textOfOctets a b c d
  | v6 groups => textOfV6 groups.toList

/-! ### Reading

Every function gives what it read at the front of the characters, and what follows. -/

/-- The value of digits in a base. -/
def valueOf (base : Nat) (digits : List Nat) : Nat :=
  digits.foldl (fun value d => base * value + d) 0

/-- One to three decimal digits below 256, without leading zeros. -/
def readOctet (cs : List Char) : Option (UInt8 × List Char) :=
  let digits := cs.takeWhile fun c => (Text.digit? c).isSome
  let value := valueOf 10 (digits.filterMap Text.digit?)
  if digits.isEmpty || digits.length > 3 then none
  else if digits.head? = some '0' ∧ digits.length > 1 then none
  else if value > 255 then none
  else some (UInt8.ofNat value, cs.drop digits.length)

/-- One to four hexadecimal digits. -/
def readGroup (cs : List Char) : Option (UInt16 × List Char) :=
  let digits := cs.takeWhile fun c => (Text.hexDigit? c).isSome
  if digits.isEmpty || digits.length > 4 then none
  else
    some (UInt16.ofNat (valueOf 16 (digits.filterMap Text.hexDigit?)), cs.drop digits.length)

/-- What follows a given character. -/
def readMark (mark : Char) : List Char → Option (List Char)
  | c :: rest => if c = mark then some rest else none
  | [] => none

/-- Four octets with dots between them. -/
def readOctets (cs : List Char) : Option ((UInt8 × UInt8 × UInt8 × UInt8) × List Char) := do
  let (a, cs) ← readOctet cs
  let (b, cs) ← readOctet (← readMark '.' cs)
  let (c, cs) ← readOctet (← readMark '.' cs)
  let (d, cs) ← readOctet (← readMark '.' cs)
  return ((a, b, c, d), cs)

/-- The group of two octets. -/
def joinOctets (high low : UInt8) : UInt16 := high.toUInt16 * 256 + low.toUInt16

/-- As many groups with colons between them as there are, up to a number.  Four octets count as two
groups and end the list; whether they did is told, too. -/
def readGroups (first : Bool) : Nat → List Char → List UInt16 × Bool × List Char
  | 0, cs => ([], false, cs)
  | places + 1, cs =>
    match if first then some cs else readMark ':' cs with
    | none => ([], false, cs)
    | some body =>
      match if places = 0 then none else readOctets body with
      | some ((a, b, c, d), rest) => ([joinOctets a b, joinOctets c d], true, rest)
      | none =>
        match readGroup body with
        | none => ([], false, cs)
        | some (g, rest) =>
          let (groups, octets, rest) := readGroups false places rest
          (g :: groups, octets, rest)

/-- Eight groups. -/
def ofGroups (groups : List UInt16) : IpAddress :=
  .v6 (Vector.ofFn fun i => groups.getD i.val 0)

/-- An address of eight groups. -/
def readV6 (cs : List Char) : Option (IpAddress × List Char) :=
  let (before, octets, rest) := readGroups true 8 cs
  if before.length = 8 then some (ofGroups before, rest)
  else if octets then none
  else do
    let rest ← readMark ':' (← readMark ':' rest)
    let (after, _, rest) := readGroups true (7 - before.length) rest
    let gap := List.replicate (8 - before.length - after.length) 0
    return (ofGroups (before ++ gap ++ after), rest)

/-- An address of four octets. -/
def readV4 (cs : List Char) : Option (IpAddress × List Char) :=
  (readOctets cs).map fun ((a, b, c, d), rest) => (.v4 a b c d, rest)

/-- The address that a text denotes. -/
def read? (s : String) : Option IpAddress :=
  match readV4 s.toList <|> readV6 s.toList with
  | some (ip, []) => some ip
  | _ => none

end IpAddress

namespace SocketAddress

/-- The written form of the address; colons inside of the first half are set off by brackets. -/
def text (s : SocketAddress) : String :=
  (match s.ip with
    | .v4 _ _ _ _ => s.ip.text
    | .v6 _ => "[" ++ s.ip.text ++ "]") ++ ":" ++ Nat.repr s.number.toNat

/-- A colon and a number of 16 bits. -/
def readNumber (cs : List Char) : Option UInt16 := do
  let n ← Text.readNat? (← IpAddress.readMark ':' cs)
  if n < 65536 then some (UInt16.ofNat n) else none

/-- A `%` and a number of 32 bits at the front, if they stand there, and what follows. -/
def readZone (cs : List Char) : Option Nat × List Char :=
  let digits := (cs.drop 1).takeWhile fun c => (Text.digit? c).isSome
  match IpAddress.readMark '%' cs, Text.readNat? digits with
  | some rest, some n => if n < 4294967296 then (some n, rest.drop digits.length) else (none, cs)
  | _, _ => (none, cs)

/-- The address that a text denotes. -/
def read? (s : String) : Option SocketAddress :=
  match IpAddress.readV4 s.toList with
  | some (ip, rest) => (readNumber rest).map fun number => ⟨ip, number⟩
  | none => do
    let (ip, rest) ← IpAddress.readV6 (← IpAddress.readMark '[' s.toList)
    let number ← readNumber (← IpAddress.readMark ']' (readZone rest).2)
    return ⟨ip, number⟩

end SocketAddress

end TrainerBooking
