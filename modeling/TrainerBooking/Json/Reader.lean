import TrainerBooking.Json.Number
import TrainerBooking.Json.Value

/-! # Reading JSON

`Draft.read` reads a text as JSON, as far as it is JSON.  Every function below gives what it read and
what follows it; `none` in the place of what follows says that the text is broken before.  The depth
of the recursion is bounded by the length of the text, of which every step takes at least one
character. -/

namespace TrainerBooking.Draft

/-- Drops white space at the front. -/
def skipBlanks (cs : List Char) : List Char :=
  cs.dropWhile fun c => c == ' ' || c == '\n' || c == '\t' || c == '\r'

/-- The number that four hexadecimal digits at the front denote, and what follows. -/
def readHex4 : List Char → Option (Nat × List Char)
  | a :: b :: c :: d :: rest => do
    let a ← Text.hexDigit? a
    let b ← Text.hexDigit? b
    let c ← Text.hexDigit? c
    let d ← Text.hexDigit? d
    return (((a * 16 + b) * 16 + c) * 16 + d, rest)
  | _ => none

/-- The second half of a surrogate pair at the front. -/
def readLowSurrogate : List Char → Option (Nat × List Char)
  | '\\' :: 'u' :: rest => (readHex4 rest).filter fun (n, _) => 0xDC00 ≤ n ∧ n ≤ 0xDFFF
  | _ => none

/-- The character of a one-letter escape. -/
def simpleEscape? : Char → Option Char
  | '"' => some '"'
  | '\\' => some '\\'
  | '/' => some '/'
  | 'b' => some '\x08'
  | 'f' => some '\x0c'
  | 'n' => some '\n'
  | 'r' => some '\r'
  | 't' => some '\t'
  | _ => none

/-- The rest of a string, up to its closing quote.  Collected are the characters in reverse, or
nothing after half a surrogate pair. -/
def readString : Nat → Option (List Char) → List Char → Option (Option String × List Char)
  | 0, _, _ => none
  | _ + 1, _, [] => none
  | fuel + 1, sofar, c :: rest =>
    if c = '"' then some (sofar.map fun s => String.ofList s.reverse, rest)
    else if c = '\\' then
      match rest with
      | 'u' :: rest =>
        match readHex4 rest with
        | none => none
        | some (n, rest) =>
          if 0xD800 ≤ n ∧ n ≤ 0xDBFF then
            match readLowSurrogate rest with
            | some (m, rest) =>
              readString fuel
                (sofar.map (Char.ofNat (0x10000 + (n - 0xD800) * 0x400 + (m - 0xDC00)) :: ·)) rest
            | none => readString fuel none rest
          else if 0xDC00 ≤ n ∧ n ≤ 0xDFFF then readString fuel none rest
          else readString fuel (sofar.map (Char.ofNat n :: ·)) rest
      | e :: rest =>
        match simpleEscape? e with
        | some c => readString fuel (sofar.map (c :: ·)) rest
        | none => none
      | [] => none
    else if c.toNat < 0x20 then none
    else readString fuel (sofar.map (c :: ·)) rest

/-- What follows a word at the front. -/
def readWord : List Char → List Char → Option (List Char)
  | [], rest => some rest
  | w :: word, c :: rest => if c = w then readWord word rest else none
  | _ :: _, [] => none

mutual

/-- A value at the front. -/
def readValue : Nat → List Char → Draft × Option (List Char)
  | 0, _ => (.broken, none)
  | fuel + 1, cs =>
    match skipBlanks cs with
    | 'n' :: rest =>
      match readWord ['u', 'l', 'l'] rest with
      | some rest => (.null, some rest)
      | none => (.broken, none)
    | 't' :: rest =>
      match readWord ['r', 'u', 'e'] rest with
      | some rest => (.bool true, some rest)
      | none => (.broken, none)
    | 'f' :: rest =>
      match readWord ['a', 'l', 's', 'e'] rest with
      | some rest => (.bool false, some rest)
      | none => (.broken, none)
    | '"' :: rest =>
      match readString fuel (some []) rest with
      | some (s, rest) => (.string s, some rest)
      | none => (.broken, none)
    | '[' :: rest =>
      match readItems fuel true rest with
      | (items, some rest) => (.array items true, some rest)
      | (items, none) => (.array items false, none)
    | '{' :: rest =>
      match readMembers fuel true rest with
      | (members, some rest) => (.object members true, some rest)
      | (members, none) => (.object members false, none)
    | cs =>
      match Number.read cs with
      | some (literal, rest) => (.number literal, some rest)
      | none => (.broken, none)

/-- The items of an array up to its end; the first item follows no comma. -/
def readItems : Nat → Bool → List Char → List Draft × Option (List Char)
  | 0, _, _ => ([], none)
  | fuel + 1, first, cs =>
    match skipBlanks cs with
    | [] => ([], none)
    | c :: rest =>
      if c = ']' then ([], some rest)
      else
        let start : Option (List Char) :=
          if first then some (c :: rest)
          else if c = ',' then
            match skipBlanks rest with
            | [] => none
            | d :: rest => if d = ']' then none else some (d :: rest)
          else none
        match start with
        | none => ([], none)
        | some cs =>
          match readValue fuel cs with
          | (item, none) => ([item], none)
          | (item, some rest) =>
            match readItems fuel false rest with
            | (items, after) => (item :: items, after)

/-- The members of an object up to its end; the first member follows no comma. -/
def readMembers : Nat → Bool → List Char → List (Option String × Draft) × Option (List Char)
  | 0, _, _ => ([], none)
  | fuel + 1, first, cs =>
    match skipBlanks cs with
    | [] => ([], none)
    | c :: rest =>
      if c = '}' then ([], some rest)
      else
        let start : List Char := if first then c :: rest else if c = ',' then skipBlanks rest else []
        match start with
        | '"' :: rest =>
          match readString fuel (some []) rest with
          | some (name, rest) =>
            match skipBlanks rest with
            | ':' :: rest =>
              match readValue fuel rest with
              | (value, none) => ([(name, value)], none)
              | (value, some rest) =>
                match readMembers fuel false rest with
                | (members, after) => ((name, value) :: members, after)
            | _ => ([(name, .broken)], none)
          | none => ([], none)
        | _ => ([], none)

end

/-- Reads a text: what stands at its beginning, and whether nothing but white space follows. -/
def read (text : String) : Draft × Bool :=
  let cs := text.toList
  match readValue (cs.length + 1) cs with
  | (d, some rest) => (d, (skipBlanks rest).isEmpty)
  | (d, none) => (d, false)

end TrainerBooking.Draft

namespace TrainerBooking.Json

/-- The value that a text denotes. -/
def read? (text : String) : Option Json :=
  match Draft.read text with
  | (d, true) => d.whole?
  | (_, false) => none

end TrainerBooking.Json
