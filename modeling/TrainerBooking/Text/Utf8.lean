/-! # UTF-8

Bytes are read as UTF-8 one at a time.  `decode` gives a character for every well-formed sequence
and `none` for every **undecodable run**: the longest beginning of a well-formed sequence that stands
there, and at least one byte.  From it come the two readings in use:

* `decodeStrict` refuses bytes with an undecodable run,
* `decodeLossy` puts the replacement character `U+FFFD` in the place of each. -/

namespace TrainerBooking.Text

/-- What the bytes read so far ask for. -/
inductive Utf8State where
  /-- A new sequence may begin. -/
  | fresh
  /-- `missing + 1` more bytes, of which the next lies in `low … high`; `sofar` holds the bits. -/
  | within (missing sofar low high : Nat)
deriving DecidableEq, Repr

/-- What one byte begins: a character of its own, a longer sequence, or nothing. -/
def leadByte (b : Nat) : Option (Char ⊕ Utf8State) :=
  if b < 0x80 then some (.inl (Char.ofNat b))
  else if 0xC2 ≤ b ∧ b ≤ 0xDF then some (.inr (.within 0 (b - 0xC0) 0x80 0xBF))
  else if b = 0xE0 then some (.inr (.within 1 0 0xA0 0xBF))
  else if b = 0xED then some (.inr (.within 1 0xD 0x80 0x9F))
  else if 0xE1 ≤ b ∧ b ≤ 0xEF then some (.inr (.within 1 (b - 0xE0) 0x80 0xBF))
  else if b = 0xF0 then some (.inr (.within 2 0 0x90 0xBF))
  else if 0xF1 ≤ b ∧ b ≤ 0xF3 then some (.inr (.within 2 (b - 0xF0) 0x80 0xBF))
  else if b = 0xF4 then some (.inr (.within 2 4 0x80 0x8F))
  else none

/-- Reads bytes from a state on; `none` stands for an undecodable run. -/
def decodeFrom : Utf8State → List UInt8 → List (Option Char)
  | .fresh, [] => []
  | .within _ _ _ _, [] => [none]
  | .fresh, b :: rest =>
    match leadByte b.toNat with
    | some (.inl c) => some c :: decodeFrom .fresh rest
    | some (.inr state) => decodeFrom state rest
    | none => none :: decodeFrom .fresh rest
  | .within missing sofar low high, b :: rest =>
    if low ≤ b.toNat ∧ b.toNat ≤ high then
      match missing with
      | 0 => some (Char.ofNat (sofar * 64 + b.toNat % 64)) :: decodeFrom .fresh rest
      | m + 1 => decodeFrom (.within m (sofar * 64 + b.toNat % 64) 0x80 0xBF) rest
    else
      match leadByte b.toNat with
      | some (.inl c) => none :: some c :: decodeFrom .fresh rest
      | some (.inr state) => none :: decodeFrom state rest
      | none => none :: none :: decodeFrom .fresh rest

/-- The characters of the bytes, `none` for each undecodable run. -/
def decode (bytes : List UInt8) : List (Option Char) := decodeFrom .fresh bytes

/-- The text of well-formed bytes. -/
def decodeStrict (bytes : List UInt8) : Option String :=
  ((decode bytes).mapM id).map String.ofList

/-- The text of any bytes, with `U+FFFD` for each undecodable run. -/
def decodeLossy (bytes : List UInt8) : String :=
  String.ofList ((decode bytes).map fun c => c.getD '\uFFFD')

/-- The UTF-8 bytes of a text. -/
def utf8Bytes (s : String) : List UInt8 := s.toUTF8.toList

end TrainerBooking.Text
