/-! # Decimal digits

Numbers are written in decimal, without a sign for zero, and where a fixed width is asked for they
are filled up with zeros on the left (`padded`).  Reading takes ASCII digits only (`digit?`,
`readNat?`). -/

namespace TrainerBooking.Text

/-- A number in decimal, with zeros on the left up to the given width. -/
def padded (width n : Nat) : String :=
  let digits := Nat.repr n
  String.ofList (List.replicate (width - digits.length) '0') ++ digits

/-- An integer in decimal, a minus sign in front of a negative one. -/
def ofInt (i : Int) : String :=
  if i < 0 then "-" ++ Nat.repr i.natAbs else Nat.repr i.natAbs

/-- The value of an ASCII digit. -/
def digit? (c : Char) : Option Nat :=
  if '0' ≤ c ∧ c ≤ '9' then some (c.toNat - '0'.toNat) else none

/-- The number that a list of digits denotes, most significant digit first, after `start`. -/
def readDigits? (start : Nat) : List Char → Option Nat
  | [] => some start
  | c :: rest => (digit? c).bind fun d => readDigits? (10 * start + d) rest

/-- The number that a non-empty text of ASCII digits denotes. -/
def readNat? (s : List Char) : Option Nat :=
  if s.isEmpty then none else readDigits? 0 s

theorem digit?_lt {c : Char} {d : Nat} (h : digit? c = some d) : d < 10 := by
  simp only [digit?] at h
  split at h
  · next hc =>
    have h9 : c.toNat ≤ '9'.toNat := hc.2
    have : '9'.toNat = 57 := rfl
    have : '0'.toNat = 48 := rfl
    simp only [Option.some.injEq] at h
    omega
  · simp at h

/-- A hexadecimal digit's value, for either case. -/
def hexDigit? (c : Char) : Option Nat :=
  if '0' ≤ c ∧ c ≤ '9' then some (c.toNat - '0'.toNat)
  else if 'a' ≤ c ∧ c ≤ 'f' then some (c.toNat - 'a'.toNat + 10)
  else if 'A' ≤ c ∧ c ≤ 'F' then some (c.toNat - 'A'.toNat + 10)
  else none

/-- The lower-case hexadecimal digits of a number, without leading zeros. -/
def hex (n : Nat) : String := String.ofList (Nat.toDigits 16 n)

end TrainerBooking.Text
