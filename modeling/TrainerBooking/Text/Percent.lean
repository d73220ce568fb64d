import TrainerBooking.Text.Digits
import TrainerBooking.Text.Utf8

/-! # Percent-encoding

In the target of a request `%` and two hexadecimal digits stand for one byte; a `%` that is not
followed by two such digits stands for itself.  A **form** (`formPairs`) is a list of fields joined
by `&`, each a name and, after the first `=`, a value; in both, `+` stands for a blank. -/

namespace TrainerBooking.Text

/-- Replaces every percent-encoded byte. -/
def percentDecode : List UInt8 → List UInt8
  | [] => []
  | b :: rest =>
    match rest with
    | high :: low :: tail =>
      if b = 0x25 then
        match hexDigit? (Char.ofNat high.toNat), hexDigit? (Char.ofNat low.toNat) with
        | some h, some l => UInt8.ofNat (16 * h + l) :: percentDecode tail
        | _, _ => b :: percentDecode (high :: low :: tail)
      else b :: percentDecode (high :: low :: tail)
    | [low] => b :: percentDecode [low]
    | [] => [b]

/-- Splits a list at every separator; the separators are dropped. -/
def splitAll {α : Type} [BEq α] (separator : α) : List α → List (List α)
  | [] => [[]]
  | a :: rest =>
    if a == separator then [] :: splitAll separator rest
    else
      match splitAll separator rest with
      | piece :: pieces => (a :: piece) :: pieces
      | [] => [[a]]

/-- Splits a list at its first separator; the second part is empty if there is none. -/
def splitFirst {α : Type} [BEq α] (separator : α) (l : List α) : List α × List α :=
  (l.takeWhile (· != separator), (l.dropWhile (· != separator)).drop 1)

/-- One name or value of a form: `+` is a blank, then the percent-encoded bytes are replaced. -/
def formText (bytes : List UInt8) : String :=
  decodeLossy (percentDecode (bytes.map fun b => if b = 0x2B then 0x20 else b))

/-- The fields of a form in their order; empty fields do not count. -/
def formPairs (query : String) : List (String × String) :=
  ((splitAll 0x26 (utf8Bytes query)).filter fun piece => !piece.isEmpty).map fun piece =>
    let (name, value) := splitFirst 0x3D piece
    (formText name, formText value)

end TrainerBooking.Text
