import TrainerBooking.Account
import TrainerBooking.Json.Number
import TrainerBooking.Json.Value

/-! # Records in JSON

A record is described by its `Field`s: a name, a type and, for a field that may be missing, the value
that stands for it.  `Record.read` reads a record from a draft in the order of the text, and **the
first thing that is wrong there decides** between the two ways to fail: the text is `malformed`, or it
is JSON of a shape that is no such record (`mismatched`).

* An object gives the fields by name, each of them at most once; other members are passed over.
* An array gives the fields by position; fields that may be missing may be left out at its end. -/

namespace TrainerBooking

/-- Why a draft is no record. -/
inductive Unfit where
  /-- The text is not JSON. -/
  | malformed
  /-- The value has another shape. -/
  | mismatched
deriving DecidableEq, Repr

/-- The types of fields. -/
inductive FieldType where
  /-- A string. -/
  | text
  /-- An array of strings. -/
  | texts
  /-- A 64-bit integer. -/
  | whole
  /-- A string or `null`. -/
  | optionalText
deriving DecidableEq, Repr

/-- The values of a type of field. -/
def FieldType.Carrier : FieldType → Type
  | text => String
  | texts => List String
  | whole => Int
  | optionalText => Option String

/-- A field of a record. -/
structure Field where
  name : String
  type : FieldType
  /-- What stands for the field if it is missing. -/
  fallback : Option type.Carrier

namespace Field

/-- A field that has to be there. -/
def required (name : String) (type : FieldType) : Field := ⟨name, type, none⟩

end Field

/-- The values of the fields of a record. -/
def Record : List Field → Type
  | [] => Unit
  | f :: rest => f.type.Carrier × Record rest

/-- The values of the fields that were read so far. -/
def PartialRecord : List Field → Type
  | [] => Unit
  | f :: rest => Option f.type.Carrier × PartialRecord rest

namespace Record

/-- Why a draft does not have an expected shape: it is read as far as is needed to see that. -/
def unfit : Draft → Unfit
  | .broken => .malformed
  | .number literal => if Number.overflows literal then .malformed else .mismatched
  | .string none => .malformed
  | .string (some _) | .null | .bool _ | .array _ _ | .object _ _ => .mismatched

/-- Reads a string. -/
def readText : Draft → Except Unfit String
  | .string (some s) => .ok s
  | d => .error (unfit d)

/-- Reads strings up to the end of an array. -/
def readTexts (closed : Bool) : List Draft → Except Unfit (List String)
  | [] => if closed then .ok [] else .error .malformed
  | d :: rest => do return (← readText d) :: (← readTexts closed rest)

/-- Reads a 64-bit integer. -/
def readWhole : Draft → Except Unfit Int
  | .number literal =>
    match Number.integer? literal with
    | some i =>
      if Account.leastBalance ≤ i ∧ i ≤ Account.greatestBalance then .ok i
      else .error (unfit (.number literal))
    | none => .error (unfit (.number literal))
  | d => .error (unfit d)

/-- Reads a value of a type of field. -/
def readField : (type : FieldType) → Draft → Except Unfit type.Carrier
  | .text, d => readText d
  | .texts, .array items closed => readTexts closed items
  | .texts, d => .error (unfit d)
  | .whole, d => readWhole d
  | .optionalText, .null => .ok none
  | .optionalText, d => (readText d).map some

/-- The record of which nothing is read yet. -/
def blank : (fields : List Field) → PartialRecord fields
  | [] => ()
  | _ :: rest => (none, blank rest)

/-- Takes in a member of an object. -/
def takeMember (name : String) (value : Draft) :
    (fields : List Field) → PartialRecord fields → Except Unfit (PartialRecord fields)
  | [], () => if value.isSound then .ok () else .error .malformed
  | f :: rest, (found, others) =>
    if f.name = name then
      match found with
      | some _ => .error .mismatched
      | none => do return (some (← readField f.type value), others)
    else do return (found, ← takeMember name value rest others)

/-- Puts the fallbacks in the places of what is missing. -/
def complete : (fields : List Field) → PartialRecord fields → Except Unfit (Record fields)
  | [], () => .ok ()
  | f :: rest, (found, others) =>
    match found <|> f.fallback with
    | some value => do return (value, ← complete rest others)
    | none => .error .mismatched

/-- Takes in members up to the end of an object. -/
def readMembers (fields : List Field) (closed : Bool) :
    PartialRecord fields → List (Option String × Draft) → Except Unfit (Record fields)
  | sofar, [] => if closed then complete fields sofar else .error .malformed
  | _, (none, _) :: _ => .error .malformed
  | sofar, (some name, value) :: rest => do
    readMembers fields closed (← takeMember name value fields sofar) rest

/-- Takes in items up to the end of an array. -/
def readItems (closed : Bool) : (fields : List Field) → List Draft → Except Unfit (Record fields)
  | [], [] => if closed then .ok () else .error .malformed
  | [], _ :: _ => .error .malformed
  | f :: rest, [] =>
    if closed then
      match f.fallback with
      | some value => do return (value, ← readItems closed rest [])
      | none => .error .mismatched
    else .error .malformed
  | f :: rest, d :: items => do
    let value ← readField f.type d
    return (value, ← readItems closed rest items)

/-- Reads a record. -/
def read (fields : List Field) : Draft → Except Unfit (Record fields)
  | .object members closed => readMembers fields closed (blank fields) members
  | .array items closed => readItems closed fields items
  | d => .error (unfit d)

end Record

end TrainerBooking
