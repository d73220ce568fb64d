import TrainerBooking.Text.Digits

/-! # JSON values

A `Json` value keeps a number as it is written (`Json.number`), since only its users know which
numbers they want.  A `Draft` is what was read of a text that need not be JSON to its end: reading
goes from left to right, and where the text stops being JSON the draft is `broken` or left open.

* `Json.draft` sees a value as a draft that is whole,
* `Draft.whole?` is the value of a draft, if nothing in it is broken. -/

namespace TrainerBooking

/-- A JSON value. -/
inductive Json where
  | null
  | bool (b : Bool)
  | number (literal : String)
  | string (s : String)
  | array (items : List Json)
  | object (members : List (String × Json))
deriving Repr

/-- What was read of a text. -/
inductive Draft where
  /-- Here the text stops being JSON. -/
  | broken
  | null
  | bool (b : Bool)
  | number (literal : String)
  /-- A string; it has no characters if one of its escapes is half a surrogate pair. -/
  | string (s : Option String)
  /-- An array, and whether it was closed. -/
  | array (items : List Draft) (closed : Bool)
  /-- An object, and whether it was closed; a name has no characters if a string would have none. -/
  | object (members : List (Option String × Draft)) (closed : Bool)
deriving Repr

namespace Json

/-- The integer as a JSON number. -/
def ofInt (i : Int) : Json := .number (Text.ofInt i)

/-- The natural number as a JSON number. -/
def ofNat (n : Nat) : Json := .number (Nat.repr n)

/-- A value, or `null`. -/
def ofOption {α : Type} (f : α → Json) : Option α → Json
  | some a => f a
  | none => .null

/-- The member of an object under a name. -/
def member? (j : Json) (name : String) : Option Json :=
  match j with
  | .object members => (members.find? fun m => m.1 == name).map Prod.snd
  | _ => none

/-- The characters of a string. -/
def string? : Json → Option String
  | .string s => some s
  | _ => none

/-- The items of an array. -/
def items? : Json → Option (List Json)
  | .array items => some items
  | _ => none

mutual

/-- The value as a draft. -/
def draft : Json → Draft
  | .null => .null
  | .bool b => .bool b
  | .number l => .number l
  | .string s => .string (some s)
  | .array items => .array (draftItems items) true
  | .object members => .object (draftMembers members) true

/-- The items as drafts. -/
def draftItems : List Json → List Draft
  | [] => []
  | j :: rest => j.draft :: draftItems rest

/-- The members as drafts. -/
def draftMembers : List (String × Json) → List (Option String × Draft)
  | [] => []
  | (name, j) :: rest => (some name, j.draft) :: draftMembers rest

end

end Json

namespace Draft

mutual

/-- The value of a draft that is whole. -/
def whole? : Draft → Option Json
  | .broken => none
  | .null => some .null
  | .bool b => some (.bool b)
  | .number l => some (.number l)
  | .string s => s.map .string
  | .array items closed => if closed then (wholeItems? items).map .array else none
  | .object members closed => if closed then (wholeMembers? members).map .object else none

/-- The values of items that are whole. -/
def wholeItems? : List Draft → Option (List Json)
  | [] => some []
  | d :: rest => d.whole?.bind fun j => (wholeItems? rest).map (j :: ·)

/-- The values of members that are whole. -/
def wholeMembers? : List (Option String × Draft) → Option (List (String × Json))
  | [] => some []
  | (name, d) :: rest =>
    name.bind fun name => d.whole?.bind fun j => (wholeMembers? rest).map ((name, j) :: ·)

end

mutual

/-- Is the draft JSON to its end?  Half surrogate pairs are no matter here. -/
def isSound : Draft → Bool
  | .broken => false
  | .null | .bool _ | .number _ | .string _ => true
  | .array items closed => closed && areSoundItems items
  | .object members closed => closed && areSoundMembers members

/-- Are all items JSON to their ends? -/
def areSoundItems : List Draft → Bool
  | [] => true
  | d :: rest => d.isSound && areSoundItems rest

/-- Are all members JSON to their ends? -/
def areSoundMembers : List (Option String × Draft) → Bool
  | [] => true
  | (_, d) :: rest => d.isSound && areSoundMembers rest

end

end Draft

end TrainerBooking
