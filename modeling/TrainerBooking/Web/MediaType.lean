import TrainerBooking.Text.Percent

/-! # Media types

The media type of a body is written `type/subtype`, after which parameters may follow behind a
semicolon each.  What stands behind the last `+` of the subtype is its suffix.  Case does not matter.

Only the well-formedness of parameters is of interest here; they are checked one character after the
other (`ParameterState`). -/

namespace TrainerBooking.Web

/-- The media type of a body. -/
structure MediaType where
  /-- The type. -/
  type : String
  /-- The subtype, up to its last `+`. -/
  subtype : String
  /-- What stands behind that. -/
  suffix : Option String
deriving DecidableEq, Repr

/-- How far a check of parameters has come. -/
inductive ParameterState where
  /-- A parameter may begin. -/
  | between
  /-- Inside the name of a parameter. -/
  | name
  /-- The value begins. -/
  | valueStart
  /-- Inside a bare value. -/
  | value
  /-- Behind the opening quote of a value. -/
  | quotedStart
  /-- Inside a quoted value. -/
  | quoted
  /-- Behind the closing quote of a value. -/
  | afterQuoted
deriving DecidableEq, Repr

namespace MediaType

/-- Can the character stand in a name? -/
def isNameChar (c : Char) : Bool := c.isAlphanum || "!#$%&'*+-.^_`|~".toList.contains c

/-- Can the character stand between quotes? -/
def isQuotable (c : Char) : Bool := c.toNat > 31 && c.toNat ≠ 127

end MediaType

namespace ParameterState

/-- The state after one more character. -/
def next (c : Char) : ParameterState → Option ParameterState
  | between =>
    if c = ' ' then some between else if MediaType.isNameChar c then some name else none
  | name =>
    if MediaType.isNameChar c then some name else if c = '=' then some valueStart else none
  | valueStart =>
    if c = '"' then some quotedStart else if MediaType.isNameChar c then some value else none
  | value =>
    if MediaType.isNameChar c then some value else if c = ';' then some between else none
  | quotedStart => if MediaType.isQuotable c then some quoted else none
  | quoted =>
    if c = '"' then some afterQuoted else if MediaType.isQuotable c then some quoted else none
  | afterQuoted =>
    if c = ';' then some between else if c = ' ' then some afterQuoted else none

/-- May the parameters end here? -/
def isFinal : ParameterState → Bool
  | between | valueStart | value | afterQuoted => true
  | name | quotedStart | quoted => false

/-- Are the characters well-formed parameters from this state on? -/
def accepts : ParameterState → List Char → Bool
  | state, [] => state.isFinal
  | state, c :: rest =>
    match state.next c with
    | some state => state.accepts rest
    | none => false

end ParameterState

namespace MediaType

/-- Splits a subtype at its last `+`, unless it begins there. -/
def splitSuffix (cs : List Char) : List Char × Option (List Char) :=
  let suffix := (cs.reverse.takeWhile (· != '+')).reverse
  let stem := cs.take (cs.length - suffix.length - 1)
  if stem.isEmpty then (cs, none) else (stem, some suffix)

/-- A name in lower case. -/
def lowered (cs : List Char) : String := String.ofList (cs.map Char.toLower)

/-- The media type that a text denotes. -/
def read? (s : String) : Option MediaType :=
  let cs := s.toList
  let (type, rest) := Text.splitFirst '/' cs
  let (subtype, parameters) := Text.splitFirst ';' rest
  let hasParameters := rest.contains ';'
  if !cs.contains '/' || type.isEmpty || (hasParameters && subtype.isEmpty) then none
  else if !type.all isNameChar || !subtype.all isNameChar then none
  else if hasParameters && !ParameterState.between.accepts parameters then none
  else
    let (stem, suffix) := splitSuffix subtype
    some ⟨lowered type, lowered stem, suffix.map lowered⟩

/-- Are bodies of the media type JSON? -/
def isJson (m : MediaType) : Bool :=
  m.type == "application" && (m.subtype == "json" || m.suffix == some "json")

end MediaType

end TrainerBooking.Web
