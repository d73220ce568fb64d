import TrainerBooking.Json.Value

/-! # Writing JSON

`Json.render` writes a value without white space.  In strings the quote, the backslash and the
control characters are escaped, everything else stands for itself. -/

namespace TrainerBooking.Json

/-- One character of a string. -/
def escape (c : Char) : String :=
  if c = '"' then "\\\""
  else if c = '\\' then "\\\\"
  else if c = '\n' then "\\n"
  else if c = '\r' then "\\r"
  else if c = '\t' then "\\t"
  else if c.toNat = 8 then "\\b"
  else if c.toNat = 12 then "\\f"
  else if c.toNat < 0x20 then
    "\\u" ++ String.ofList (List.replicate (4 - (Text.hex c.toNat).length) '0') ++ Text.hex c.toNat
  else String.singleton c

/-- A string between quotes. -/
def quoted (s : String) : String :=
  s.toList.foldl (fun out c => out ++ escape c) "\"" ++ "\""

mutual

/-- A value behind what is written already. -/
def renderTo (out : String) : Json → String
  | .null => out ++ "null"
  | .bool b => out ++ (if b then "true" else "false")
  | .number literal => out ++ literal
  | .string s => out ++ quoted s
  | .array items => renderItems (out ++ "[") true items ++ "]"
  | .object members => renderMembers (out ++ "\x7b") true members ++ "\x7d"

/-- The items of an array behind what is written already. -/
def renderItems (out : String) (first : Bool) : List Json → String
  | [] => out
  | j :: rest => renderItems (renderTo (if first then out else out ++ ",") j) false rest

/-- The members of an object behind what is written already. -/
def renderMembers (out : String) (first : Bool) : List (String × Json) → String
  | [] => out
  | (name, j) :: rest =>
    renderMembers (renderTo ((if first then out else out ++ ",") ++ quoted name ++ ":") j) false rest

end

/-- The text of a value. -/
def render (j : Json) : String := renderTo "" j

end TrainerBooking.Json
