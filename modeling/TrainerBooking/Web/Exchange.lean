import TrainerBooking.Api.Refusal
import TrainerBooking.Json.Value
import TrainerBooking.Net.IpAddress
import TrainerBooking.Text.Percent

/-! # Calls and answers

What goes over HTTP: a `Call` comes in and an `Answer` goes out.  The target of a call is cut into the
segments of its path and its query (`Call.segments`, `Call.query`); a scheme and a host in front of
the path (`afterHost`) and what follows a `#` are no part of either.  The names of headers are compared
without regard to case, and of several headers of one name the first counts (`Call.header?`). -/

namespace TrainerBooking.Web

/-- A call. -/
structure Call where
  method : String
  /-- The path and the query, perhaps with a scheme and a host in front. -/
  target : String
  /-- The headers, in their order. -/
  headers : List (String × String)
  /-- The body; a call without one has an empty body. -/
  body : String
  /-- Where the call comes from, if that is known. -/
  peer : Option SocketAddress
deriving Repr

/-- An answer. -/
structure Answer where
  status : Nat
  body : Option Json
deriving Repr

/-! ### Targets -/

/-- A scheme is made of ASCII letters, digits and four marks. -/
def isSchemeChar (c : Char) : Bool := c.isAlphanum || "+-.~".toList.contains c

/-- What follows the scheme of a target, and the `://` behind it. -/
def afterScheme? : List Char → Option (List Char)
  | ':' :: '/' :: '/' :: rest => some rest
  | c :: rest => if isSchemeChar c then afterScheme? rest else none
  | [] => none

/-- What a target asks for of its host: all of it if it begins with a slash, what follows the host if
there is a scheme, and nothing otherwise. -/
def afterHost (target : List Char) : List Char :=
  if target.head? = some '/' then target
  else
    match afterScheme? target with
    | some rest => rest.dropWhile fun c => !"/?#".toList.contains c
    | none => []

namespace Call

/-- The path and the query of the target. -/
def parts (call : Call) : List Char × List Char :=
  Text.splitFirst '?' ((afterHost call.target.toList).takeWhile (· != '#'))

/-- The segments of the path: what stands between its slashes, of which the first opens it. -/
def segments (call : Call) : List String :=
  ((Text.splitAll '/' call.parts.1).drop 1).map String.ofList

/-- The query. -/
def query (call : Call) : String := String.ofList call.parts.2

/-- A name in lower case. -/
def lowered (name : String) : String := String.ofList (name.toList.map Char.toLower)

/-- The value of a header, whose name is given in lower case. -/
def header? (name : String) (call : Call) : Option String :=
  (call.headers.find? fun h => lowered h.1 == name).map Prod.snd

/-- Does the call ask for the answer to another method, without its body? -/
def isHead (call : Call) : Bool := call.method == "HEAD"

/-- The method by which the call is looked up. -/
def lookupMethod (call : Call) : String := if call.isHead then "GET" else call.method

end Call

/-- Can a text stand in a header and be read?  It holds visible ASCII characters, blanks and tabs. -/
def isReadableHeader (value : String) : Bool :=
  value.toList.all fun c => c == '\t' || (32 ≤ c.toNat && c.toNat ≤ 126)

namespace Answer

/-- An answer without a body. -/
def bare (status : Nat) : Answer := ⟨status, none⟩

/-- The answer to a call that asks for something. -/
def shown (body : Json) : Answer := ⟨200, some body⟩

/-- The answer to a call that creates something. -/
def created (body : Json) : Answer := ⟨201, some body⟩

/-- The answer to a call that changes something. -/
def changed : Answer := bare 204

/-- The answer to a call that is refused. -/
def refused (r : Refusal) : Answer :=
  ⟨r.status, some (.object [("error", .bool true), ("slug", .string r.slug),
    ("message", .string r.message), ("retryable", .bool r.retryable)])⟩

end Answer

end TrainerBooking.Web
