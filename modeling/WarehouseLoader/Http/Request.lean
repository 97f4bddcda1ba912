import WarehouseLoader.Http.Url
import WarehouseLoader.Flow.Unit
import WarehouseLoader.Json.Writer

/-!
# Requests

A request is described by what is asked of it and turned into what is sent. A
URL that cannot be asked, or a header whose name or value cannot be sent, makes
the whole request one that cannot be built.

Headers are added, not replaced, so a name may stand twice. Two are only added
where there is none: the type of a JSON body and the agent's name.
-/

namespace WarehouseLoader.Http

inductive Body where
  | json (v : Json)
  | bytes (content : Bytes) (type : String)

structure Request where
  method : String
  /-- A URL, or a path below the client's base. -/
  url : String
  query : List (String × String)
  headers : List (String × String)
  body : Option Body
  /-- How long to wait for the answer, in milliseconds, if not as long as
  usual. -/
  timeout : Option Nat
  /-- How often to try again, if not as often as usual. -/
  retries : Option Nat

namespace Request

def new (method url : String) : Request := ⟨method, url, [], [], none, none, none⟩

def withQuery (r : Request) (name value : String) : Request :=
  { r with query := r.query ++ [(name, value)] }

def withHeader (r : Request) (name value : String) : Request :=
  { r with headers := r.headers ++ [(name, value)] }

def withJson (r : Request) (v : Json) : Request := { r with body := some (.json v) }

def withBytes (r : Request) (content : Bytes) (type : String) : Request :=
  { r with body := some (.bytes content type) }

def withRetries (r : Request) (n : Nat) : Request := { r with retries := some n }

end Request

/-- What goes over the wire, apart from what every request carries. -/
structure WireRequest where
  method : String
  url : Url
  /-- Names in lower case. -/
  headers : List (String × String)
  body : Bytes

def isHeaderNameChar (c : Char) : Bool :=
  Url.isAlpha c || Url.isDigit c ||
    c ∈ ['!', '#', '$', '%', '&', '\'', '*', '+', '-', '.', '^', '_', '|', '~'] ||
      c.toNat == 0x60

def isHeaderName (s : String) : Bool := !s.isEmpty && s.toList.all isHeaderNameChar

def isHeaderValueChar (c : Char) : Bool :=
  c == '\t' || (0x20 ≤ c.toNat && c.toNat != 0x7F)

def isHeaderValue (s : String) : Bool := s.toList.all isHeaderValueChar

/-- A header as it is sent, if it can be. -/
def wireHeader? (h : String × String) : Option (String × String) :=
  if isHeaderName h.1 && isHeaderValue h.2 then
    some (String.ofList (h.1.toList.map Url.lowerAscii), h.2)
  else
    none

def hasHeader (headers : List (String × String)) (name : String) : Bool :=
  headers.any (·.1 == name)

/-- Adds a header unless there is one of that name. -/
def addMissing (headers : List (String × String)) (name value : String) :
    List (String × String) :=
  if hasHeader headers name then headers else headers ++ [(name, value)]

def jsonType : String := "application/json"

/-- Adds the header that authorizes, if there is something to say in it. -/
def withAuthorization? (headers : List (String × String))
    (authorization : Option String) : Option (List (String × String)) :=
  match authorization with
  | none => some headers
  | some value => (wireHeader? ("authorization", value)).map fun h => headers ++ [h]

/-- Adds the agent's name, if it has one. -/
def withAgent (headers : List (String × String)) (userAgent : Option String) :
    List (String × String) :=
  match userAgent with
  | none => headers
  | some agent => addMissing headers "user-agent" agent

namespace Request

/-- What the body is as it is sent, after the headers that were given and the
one that says its type. -/
def carried? (r : Request) (given : List (String × String)) :
    Option (List (String × String) × Bytes) :=
  match r.body with
  | none => some (given, [])
  | some (.json v) =>
    some (addMissing given "content-type" jsonType, Text.utf8 v.render)
  | some (.bytes content type) =>
    (wireHeader? ("content-type", type)).map fun h => (given ++ [h], content)

/-- The request as it is sent to `url`, with the headers that every request has
first. -/
def wire? (r : Request) (url : String) (userAgent : Option String)
    (common : List (String × String)) (authorization : Option String) :
    Option WireRequest := do
  let parsed ← (Url.parse url).toOption
  if !parsed.isWeb then none
  else
    let given ← (common ++ r.headers).mapM wireHeader?
    let (headers, body) ← r.carried? given
    let headers ← withAuthorization? headers authorization
    return ⟨r.method, parsed.withQuery r.query, withAgent headers userAgent, body⟩

end Request

end WarehouseLoader.Http
