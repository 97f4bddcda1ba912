import WarehouseLoader.Json.Document

/-!
# Typed readings of JSON documents

A typed reading takes a document for a value of one type. It asks for the
members it knows and passes the others over, whatever they hold. A known member
may not stand twice. A record may also be written as an array of its members in
their order; the last ones may then be left off, if the reading can do without
them.

The number that a reading takes is how many levels of brackets it may still
open.
-/

namespace WarehouseLoader.Json

abbrev Reading (α : Type) := Nat → Document → Option α

namespace Document

/-- The members of an object that `names` lists, each at most once. -/
def known? (names : List String) :
    List (Option String × Document) → Option (List (String × Document))
  | [] => some []
  | (none, _) :: _ => none
  | (some name, item) :: rest =>
    (known? names rest).bind fun found =>
      if name ∈ names then
        if found.any (·.1 == name) then none else some ((name, item) :: found)
      else
        some found

/-- The members of a record with the given members, in either of its two
forms. -/
def record? (names : List String) (depth : Nat) :
    Document → Option (List (String × Document))
  | object members => if depth = 0 then none else known? names members
  | array items =>
    if depth = 0 ∨ names.length < items.length then none else some (names.zip items)
  | _ => none

end Document

namespace Reading

def text : Reading String
  | _, .text s => s
  | _, _ => none

def bool : Reading Bool
  | _, .bool b => some b
  | _, _ => none

/-- A whole number of 64 bits with a sign. -/
def integer : Reading Int
  | _, .number (some (.natural n)) => if n < Nat.pow 2 63 then some (n : Int) else none
  | _, .number (some (.negative n)) => some (-(n : Int))
  | _, _ => none

/-- A null stands for nothing. -/
def orNull {α : Type} (read : Reading α) : Reading (Option α)
  | _, .null => some none
  | depth, d => (read depth d).map some

def list {α : Type} (read : Reading α) : Reading (List α)
  | depth, .array items => if depth = 0 then none else items.mapM (read (depth - 1))
  | _, _ => none

/-- One of a set of names: its text, or an object whose only member has that
name and is null. -/
def name {α : Type} (parse : String → Option α) : Reading α
  | _, .text s => s.bind parse
  | depth, .object [(some s, .null)] => if depth = 0 then none else parse s
  | _, _ => none

/-- A record, whose members are read one level further in. -/
def record {α : Type} (names : List String)
    (build : Nat → List (String × Document) → Option α) : Reading α :=
  fun depth d => (d.record? names depth).bind (build (depth - 1))

/-- A member that has to be there. -/
def required {α : Type} (read : Reading α) (depth : Nat)
    (members : List (String × Document)) (name : String) : Option α :=
  (members.lookup name).bind (read depth)

/-- A member that may be missing. -/
def defaulted {α : Type} (fallback : α) (read : Reading α) (depth : Nat)
    (members : List (String × Document)) (name : String) : Option α :=
  match members.lookup name with
  | some d => read depth d
  | none => some fallback

/-- Reads a text. -/
def ofText? {α : Type} (read : Reading α) (s : String) : Option α :=
  (Document.ofText? s).bind (read maxDepth)

end Reading

end WarehouseLoader.Json
