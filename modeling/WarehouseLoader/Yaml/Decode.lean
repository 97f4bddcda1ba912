import WarehouseLoader.Yaml.Scalar

/-!
# Readings of documents

As with other documents there is an untyped reading, which asks for every part,
and there are typed ones, which ask for the members that they know. Where a
typed reading wants a text it takes any scalar as it is written, and where it
wants a record or a mapping it takes an empty scalar for an empty one.

Names of members are scalars, taken as they are written. The last of the values
under one name stays in an untyped mapping. A record refuses a name that it
knows and that stands twice.

The number that a reading takes is how many levels of brackets or blocks it may
still go into.
-/

namespace WarehouseLoader.Yaml

abbrev Reading (α : Type) := Nat → Node → Option α

def maxDepth : Nat := 128

namespace Node

/-- The node that an alias stands for. -/
def target : Node → Node
  | aliased _ t => target t
  | n => n

/-- A scalar as it is written. -/
def text? (n : Node) : Option String :=
  match n.target with
  | scalar _ _ s => some s
  | _ => none

def isEmptyScalar (n : Node) : Bool := n.text? == some ""

/-- What a scalar is, if the node is one. -/
def scalar? (n : Node) : Option Scalar :=
  match n.target with
  | scalar tag style s => Scalar.of? tag style s
  | _ => none

end Node

/-- A scalar as a value; numbers that are not finite have none and are null. -/
def Scalar.toJson? : Scalar → Option Json
  | null => some .null
  | bool b => some (.bool b)
  | number n => some (.number n)
  | notFinite => some .null
  | oversized => none
  | text s => some (.text s)

namespace Node

mutual

/-- The untyped reading. -/
def json? (depth : Nat) : Node → Option Json
  | scalar tag style s => (Scalar.of? tag style s).bind Scalar.toJson?
  | sequence tag items =>
    if depth = 0 || isCustomTag tag then none
    else (jsonItems? (depth - 1) items).map .array
  | mapping tag entries =>
    if depth = 0 || isCustomTag tag then none
    else (jsonMembers? (depth - 1) [] entries).map .object
  | aliased _ t => json? depth t
  | cyclic => none

def jsonItems? (depth : Nat) : List Node → Option (List Json)
  | [] => some []
  | item :: rest =>
    (json? depth item).bind fun v => (jsonItems? depth rest).map (v :: ·)

def jsonMembers? (depth : Nat) (before : List (String × Json)) :
    List (Node × Node) → Option (List (String × Json))
  | [] => some before
  | (key, value) :: rest =>
    key.text?.bind fun name => (json? depth value).bind fun v =>
      jsonMembers? depth (insertEntry name v before) rest

end

end Node

namespace Reading

def json : Reading Json := Node.json?

/-- Any scalar as it is written. -/
def text : Reading String := fun _ n => n.text?

/-- Whether a typed number may be written in this way. -/
def mayBeNumber (tag : Option String) : Style → Bool
  | .plain => true
  | .literal => tag == some (coreTag "int")
  | _ => false

/-- A whole number below a bound. -/
def natBelow (bound : Nat) : Reading Nat := fun _ n =>
  match n.target with
  | .scalar tag style s =>
    if mayBeNumber tag style then (natural? s.toList).filter (· < bound) else none
  | _ => none

/-- One of a set of names, as a scalar or as the tag of an empty one. -/
def name {α : Type} (parse : String → Option α) : Reading α := fun _ n =>
  match n.target with
  | .scalar tag style s =>
    if isCustomTag tag then
      if style = .plain && (s.isEmpty || isNullText s) then
        tag.bind fun t => parse (String.ofList (t.toList.drop 1))
      else
        none
    else
      parse s
  | _ => none

/-- The values of a mapping under its names; of several under one name the
last. -/
def mapping {α : Type} (read : Reading α) : Reading (NameMap α) := fun depth n =>
  match n.target with
  | .mapping _ entries =>
    if depth = 0 then none
    else (entries.mapM fun (entry : Node × Node) => do
      return (← entry.1.text?, ← read (depth - 1) entry.2)).map NameMap.ofList
  | n => if n.isEmptyScalar then some .empty else none

/-- The members that `names` lists, each at most once. -/
def known? (names : List String) : List (Node × Node) → Option (List (String × Node))
  | [] => some []
  | (key, value) :: rest =>
    key.text?.bind fun name => (known? names rest).bind fun found =>
      if name ∈ names then
        if found.any (·.1 == name) then none else some ((name, value) :: found)
      else
        some found

/-- A record as a mapping of its members, or as a sequence of them in their
order. -/
def record {α : Type} (names : List String)
    (build : Nat → List (String × Node) → Option α) : Reading α :=
  fun depth n =>
    match n.target with
    | .mapping _ entries =>
      if depth = 0 then none else (known? names entries).bind (build (depth - 1))
    | .sequence _ items =>
      if depth = 0 ∨ names.length < items.length then none
      else build (depth - 1) (names.zip items)
    | n => if n.isEmptyScalar then build depth [] else none

/-- A member that may be missing. -/
def defaulted {α : Type} (fallback : α) (read : Reading α) (depth : Nat)
    (members : List (String × Node)) (name : String) : Option α :=
  match members.lookup name with
  | some n => read depth n
  | none => some fallback

/-- Reads a text that holds one document. No document at all counts as an empty
scalar. -/
def ofText? {α : Type} (read : Reading α) (s : String) : Option α :=
  (document? s).bind fun root => read maxDepth (root.getD .empty)

end Reading

end WarehouseLoader.Yaml
