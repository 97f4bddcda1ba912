import WarehouseLoader.Json.Basic
import WarehouseLoader.Json.Token

/-!
# JSON documents

A document is a JSON text as it is written: members in their order, repeated
names kept, and strings and numbers that have no value still in their place. Two
readings of it are used.

The untyped reading, `Document.value?`, asks for every part. It refuses a part
without a value, keeps the last of the members with one name, and refuses to go
deeper than a given number of brackets.

A typed reading asks only for the members it knows, so a member that it does not
know may hold anything.

The reader is a machine over tokens with a stack: one frame for each bracket
that is still open. It takes one token at a time, so it ends with the tokens.
-/

namespace WarehouseLoader.Json

inductive Document where
  | null
  | bool (b : Bool)
  | number (n : Option Number)
  | text (s : Option String)
  | array (items : List Document)
  | object (members : List (Option String × Document))
  deriving Repr, Inhabited

/-- A container that waits for a value: what it holds already, the last first,
and in an object the name of the member that the value is for. -/
inductive Frame where
  | items (held : List Document)
  | members (held : List (Option String × Document)) (name : Option String)

/-- What may come next. -/
inductive Awaiting where
  | value
  | itemOrClose
  | itemEnd (held : List Document)
  | nameOrClose
  | name (held : List (Option String × Document))
  | colon (held : List (Option String × Document)) (name : Option String)
  | memberEnd (held : List (Option String × Document))
  | nothing (root : Document)

structure Builder where
  frames : List Frame
  awaiting : Awaiting

namespace Builder

def initial : Builder := ⟨[], .value⟩

/-- Puts a complete value where it was awaited. -/
def complete (value : Document) : List Frame → Builder
  | [] => ⟨[], .nothing value⟩
  | .items held :: frames => ⟨frames, .itemEnd (value :: held)⟩
  | .members held name :: frames => ⟨frames, .memberEnd ((name, value) :: held)⟩

/-- Takes the first token of a value. -/
def begin (frames : List Frame) : Token → Option Builder
  | .null => some (complete .null frames)
  | .bool b => some (complete (.bool b) frames)
  | .number n => some (complete (.number n) frames)
  | .text s => some (complete (.text s) frames)
  | .openBracket => some ⟨frames, .itemOrClose⟩
  | .openBrace => some ⟨frames, .nameOrClose⟩
  | _ => none

def step (b : Builder) (token : Token) : Option Builder :=
  match b.awaiting with
  | .value => begin b.frames token
  | .itemOrClose =>
    match token with
    | .closeBracket => some (complete (.array []) b.frames)
    | _ => begin (.items [] :: b.frames) token
  | .itemEnd held =>
    match token with
    | .comma => some ⟨.items held :: b.frames, .value⟩
    | .closeBracket => some (complete (.array held.reverse) b.frames)
    | _ => none
  | .nameOrClose =>
    match token with
    | .closeBrace => some (complete (.object []) b.frames)
    | .text name => some ⟨b.frames, .colon [] name⟩
    | _ => none
  | .name held =>
    match token with
    | .text name => some ⟨b.frames, .colon held name⟩
    | _ => none
  | .colon held name =>
    match token with
    | .colon => some ⟨.members held name :: b.frames, .value⟩
    | _ => none
  | .memberEnd held =>
    match token with
    | .comma => some ⟨b.frames, .name held⟩
    | .closeBrace => some (complete (.object held.reverse) b.frames)
    | _ => none
  | .nothing _ => none

def run (b : Builder) : List Token → Option Builder
  | [] => some b
  | token :: rest =>
    match b.step token with
    | some next => next.run rest
    | none => none

def root? (b : Builder) : Option Document :=
  match b.awaiting with
  | .nothing root => some root
  | _ => none

end Builder

namespace Document

def ofTokens? (tokens : List Token) : Option Document :=
  (Builder.initial.run tokens).bind Builder.root?

def ofText? (s : String) : Option Document :=
  (tokens? s).bind ofTokens?

mutual

/-- The value that the document writes, within `depth` levels of brackets. -/
def value? (depth : Nat) : Document → Option Json
  | null => some .null
  | bool b => some (.bool b)
  | number n => n.map .number
  | text s => s.map .text
  | array items => if depth = 0 then none else (values? (depth - 1) items).map .array
  | object members =>
    if depth = 0 then none else (members? (depth - 1) [] members).map .object

def values? (depth : Nat) : List Document → Option (List Json)
  | [] => some []
  | item :: rest =>
    match value? depth item with
    | some v => (values? depth rest).map (v :: ·)
    | none => none

/-- Adds the members to those before them, so that the last of one name
stays. -/
def members? (depth : Nat) (before : List (String × Json)) :
    List (Option String × Document) → Option (List (String × Json))
  | [] => some before
  | (some name, item) :: rest =>
    match value? depth item with
    | some v => members? depth (insertEntry name v before) rest
    | none => none
  | (none, _) :: _ => none

end

end Document

/-- How many brackets may be open at once in a text. -/
def maxDepth : Nat := 127

/-- The untyped reading of a text. -/
def ofText? (s : String) : Option Json :=
  (Document.ofText? s).bind (Document.value? maxDepth)

end WarehouseLoader.Json
