import WarehouseLoader.Yaml.Layout

/-!
# Documents

A document is a tree of scalars, sequences and mappings. A node may be named,
and an alias stands for the node that had the name last. An alias inside the
very node that it names stands for nothing that could be read.

Reading follows the tokens. An entry that is left out is the empty plain scalar.
In two places more is read than a reader of the format might expect, and both
show in refusals: an entry of a bracketed sequence that is an explicit key
without a node loses the token after the key, and a sequence that is the value
of a key may begin in the key's column.

`jumps` counts the aliases that a full reading of a node follows. A document in
which they are out of proportion to the nodes it is made of is refused, so that
a short text cannot stand for an enormous tree.
-/

namespace WarehouseLoader.Yaml

inductive Node where
  | scalar (tag : Option String) (style : Style) (text : String)
  | sequence (tag : Option String) (items : List Node)
  | mapping (tag : Option String) (entries : List (Node × Node))
  /-- The number is how many aliases reading the target follows. -/
  | aliased (jumps : Nat) (target : Node)
  | cyclic
  deriving Inhabited

namespace Node

/-- An entry that is left out. -/
def empty : Node := scalar none .plain ""

mutual

/-- How many aliases reading the node follows. -/
def jumps : Node → Nat
  | scalar .. => 0
  | sequence _ items => jumpsOfItems items
  | mapping _ entries => jumpsOfEntries entries
  | aliased n _ => n + 1
  | cyclic => 0

def jumpsOfItems : List Node → Nat
  | [] => 0
  | item :: rest => jumps item + jumpsOfItems rest

def jumpsOfEntries : List (Node × Node) → Nat
  | [] => 0
  | (key, value) :: rest => jumps key + jumps value + jumpsOfEntries rest

end

mutual

/-- How many marks the node is made of: one for a scalar or an alias, two for
the ends of a collection. -/
def marks : Node → Nat
  | scalar .. => 1
  | sequence _ items => marksOfItems items + 2
  | mapping _ entries => marksOfEntries entries + 2
  | aliased .. => 1
  | cyclic => 1

def marksOfItems : List Node → Nat
  | [] => 0
  | item :: rest => marks item + marksOfItems rest

def marksOfEntries : List (Node × Node) → Nat
  | [] => 0
  | (key, value) :: rest => marks key + marks value + marksOfEntries rest

end

end Node

/-! ### From tokens -/

/-- What reading a document keeps: the tokens to come, what handles of tags
stand for, the names with the numbers of their nodes, the nodes that are
complete, and how many nodes were named. -/
structure Composing where
  tokens : List Token
  handles : List (String × String)
  names : List (String × Nat)
  nodes : List (Nat × Node)
  named : Nat

/-- A step of reading a document. -/
abbrev Compose := StateT Composing Option

namespace Compose

def peek : Compose (Option Token) := return (← get).tokens.head?

def drop : Compose Unit := modify fun s => { s with tokens := s.tokens.tail }

/-- Whether one of `ts` comes next. -/
def next (ts : List Token) : Compose Bool := return (← peek).any (· ∈ ts)

/-- Goes over a token if it comes next. -/
def accept (t : Token) : Compose Bool := do
  let found ← next [t]
  if found then drop
  return found

/-- The tag that a handle and a suffix stand for. -/
def expand (handle suffix : String) : Compose String := do
  if handle.isEmpty then return suffix
  match (← get).handles.lookup handle with
  | some expansion => return expansion ++ suffix
  | none => failure

def anchor? : Compose (Option String) := do
  match ← peek with
  | some (.anchor name) => drop; return some name
  | _ => return none

def tag? : Compose (Option String) := do
  match ← peek with
  | some (.tag handle suffix) => drop; return some (← expand handle suffix)
  | _ => return none

/-- The name and the tag before a node, in either order. -/
def properties : Compose (Option String × Option String) := do
  match ← anchor? with
  | some name => return (some name, ← tag?)
  | none =>
    let tag ← tag?
    return (← anchor?, tag)

/-- Gives a name to the node that is about to be read, and the number of the
node. -/
def declare (name : Option String) : Compose (Option Nat) := do
  match name with
  | none => return none
  | some name =>
    let s ← get
    set { s with names := (name, s.named) :: s.names, named := s.named + 1 }
    return some s.named

/-- Completes a node that was given a number. -/
def complete (number : Option Nat) (node : Node) : Compose Node := do
  if let some n := number then modify fun s => { s with nodes := (n, node) :: s.nodes }
  return node

/-- The node that a name stands for. -/
def named (name : String) : Compose Node := do
  let s ← get
  match s.names.lookup name with
  | none => failure
  | some n =>
    match s.nodes.lookup n with
    | some node => return .aliased node.jumps node
    | none => return .cyclic

/-- A single exclamation mark makes a scalar untagged and plain, whatever its
style. -/
def scalarOf (tag : Option String) (style : Style) (text : String) : Node :=
  if tag = some "!" then .scalar none style text else .scalar tag style text

mutual

/-- A node, or the empty one where a token of `ends` comes next. -/
def nodeUnless (fuel : Nat) (ends : List Token) (block indentless : Bool) :
    Compose Node := do
  match fuel with
  | 0 => failure
  | fuel + 1 => if ← next ends then return .empty else node fuel block indentless

def node (fuel : Nat) (block indentless : Bool) : Compose Node := do
  match fuel with
  | 0 => failure
  | fuel + 1 =>
    if let some (.aliasName name) ← peek then
      drop
      return ← named name
    let (name, tag) ← properties
    let number ← declare name
    match ← peek with
    | some (.scalar style text) => drop; complete number (scalarOf tag style text)
    | some .flowSequenceStart =>
      drop; complete number (.sequence tag (← flowItems fuel true))
    | some .flowMappingStart =>
      drop; complete number (.mapping tag (← flowEntries fuel true))
    | some .blockEntry =>
      if indentless then complete number (.sequence tag (← indentlessItems fuel))
      else if name.isSome || tag.isSome then complete number (scalarOf tag .plain "")
      else failure
    | some .blockSequenceStart =>
      if block then drop; complete number (.sequence tag (← blockItems fuel))
      else if name.isSome || tag.isSome then complete number (scalarOf tag .plain "")
      else failure
    | some .blockMappingStart =>
      if block then drop; complete number (.mapping tag (← blockEntries fuel))
      else if name.isSome || tag.isSome then complete number (scalarOf tag .plain "")
      else failure
    | _ =>
      if name.isSome || tag.isSome then complete number (scalarOf tag .plain "")
      else failure

def blockItems (fuel : Nat) : Compose (List Node) := do
  match fuel with
  | 0 => failure
  | fuel + 1 =>
    if ← accept .blockEntry then
      let item ← nodeUnless fuel [.blockEntry, .blockEnd] true false
      return item :: (← blockItems fuel)
    else if ← accept .blockEnd then return []
    else failure

def indentlessItems (fuel : Nat) : Compose (List Node) := do
  match fuel with
  | 0 => failure
  | fuel + 1 =>
    if ← accept .blockEntry then
      let item ← nodeUnless fuel [.blockEntry, .key, .value, .blockEnd] true false
      return item :: (← indentlessItems fuel)
    else
      return []

def blockEntries (fuel : Nat) : Compose (List (Node × Node)) := do
  match fuel with
  | 0 => failure
  | fuel + 1 =>
    if ← accept .key then
      let key ← nodeUnless fuel [.key, .value, .blockEnd] true true
      let value ←
        if ← accept .value then nodeUnless fuel [.key, .value, .blockEnd] true true
        else pure .empty
      return (key, value) :: (← blockEntries fuel)
    else if ← accept .blockEnd then return []
    else failure

/-- The mapping of one entry that a key inside a bracketed sequence makes. -/
def flowPair (fuel : Nat) : Compose Node := do
  match fuel with
  | 0 => failure
  | fuel + 1 =>
    let ends := [Token.value, .flowEntry, .flowSequenceEnd]
    let bare ← next ends
    let key ← if bare then (do drop; pure Node.empty) else node fuel false false
    let value ←
      if ← accept .value then nodeUnless fuel [.flowEntry, .flowSequenceEnd] false false
      else pure .empty
    return .mapping none [(key, value)]

def flowItems (fuel : Nat) (first : Bool) : Compose (List Node) := do
  match fuel with
  | 0 => failure
  | fuel + 1 =>
    if ← accept .flowSequenceEnd then return []
    unless first do
      unless ← accept .flowEntry do failure
      if ← accept .flowSequenceEnd then return []
    let item ← if ← accept .key then flowPair fuel else node fuel false false
    return item :: (← flowItems fuel false)

def flowEntries (fuel : Nat) (first : Bool) : Compose (List (Node × Node)) := do
  match fuel with
  | 0 => failure
  | fuel + 1 =>
    if ← accept .flowMappingEnd then return []
    unless first do
      unless ← accept .flowEntry do failure
      if ← accept .flowMappingEnd then return []
    if ← accept .key then
      let key ← nodeUnless fuel [.value, .flowEntry, .flowMappingEnd] false false
      let value ←
        if ← accept .value then nodeUnless fuel [.flowEntry, .flowMappingEnd] false false
        else pure .empty
      return (key, value) :: (← flowEntries fuel false)
    else
      let key ← node fuel false false
      return (key, .empty) :: (← flowEntries fuel false)

end

def standardHandles : List (String × String) :=
  [("!", "!"), ("!!", "tag:yaml.org,2002:")]

/-- The directives before a document: at most one version, of the two known
ones, and each handle at most once. -/
def directives :
    List Token → Bool → List (String × String) →
      Option (Bool × List (String × String) × List Token)
  | .version major minor :: rest, versioned, handles =>
    if versioned ∨ major ≠ 1 ∨ (minor ≠ 1 ∧ minor ≠ 2) then none
    else (directives rest true handles).map fun (_, result) => (true, result)
  | .tagHandle handle expansion :: rest, versioned, handles =>
    if handles.any (·.1 == handle) then none
    else (directives rest versioned (handles ++ [(handle, expansion)])).map
      fun (_, result) => (true, result)
  | ts, _, handles => some (false, handles, ts)

/-- How many aliases may be followed for each mark. -/
def maxJumps : Nat := 100

/-- The one document that the tokens make; nothing in it if there is none. -/
def document? (ts : List Token) : Option (Option Node) :=
  if ts.isEmpty then some none
  else do
    let (directed, handles, ts) ← directives ts false []
    let (explicit, ts) :=
      match ts with
      | .documentStart :: rest => (true, rest)
      | ts => (false, ts)
    if directed && !explicit then none
    else
      let known := handles ++ standardHandles.filter fun h => !handles.any (·.1 == h.1)
      let content : Compose Node := do
        let t ← peek
        let bare := t.isNone || t.any fun t =>
          match t with
          | .version .. | .tagHandle .. | .documentStart | .documentEnd => true
          | _ => false
        if bare && explicit then return .empty else node (4 * ts.length + 4) true false
      let (root, s) ← content.run ⟨ts, known, [], [], 0⟩
      if s.tokens.all (· == .documentEnd) && root.jumps ≤ maxJumps * root.marks then
        some (some root)
      else
        none

end Compose

/-- The document that a text writes; nothing in it if it holds only blanks and
comments. -/
def document? (text : String) : Option (Option Node) :=
  (tokens? text).bind Compose.document?

end WarehouseLoader.Yaml
