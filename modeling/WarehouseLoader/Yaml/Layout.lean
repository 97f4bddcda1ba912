import WarehouseLoader.Yaml.Written

/-!
# From a text to its tokens

The structure of a document is in its columns outside of brackets, and in its
marks inside of them. Reading goes from left to right and keeps the columns at
which the open blocks begin. A line that begins further left ends blocks.

Whether a word is a key shows only at the colon behind it. So wherever a key may
begin, the place is remembered, and a colon puts the token of a key there
afterwards, with the start of a block if the key begins one. A key may not be
longer than a line, nor than so many characters.

Each round of reading passes at least one character, so the length of the text
is fuel enough.
-/

namespace WarehouseLoader.Yaml

/-- The longest key that a colon may follow. -/
def maxKeyLength : Nat := 1024

/-- A place at which a key may have begun. -/
structure PossibleKey where
  /-- How many tokens come before it. -/
  position : Nat
  place : Cursor
  /-- Whether nothing else can stand there. -/
  required : Bool

structure Layout where
  cursor : Cursor
  /-- The columns of the open blocks, the innermost first. -/
  blocks : List Nat
  keyAllowed : Bool
  /-- The possible key of each open bracket, the innermost first, and of the
  text outside of all brackets. -/
  keys : List (Option PossibleKey)
  tokens : Array Token

namespace Layout

def start (cs : List Char) : Layout := ⟨.start cs, [], true, [none], #[]⟩

def inFlow (s : Layout) : Bool := 1 < s.keys.length

def column (s : Layout) : Nat := s.cursor.column

def push (s : Layout) (t : Token) : Layout := { s with tokens := s.tokens.push t }

def move (s : Layout) (c : Cursor) : Layout := { s with cursor := c }

def skip (s : Layout) (n : Nat) : Layout := s.move (s.cursor.skip n)

def allowKey (s : Layout) (b : Bool) : Layout := { s with keyAllowed := b }

/-- Goes on to the next character of a token. Breaks outside of brackets allow a
key to follow. -/
def toToken : Nat → Layout → Layout
  | 0, s => s
  | fuel + 1, s =>
    let c := s.cursor
    let c := if c.index = 0 ∧ c.rest.head? = some '\uFEFF' then c.skip 1 else c
    let c :=
      c.skipWhile fun ch => ch == ' ' || ((s.inFlow || !s.keyAllowed) && ch == '\t')
    let c := if c.rest.head? == some '#' then c.skipWhile (!isBreak ·) else c
    if c.rest.head?.any isBreak then
      toToken fuel { s with
        cursor := c.takeBreak.2
        keyAllowed := s.keyAllowed || !s.inFlow }
    else
      s.move c

def isStale (s : Layout) (k : PossibleKey) : Bool :=
  k.place.line < s.cursor.line || k.place.index + maxKeyLength < s.cursor.index

/-- Gives up the possible keys that are too far back. -/
def dropStale (s : Layout) : Option Layout :=
  (s.keys.mapM fun (key : Option PossibleKey) =>
    match key with
    | some k =>
      if s.isStale k then (if k.required then none else some none) else some key
    | none => some none).map fun keys => { s with keys }

/-- Ends the blocks that begin right of a column. -/
def unrollTo (s : Layout) (keep : Nat → Bool) : Layout :=
  if s.inFlow then s
  else
    let ended := s.blocks.takeWhile (!keep ·)
    { s with
      blocks := s.blocks.drop ended.length
      tokens := s.tokens ++ (ended.map fun _ => Token.blockEnd).toArray }

/-- Begins a block at a column unless one is open there; its token comes after
`position` others. -/
def roll (s : Layout) (column position : Nat) (t : Token) : Layout :=
  if s.inFlow || s.blocks.head?.any (column ≤ ·) then s
  else
    { s with
      blocks := column :: s.blocks
      tokens := s.tokens.insertIdxIfInBounds position t }

/-- Gives up the innermost possible key. -/
def removeKey (s : Layout) : Option Layout :=
  match s.keys with
  | some k :: rest => if k.required then none else some { s with keys := none :: rest }
  | _ => some s

/-- Remembers that a key may begin here. -/
def saveKey (s : Layout) : Option Layout :=
  if s.keyAllowed then
    s.removeKey.map fun s =>
      let required := !s.inFlow && s.blocks.head? == some s.column
      { s with keys := some ⟨s.tokens.size, s.cursor, required⟩ :: s.keys.tail }
  else
    some s

def documentMark (s : Layout) (t : Token) : Option Layout :=
  (s.unrollTo fun _ => false).removeKey.map fun s => ((s.allowKey false).skip 3).push t

/-- A number and the characters after it. -/
def number? (cs : List Char) : Option (Nat × List Char) :=
  let digits := cs.takeWhile Char.isDigit
  if digits.isEmpty || 9 < digits.length then none
  else (String.ofList digits).toNat?.map fun n => (n, cs.drop digits.length)

/-- What a line says that begins with a percent sign. -/
def directive? (line : List Char) : Option Token :=
  let name := line.takeWhile isNameChar
  let rest := line.drop name.length
  if !endsWord rest then none
  else
    let rest := rest.dropWhile isGap
    let isEnd (cs : List Char) : Bool :=
      let cs := cs.dropWhile isGap
      cs.isEmpty || cs.head? == some '#'
    match String.ofList name with
    | "YAML" =>
      match number? rest with
      | some (major, '.' :: rest) =>
        (number? rest).bind fun (minor, rest) =>
          if isEnd rest then some (.version major minor) else none
      | _ => none
    | "TAG" =>
      let handle := rest.takeWhile (!isGap ·)
      let rest := (rest.drop handle.length).dropWhile isGap
      let uri := rest.takeWhile (isTagChar true)
      let word := (handle.drop 1).takeWhile isNameChar
      let isHandle := handle == ['!'] || handle == '!' :: (word ++ ['!'])
      let rest := rest.drop uri.length
      if isHandle && !uri.isEmpty && (rest.isEmpty || rest.head?.any isGap) &&
        isEnd rest then
        (tagText? uri).map (Token.tagHandle (String.ofList handle))
      else
        none
    | _ => none

def directive (s : Layout) : Option Layout :=
  (s.unrollTo fun _ => false).removeKey.bind fun s =>
    let line := (s.cursor.rest.drop 1).takeWhile (!isBreak ·)
    (directive? line).map fun t => ((s.allowKey false).skip (line.length + 1)).push t

def openBracket (s : Layout) (t : Token) : Option Layout :=
  s.saveKey.map fun s =>
    ({ s with keys := none :: s.keys, keyAllowed := true }.skip 1).push t

def closeBracket (s : Layout) (t : Token) : Option Layout :=
  s.removeKey.map fun s =>
    let keys := if s.inFlow then s.keys.tail else s.keys
    ({ s with keys, keyAllowed := false }.skip 1).push t

def flowEntry (s : Layout) : Option Layout :=
  s.removeKey.map fun s => ((s.allowKey true).skip 1).push .flowEntry

/-- Begins a block here, unless in brackets, if a key may stand here. -/
def rollHere (s : Layout) (t : Token) : Option Layout :=
  if s.inFlow then some s
  else if s.keyAllowed then some (s.roll s.column s.tokens.size t)
  else none

def blockEntry (s : Layout) : Option Layout :=
  (s.rollHere .blockSequenceStart).bind removeKey |>.map fun s =>
    ((s.allowKey true).skip 1).push .blockEntry

def explicitKey (s : Layout) : Option Layout :=
  (s.rollHere .blockMappingStart).bind removeKey |>.map fun s =>
    ((s.allowKey !s.inFlow).skip 1).push .key

/-- A colon: the word before it is a key, if one may have begun there. -/
def valueMark (s : Layout) : Option Layout :=
  match s.keys with
  | some k :: rest =>
    let s :=
      { s with
        keys := none :: rest
        tokens := s.tokens.insertIdxIfInBounds k.position .key }
    some (((s.roll k.place.column k.position .blockMappingStart).allowKey false).skip 1
      |>.push .value)
  | _ =>
    (s.rollHere .blockMappingStart).map fun s =>
      ((s.allowKey !s.inFlow).skip 1).push .value

def nameToken (s : Layout) (t : String → Token) : Option Layout :=
  s.saveKey.bind fun s => (name? (s.cursor.skip 1)).map fun (name, c) =>
    ((s.allowKey false).move c).push (t name)

def tagToken (s : Layout) : Option Layout :=
  s.saveKey.bind fun s => (tag? s.inFlow s.cursor).map fun (handle, suffix, c) =>
    ((s.allowKey false).move c).push (.tag handle suffix)

def blockScalar (s : Layout) (folded : Bool) : Option Layout :=
  s.removeKey.bind fun s =>
    (block? folded s.blocks.head? (s.cursor.skip 1)).map fun (text, c) =>
    ((s.allowKey true).move c).push
      (.scalar (if folded then .folded else .literal) (String.ofList text))

def quotedScalar (s : Layout) (quote : Char) : Option Layout :=
  s.saveKey.bind fun s =>
    let c := s.cursor.skip 1
    (quotedFrom quote (c.rest.length + 1) [] c).map fun (text, c) =>
      ((s.allowKey false).move c).push (.scalar .quoted (String.ofList text))

def plainScalar (s : Layout) : Option Layout :=
  s.saveKey.bind fun s =>
    let indent := s.blocks.head?.elim 0 (· + 1)
    (plainFrom s.inFlow indent (s.cursor.rest.length + 1) .none [] s.cursor).map
      fun (text, broken, c) =>
      ((s.allowKey broken).move c).push (.scalar .plain (String.ofList text))

/-- The marks that cannot begin a plain scalar. -/
def isIndicator (c : Char) : Bool :=
  isFlowMark c ||
    c ∈ ['-', '?', ':', '#', '&', '*', '!', '|', '>', '\'', '"', '%', '@'] ||
      c.toNat == 0x60

/-- Reads the token that begins with a character. -/
def token (s : Layout) (ch : Char) (rest : List Char) : Option Layout :=
  let flow := s.inFlow
  if s.column = 0 && ch == '%' then s.directive
  else if s.cursor.atMark '-' then s.documentMark .documentStart
  else if s.cursor.atMark '.' then s.documentMark .documentEnd
  else if ch == '[' then s.openBracket .flowSequenceStart
  else if ch == '{' then s.openBracket .flowMappingStart
  else if ch == ']' then s.closeBracket .flowSequenceEnd
  else if ch == '}' then s.closeBracket .flowMappingEnd
  else if ch == ',' then s.flowEntry
  else if ch == '-' && endsWord rest then s.blockEntry
  else if ch == '?' && (flow || endsWord rest) then s.explicitKey
  else if ch == ':' && (flow || endsWord rest) then s.valueMark
  else if ch == '*' then s.nameToken .aliasName
  else if ch == '&' then s.nameToken .anchor
  else if ch == '!' then s.tagToken
  else if ch == '|' && !flow then s.blockScalar false
  else if ch == '>' && !flow then s.blockScalar true
  else if ch == '\'' || ch == '"' then s.quotedScalar ch
  else if !isIndicator ch || ch == '-' || (!flow && (ch == '?' || ch == ':')) then
    s.plainScalar
  else none

def finish (s : Layout) : Option (List Token) :=
  (s.unrollTo fun _ => false).removeKey.map fun s => s.tokens.toList

def run : Nat → Layout → Option (List Token)
  | 0, _ => none
  | fuel + 1, s =>
    (toToken (s.cursor.rest.length + 1) s).dropStale.bind fun s =>
      let s := s.unrollTo fun block => block ≤ s.column
      match s.cursor.rest with
      | [] => s.finish
      | ch :: rest => (s.token ch rest).bind (run fuel)

end Layout

/-- The tokens of a text, if it is made of tokens. -/
def tokens? (text : String) : Option (List Token) :=
  let cs := text.toList
  if cs.all isAllowed then (Layout.start cs).run (cs.length + 1) else none

end WarehouseLoader.Yaml
