import WarehouseLoader.Http.Percent
import WarehouseLoader.Yaml.Cursor
import WarehouseLoader.Yaml.Token

/-!
# Written scalars, tags and names

The forms that a scalar may have in a document, each read from the cursor at its
start: plain, in either kind of quote, and as a block of lines. Where a scalar
goes on over a line break, the break becomes a space, and breaks after it stay.

The readings give nothing for a text that has not the form. Fuel is the number
of characters left, and every step that uses it passes one.
-/

namespace WarehouseLoader.Yaml

open Http (hexValue?)

/-! ### What stands between two words -/

/-- Blanks and breaks between words: the blanks before the first break, the
first break, and the breaks after it. -/
structure Gap where
  blanks : List Char
  lead : List Char
  trail : List Char
  broken : Bool

namespace Gap

def none : Gap := ⟨[], [], [], false⟩

/-- A break that has no part in the value. -/
def escaped : Gap := ⟨[], [], [], true⟩

/-- What the gap is in the value. -/
def text (g : Gap) : List Char :=
  if !g.broken then g.blanks
  else if g.lead == ['\n'] then (if g.trail.isEmpty then [' '] else g.trail)
  else g.lead ++ g.trail

/-- Goes over a gap. A tab may not stand for indentation below `indent`. -/
def read (indent : Nat) : Nat → Gap → Cursor → Option (Gap × Cursor)
  | 0, g, c => some (g, c)
  | fuel + 1, g, c =>
    match c.rest with
    | [] => some (g, c)
    | ch :: _ =>
      if isGap ch then
        if g.broken && c.column < indent && ch == '\t' then Option.none
        else
          let g := if g.broken then g else { g with blanks := g.blanks ++ [ch] }
          read indent fuel g (c.skip 1)
      else if isBreak ch then
        let (b, c) := c.takeBreak
        let g := if g.broken then { g with trail := g.trail ++ b } else ⟨[], b, [], true⟩
        read indent fuel g c
      else
        some (g, c)

end Gap

/-! ### Plain scalars -/

def isFlowMark (c : Char) : Bool :=
  c == ',' || c == '[' || c == ']' || c == '{' || c == '}'

/-- The characters up to the next blank or mark. A colon right before a mark is
refused inside brackets. -/
def plainWord (flow : Bool) : List Char → Option (List Char)
  | [] => some []
  | c :: rest =>
    if isGap c || isBreak c then some []
    else if flow && c == ':' && rest.head?.any (fun d => isFlowMark d || d == '?') then
      none
    else if c == ':' && endsWord rest then some []
    else if flow && isFlowMark c then some []
    else (plainWord flow rest).map (c :: ·)

/-- The words of a plain scalar, and whether a break comes after the last. -/
def plainFrom (flow : Bool) (indent : Nat) :
    Nat → Gap → List Char → Cursor → Option (List Char × Bool × Cursor)
  | 0, g, soFar, c => some (soFar, g.broken, c)
  | fuel + 1, g, soFar, c =>
    if c.atDocumentMark || c.rest.head? == some '#' then some (soFar, g.broken, c)
    else
      (plainWord flow c.rest).bind fun word =>
        if word.isEmpty then some (soFar, g.broken, c)
        else
          let soFar := soFar ++ g.text ++ word
          let c := c.skip word.length
          if c.rest.isEmpty || !endsWord c.rest then some (soFar, false, c)
          else
            (Gap.read indent c.rest.length Gap.none c).bind fun (g, c) =>
              if !flow && c.column < indent then some (soFar, g.broken, c)
              else plainFrom flow indent fuel g soFar c

/-! ### Quoted scalars -/

/-- The character that stands for itself after a backslash, or for which another
stands. -/
def escape? (c : Char) : Option Char :=
  match c with
  | '0' => some '\x00'
  | 'a' => some '\x07'
  | 'b' => some '\x08'
  | 't' => some '\t'
  | '\t' => some '\t'
  | 'n' => some '\n'
  | 'v' => some '\x0b'
  | 'f' => some '\x0c'
  | 'r' => some '\r'
  | 'e' => some '\x1b'
  | ' ' => some ' '
  | '"' => some '"'
  | '/' => some '/'
  | '\\' => some '\\'
  | 'N' => some '\u0085'
  | '_' => some '\u00a0'
  | 'L' => some '\u2028'
  | 'P' => some '\u2029'
  | _ => none

/-- The character with a number in hexadecimal digits. -/
def hexCharacter? (digits : List Char) : Option Char :=
  (digits.mapM hexValue?).bind fun ds =>
    let n := ds.foldl (fun n d => 16 * n + d) 0
    if n < 0xD800 ∨ (0xDFFF < n ∧ n ≤ 0x10FFFF) then some (Char.ofNat n) else none

/-- The characters up to the next blank, break or quote; then what is left, and
whether a backslash stands before a break there. -/
def singleQuotedWord : List Char → List Char × List Char
  | '\'' :: '\'' :: rest =>
    let (word, left) := singleQuotedWord rest
    ('\'' :: word, left)
  | c :: rest =>
    if c == '\'' || isGap c || isBreak c then ([], c :: rest)
    else
      let (word, left) := singleQuotedWord rest
      (c :: word, left)
  | [] => ([], [])

/-- Puts a character before a word that was read. -/
def withChar (ch : Option Char) (r : Option (List Char × List Char × Bool)) :
    Option (List Char × List Char × Bool) :=
  match ch, r with
  | some ch, some (word, left, escaped) => some (ch :: word, left, escaped)
  | _, _ => none

def doubleQuotedWord : List Char → Option (List Char × List Char × Bool)
  | '\\' :: 'x' :: a :: b :: rest =>
    withChar (hexCharacter? [a, b]) (doubleQuotedWord rest)
  | '\\' :: 'u' :: a :: b :: c :: d :: rest =>
    withChar (hexCharacter? [a, b, c, d]) (doubleQuotedWord rest)
  | '\\' :: 'U' :: a :: b :: c :: d :: e :: f :: g :: h :: rest =>
    withChar (hexCharacter? [a, b, c, d, e, f, g, h]) (doubleQuotedWord rest)
  | '\\' :: c :: rest =>
    if isBreak c then some ([], c :: rest, true)
    else withChar (escape? c) (doubleQuotedWord rest)
  | c :: rest =>
    if c == '"' || isGap c || isBreak c then some ([], c :: rest, false)
    else withChar (some c) (doubleQuotedWord rest)
  | [] => some ([], [], false)

def quotedWord (quote : Char) (cs : List Char) :
    Option (List Char × List Char × Bool) :=
  if quote == '\'' then
    let (word, left) := singleQuotedWord cs
    some (word, left, false)
  else
    doubleQuotedWord cs

/-- The rest of a quoted scalar, from behind its opening quote. -/
def quotedFrom (quote : Char) : Nat → List Char → Cursor → Option (List Char × Cursor)
  | 0, _, _ => none
  | fuel + 1, soFar, c =>
    if c.atDocumentMark || c.rest.isEmpty then none
    else
      (quotedWord quote c.rest).bind fun (word, left, escaped) =>
        let soFar := soFar ++ word
        let c := c.skipTo left
        let c := if escaped then c.takeBreak.2 else c
        if c.rest.head? == some quote then some (soFar, c.skip 1)
        else
          let start : Gap := if escaped then .escaped else .none
          (Gap.read 0 c.rest.length start c).bind fun (g, c) =>
            quotedFrom quote fuel (soFar ++ g.text) c

/-! ### Blocks of lines -/

/-- What becomes of the breaks at the end of a block. -/
inductive Chomping where
  | strip
  | clip
  | keep
  deriving DecidableEq, Repr

def chomping? (c : Char) : Option Chomping :=
  if c = '+' then some .keep else if c = '-' then some .strip else none

def indentDigit? (c : Char) : Option Nat :=
  if '1' ≤ c ∧ c ≤ '9' then some (c.toNat - '0'.toNat) else none

/-- The marks behind the indicator of a block, in either order: what becomes of
the last breaks, and by how much the lines are indented. -/
def blockHeader (cs : List Char) : Chomping × Option Nat × List Char :=
  match cs with
  | a :: rest =>
    match chomping? a, indentDigit? a with
    | some k, _ =>
      match rest with
      | b :: rest' =>
        match indentDigit? b with
        | some n => (k, some n, rest')
        | none => (k, none, rest)
      | [] => (k, none, [])
    | none, some n =>
      match rest with
      | b :: rest' =>
        match chomping? b with
        | some k => (k, some n, rest')
        | none => (.clip, some n, rest)
      | [] => (.clip, some n, [])
    | none, none => (.clip, none, cs)
  | [] => (.clip, none, [])

/-- The empty lines before the next line of a block. An indentation of zero is
not known yet and is the deepest that these lines have. -/
def blockBreaks (indent : Nat) :
    Nat → Nat → List Char → Cursor → Option (Nat × List Char × Cursor)
  | 0, deepest, breaks, c => some (deepest, breaks, c)
  | fuel + 1, deepest, breaks, c =>
    let spaces := (c.rest.takeWhile (· == ' ')).length
    let c := c.skip (if indent = 0 then spaces else min spaces (indent - c.column))
    let deepest := max deepest c.column
    match c.rest with
    | [] => some (deepest, breaks, c)
    | ch :: _ =>
      if ch == '\t' && (indent = 0 || c.column < indent) then none
      else if isBreak ch then
        let (b, c) := c.takeBreak
        blockBreaks indent fuel deepest (breaks ++ b) c
      else
        some (deepest, breaks, c)

/-- What stands between two lines of a block. Only in a folded one does a break
become a space, and only between lines of which neither begins with a blank. -/
def blockJoin (fold : Bool) (lead trail : List Char) : List Char :=
  if fold && lead == ['\n'] then (if trail.isEmpty then [' '] else trail)
  else lead ++ trail

/-- The lines of a block. `lead` and `trail` are the breaks before the next one,
and `indented` tells whether the line before began with a blank. -/
def blockLines (folded : Bool) (chomping : Chomping) (indent : Nat) :
    Nat → Bool → List Char → List Char → List Char → Cursor →
      Option (List Char × Cursor)
  | 0, _, _, _, _, _ => none
  | fuel + 1, indented, lead, trail, soFar, c =>
    if c.column ≠ indent ∨ c.rest.isEmpty then
      let kept :=
        match chomping with
        | .strip => []
        | .clip => lead
        | .keep => lead ++ trail
      some (soFar ++ kept, c)
    else
      let blank := c.rest.head?.any isGap
      let line := c.rest.takeWhile (!isBreak ·)
      let soFar := soFar ++ blockJoin (folded && !indented && !blank) lead trail ++ line
      let (b, c) := (c.skip line.length).takeBreak
      (blockBreaks indent c.rest.length 0 [] c).bind fun (_, trail, c) =>
        blockLines folded chomping indent fuel blank b trail soFar c

/-- A block from behind its indicator. `parent` is the indentation of what holds
it, if that has one. -/
def block? (folded : Bool) (parent : Option Nat) (c : Cursor) :
    Option (List Char × Cursor) :=
  let (chomping, increment, rest) := blockHeader c.rest
  let c := (c.skipTo rest).skipWhile isGap
  let c := if c.rest.head? == some '#' then c.skipWhile (!isBreak ·) else c
  if !endsLine c.rest then none
  else
    let c := c.takeBreak.2
    let known := increment.elim 0 (parent.getD 0 + ·)
    (blockBreaks known c.rest.length 0 [] c).bind fun (deepest, trail, c) =>
      let indent :=
        if known = 0 then max deepest (max (parent.elim 0 (· + 1)) 1) else known
      blockLines folded chomping indent (c.rest.length + 1) false [] trail [] c

/-! ### Names and tags -/

def isNameChar (c : Char) : Bool :=
  ('a' ≤ c && c ≤ 'z') || ('A' ≤ c && c ≤ 'Z') || ('0' ≤ c && c ≤ '9') ||
    c == '_' || c == '-'

/-- The name of an anchor or an alias, from behind its indicator. -/
def name? (c : Cursor) : Option (String × Cursor) :=
  let name := c.rest.takeWhile isNameChar
  let c := c.skip name.length
  let ends := endsWord c.rest ||
    c.rest.head?.any fun d => d ∈ ['?', ':', ',', ']', '}', '%', '@'] || d.toNat == 0x60
  if name.isEmpty || !ends then none else some (String.ofList name, c)

def isTagChar (bracketed : Bool) (c : Char) : Bool :=
  isNameChar c ||
    c ∈ [';', '/', '?', ':', '@', '&', '=', '+', '$', '.', '!', '~', '*',
      '\'', '(', ')', '%'] ||
    (bracketed && (c == ',' || c == '[' || c == ']'))

/-- The characters of a tag with its percent forms decoded. -/
def tagText? (cs : List Char) : Option String := Text.ofUtf8? (Http.percentDecode cs)

/-- A tag, from its indicator on: its handle and the rest of it. -/
def tag? (flow : Bool) (c : Cursor) : Option (String × String × Cursor) :=
  let ends (c : Cursor) : Bool := endsWord c.rest || (flow && c.rest.head? == some ',')
  match c.rest with
  | '!' :: '<' :: body =>
    let uri := body.takeWhile (isTagChar true)
    match body.drop uri.length with
    | '>' :: _ =>
      let c := c.skip (uri.length + 3)
      if uri.isEmpty || !ends c then none
      else (tagText? uri).map fun uri => ("", uri, c)
    | _ => none
  | '!' :: body =>
    let word := body.takeWhile isNameChar
    let afterWord := body.drop word.length
    if afterWord.head? == some '!' then
      let uri := (afterWord.drop 1).takeWhile (isTagChar false)
      let c := c.skip (word.length + 2 + uri.length)
      let handle := String.ofList ('!' :: (word ++ ['!']))
      if uri.isEmpty || !ends c then none
      else (tagText? uri).map fun uri => (handle, uri, c)
    else
      let uri := body.takeWhile (isTagChar false)
      let c := c.skip (1 + uri.length)
      if !ends c then none
      else if uri.isEmpty then some ("", "!", c)
      else (tagText? uri).map fun uri => ("!", uri, c)
  | _ => none

end WarehouseLoader.Yaml
