import WarehouseLoader.Json.Number

/-!
# Tokens of a JSON text

The lexer looks at one character at a time and keeps what it has read of the
token at hand. A character that ends a numeral or a word is also the start of
what follows, so one step may give two tokens.

Two tokens may stand for something that has no value: a string whose escapes
name half of a surrogate pair, and a numeral beyond the largest double. They are
tokens all the same, because a text may hold them where nobody asks for the
value.
-/

namespace WarehouseLoader.Json

inductive Token where
  | openBracket
  | closeBracket
  | openBrace
  | closeBrace
  | colon
  | comma
  | null
  | bool (b : Bool)
  | number (n : Option Number)
  | text (s : Option String)
  deriving DecidableEq, Repr

/-- The part of a string that has been read: its characters, the last first, the
half of a surrogate pair that still waits for its other half, and whether every
half so far has found one. -/
structure PartialText where
  chars : List Char
  waiting : Option Nat
  sound : Bool
  deriving DecidableEq, Repr

namespace PartialText

def empty : PartialText := ⟨[], none, true⟩

def push (t : PartialText) (c : Char) : PartialText :=
  ⟨c :: t.chars, none, t.sound && t.waiting.isNone⟩

/-- Adds the code unit of an escape with four hexadecimal digits. -/
def pushUnit (t : PartialText) (unit : Nat) : PartialText :=
  if 0xD800 ≤ unit ∧ unit < 0xDC00 then
    ⟨t.chars, some unit, t.sound && t.waiting.isNone⟩
  else if 0xDC00 ≤ unit ∧ unit < 0xE000 then
    match t.waiting with
    | some high =>
      ⟨Char.ofNat (0x10000 + (high - 0xD800) * 0x400 + (unit - 0xDC00)) :: t.chars,
        none, t.sound⟩
    | none => ⟨t.chars, none, false⟩
  else
    t.push (Char.ofNat unit)

def text? (t : PartialText) : Option String :=
  if t.sound && t.waiting.isNone then some (String.ofList t.chars.reverse) else none

end PartialText

inductive LexState where
  | between
  | word (letters : List Char)
  | numeral (chars : List Char)
  | inText (content : PartialText)
  | escape (content : PartialText)
  /-- Inside an escape: the hexadecimal digits still to come and the value of
  those read. -/
  | unit (content : PartialText) (remaining : Nat) (value : Nat)
  deriving DecidableEq, Repr

namespace LexState

def isSpace (c : Char) : Bool := c == ' ' || c == '\t' || c == '\n' || c == '\r'

def isNumeralChar (c : Char) : Bool :=
  Numeral.isDigit c || c == '-' || c == '+' || c == '.' || c == 'e' || c == 'E'

def startsNumeral (c : Char) : Bool := Numeral.isDigit c || c == '-'

def isLetter (c : Char) : Bool := 'a' ≤ c && c ≤ 'z'

def word? (letters : List Char) : Option Token :=
  if letters = ['n', 'u', 'l', 'l'] then some .null
  else if letters = ['t', 'r', 'u', 'e'] then some (.bool true)
  else if letters = ['f', 'a', 'l', 's', 'e'] then some (.bool false)
  else none

def numeral? (chars : List Char) : Option Token :=
  (Numeral.ofChars? chars).map fun x => .number (Number.ofNumeral x)

def hexDigit? (c : Char) : Option Nat :=
  if '0' ≤ c ∧ c ≤ '9' then some (c.toNat - '0'.toNat)
  else if 'a' ≤ c ∧ c ≤ 'f' then some (c.toNat - 'a'.toNat + 10)
  else if 'A' ≤ c ∧ c ≤ 'F' then some (c.toNat - 'A'.toNat + 10)
  else none

/-- The character of an escape of one letter. -/
def escaped? (c : Char) : Option Char :=
  match c with
  | '"' => some '"'
  | '\\' => some '\\'
  | '/' => some '/'
  | 'b' => some '\x08'
  | 'f' => some '\x0c'
  | 'n' => some '\n'
  | 'r' => some '\r'
  | 't' => some '\t'
  | _ => none

/-- A step with no token at hand. -/
def start (c : Char) : Option (LexState × List Token) :=
  if isSpace c then some (between, [])
  else if c = '[' then some (between, [.openBracket])
  else if c = ']' then some (between, [.closeBracket])
  else if c = '{' then some (between, [.openBrace])
  else if c = '}' then some (between, [.closeBrace])
  else if c = ':' then some (between, [.colon])
  else if c = ',' then some (between, [.comma])
  else if c = '"' then some (inText .empty, [])
  else if startsNumeral c then some (numeral [c], [])
  else if isLetter c then some (word [c], [])
  else none

/-- Ends the token at hand and begins with `c`. -/
def restart (token : Option Token) (c : Char) : Option (LexState × List Token) :=
  token.bind fun t => (start c).map fun (state, more) => (state, t :: more)

def step : LexState → Char → Option (LexState × List Token)
  | between, c => start c
  | word letters, c =>
    if isLetter c then some (word (c :: letters), [])
    else restart (word? letters.reverse) c
  | numeral chars, c =>
    if isNumeralChar c then some (numeral (c :: chars), [])
    else restart (numeral? chars.reverse) c
  | inText content, c =>
    if c = '"' then some (between, [.text content.text?])
    else if c = '\\' then some (escape content, [])
    else if c.toNat < 0x20 then none
    else some (inText (content.push c), [])
  | escape content, c =>
    if c = 'u' then some (unit content 4 0, [])
    else (escaped? c).map fun d => (inText (content.push d), [])
  | unit content remaining value, c =>
    (hexDigit? c).map fun d =>
      if remaining ≤ 1 then (inText (content.pushUnit (16 * value + d)), [])
      else (unit content (remaining - 1) (16 * value + d), [])

/-- The tokens that the end of the text completes. -/
def finish : LexState → Option (List Token)
  | between => some []
  | word letters => (word? letters.reverse).map ([·])
  | numeral chars => (numeral? chars.reverse).map ([·])
  | inText _ => none
  | escape _ => none
  | unit .. => none

/-- Reads on in `state`, with the tokens so far, the last first. -/
def run (state : LexState) (tokens : List Token) : List Char → Option (List Token)
  | [] => state.finish.map fun last => (last.reverse ++ tokens).reverse
  | c :: rest =>
    match state.step c with
    | some (next, more) => next.run (more.reverse ++ tokens) rest
    | none => none

end LexState

/-- The tokens of a text, or nothing when some part of it is no token. -/
def tokens? (s : String) : Option (List Token) :=
  LexState.between.run [] s.toList

end WarehouseLoader.Json
