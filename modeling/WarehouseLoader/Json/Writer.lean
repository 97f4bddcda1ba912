import WarehouseLoader.Json.Basic

/-!
# Writing JSON

Values are written without blanks, members in the order they have. In a string
only the quote, the backslash and the control characters below the space are
escaped, the five that have a letter by it and the others by four hexadecimal
digits; every other character stands for itself.

A value may also be written over several lines for people to read.
-/

namespace WarehouseLoader.Json

def hexChar (n : Nat) : Char :=
  if n < 10 then Char.ofNat ('0'.toNat + n) else Char.ofNat ('a'.toNat + (n - 10))

def escapeChar (c : Char) : List Char :=
  match c with
  | '"' => ['\\', '"']
  | '\\' => ['\\', '\\']
  | '\x08' => ['\\', 'b']
  | '\x0c' => ['\\', 'f']
  | '\n' => ['\\', 'n']
  | '\r' => ['\\', 'r']
  | '\t' => ['\\', 't']
  | c =>
    if c.toNat < 0x20 then
      ['\\', 'u', '0', '0', hexChar (c.toNat / 16), hexChar (c.toNat % 16)]
    else
      [c]

def quoteChars (s : String) : List Char :=
  '"' :: (s.toList.flatMap escapeChar ++ ['"'])

mutual

def chars : Json → List Char
  | null => ['n', 'u', 'l', 'l']
  | bool true => ['t', 'r', 'u', 'e']
  | bool false => ['f', 'a', 'l', 's', 'e']
  | number n => n.text.toList
  | text s => quoteChars s
  | array items => '[' :: (itemChars items ++ [']'])
  | object members => '{' :: (memberChars members ++ ['}'])

def itemChars : List Json → List Char
  | [] => []
  | [item] => chars item
  | item :: rest => chars item ++ ',' :: itemChars rest

def memberChars : List (String × Json) → List Char
  | [] => []
  | [(name, value)] => quoteChars name ++ ':' :: chars value
  | (name, value) :: rest =>
    quoteChars name ++ ':' :: (chars value ++ ',' :: memberChars rest)

end

def render (v : Json) : String := String.ofList v.chars

/-! ### Over several lines -/

/-- A new line at a level of brackets. -/
def newLine (level : Nat) : List Char := '\n' :: List.replicate (2 * level) ' '

mutual

/-- The value with every item and member on a line of its own, two blanks
further in for each level. -/
def lineChars (level : Nat) : Json → List Char
  | array (item :: rest) =>
    '[' :: (newLine (level + 1) ++ lineChars (level + 1) item ++
      lineItems (level + 1) rest ++ newLine level ++ [']'])
  | object ((name, value) :: rest) =>
    '{' :: (newLine (level + 1) ++ quoteChars name ++
      ':' :: ' ' :: lineChars (level + 1) value ++
      lineMembers (level + 1) rest ++ newLine level ++ ['}'])
  | v => chars v

/-- Further items, each behind a comma. -/
def lineItems (level : Nat) : List Json → List Char
  | [] => []
  | item :: rest =>
    ',' :: (newLine level ++ lineChars level item ++ lineItems level rest)

/-- Further members, each behind a comma. -/
def lineMembers (level : Nat) : List (String × Json) → List Char
  | [] => []
  | (name, value) :: rest =>
    ',' :: (newLine level ++ quoteChars name ++ ':' :: ' ' :: lineChars level value ++
      lineMembers level rest)

end

def renderLines (v : Json) : String := String.ofList (v.lineChars 0)

end WarehouseLoader.Json
