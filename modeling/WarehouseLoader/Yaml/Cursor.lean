/-!
# Places in a text of lines

A cursor is a place in a text: what is still to come, and the line and column
that it stands in. Columns decide the structure of a document, so every step
over a character keeps count of them.

A line ends in any of five ways, one of which is two characters. In a value all
of them but two are the same line feed.
-/

namespace WarehouseLoader.Yaml

structure Cursor where
  rest : List Char
  /-- How many characters were passed. -/
  index : Nat
  line : Nat
  column : Nat

def isSeparator (c : Char) : Bool := c.toNat == 0x2028 || c.toNat == 0x2029

def isBreak (c : Char) : Bool :=
  c == '\n' || c == '\r' || c.toNat == 0x85 || isSeparator c

def isGap (c : Char) : Bool := c == ' ' || c == '\t'

/-- Whether the characters begin with a break, or are none. -/
def endsLine : List Char → Bool
  | [] => true
  | c :: _ => isBreak c

/-- Whether the characters begin with a blank or a break, or are none. -/
def endsWord : List Char → Bool
  | [] => true
  | c :: _ => isGap c || isBreak c

/-- The characters that a document may hold. -/
def isAllowed (c : Char) : Bool :=
  c == '\t' || c == '\n' || c == '\r' || (0x20 ≤ c.toNat && c.toNat ≤ 0x7E) ||
    c.toNat == 0x85 ||
    (0xA0 ≤ c.toNat && c.toNat ≤ 0xFFFD) || 0x10000 ≤ c.toNat

namespace Cursor

def start (cs : List Char) : Cursor := ⟨cs, 0, 0, 0⟩

/-- Goes on by characters of the same line. -/
def skip (c : Cursor) (n : Nat) : Cursor :=
  { c with rest := c.rest.drop n, index := c.index + n, column := c.column + n }

/-- Goes on to what is left of the same line. -/
def skipTo (c : Cursor) (rest : List Char) : Cursor :=
  let n := c.rest.length - rest.length
  { c with rest, index := c.index + n, column := c.column + n }

def skipWhile (c : Cursor) (p : Char → Bool) : Cursor := c.skipTo (c.rest.dropWhile p)

/-- Goes over the break that comes next, and gives it as it stands in a
value. -/
def takeBreak (c : Cursor) : List Char × Cursor :=
  match c.rest with
  | '\r' :: '\n' :: rest => (['\n'], ⟨rest, c.index + 2, c.line + 1, 0⟩)
  | ch :: rest =>
    (if isSeparator ch then [ch] else ['\n'], ⟨rest, c.index + 1, c.line + 1, 0⟩)
  | [] => ([], c)

/-- Whether a mark of three equal characters stands alone at the start of the
line. -/
def atMark (c : Cursor) (mark : Char) : Bool :=
  c.column == 0 && c.rest.take 3 == [mark, mark, mark] && endsWord (c.rest.drop 3)

/-- Whether the line begins or ends a document. -/
def atDocumentMark (c : Cursor) : Bool := c.atMark '-' || c.atMark '.'

end Cursor

end WarehouseLoader.Yaml
