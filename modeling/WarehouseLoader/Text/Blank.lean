/-!
# Blank characters

The white space of the Unicode standard: what surrounds a name inside a template
expression, and what a header value may carry at its ends. The class is wider
than the one of ASCII text, so it has a table of its own.
-/

namespace WarehouseLoader.Text

def blankRanges : List (Nat × Nat) :=
  [(0x9, 0xD), (0x20, 0x20), (0x85, 0x85), (0xA0, 0xA0), (0x1680, 0x1680),
    (0x2000, 0x200A), (0x2028, 0x2029), (0x202F, 0x202F), (0x205F, 0x205F),
    (0x3000, 0x3000)]

def isBlank (c : Char) : Bool :=
  blankRanges.any fun range => range.1 ≤ c.toNat && c.toNat ≤ range.2

/-- A text without the blanks at its two ends. -/
def trimBlanks (cs : List Char) : List Char :=
  ((cs.dropWhile isBlank).reverse.dropWhile isBlank).reverse

/-- Whether a text holds nothing to see. -/
def isBlankText (s : String) : Bool := s.toList.all isBlank

end WarehouseLoader.Text
