import WarehouseLoader.Error
import WarehouseLoader.Number.Numeral
import WarehouseLoader.Text.Blank

/-!
# Ranges of an upload

Where the bytes of a request belong in the payload is said by a range, and how
much of the payload a server holds is said by a range in its answer. Positions
have 64 bits. No number of 64 bits counts the bytes up to the last position, and
nothing at the start of a payload has a last position.

Of the server's range only the number after the first dash is looked at.
-/

namespace WarehouseLoader.Upload

def wrap64 (n : Nat) : Nat := n % UInt64.size

/-- The position of the last of `length` bytes from `start` on, if there are any
bytes up to there. -/
def lastPosition (start length : Nat) : Nat :=
  wrap64 (start + length + (UInt64.size - 1))

/-- A chunk of a payload whose length is not told yet. -/
def chunkRange (start length : Nat) : String :=
  s!"bytes {start}-{lastPosition start length}/*"

/-- A question for what is held. -/
def queryRange : String := "bytes */*"

/-- The rest of a payload of `total` bytes. -/
def finalRange (start length : Nat) : String :=
  let total := start + length
  if length = 0 then s!"bytes */{total}"
  else s!"bytes {start}-{lastPosition start length}/{total}"

/-- The second of the parts between dashes. -/
def secondPart? (cs : List Char) : Option (List Char) :=
  match cs.dropWhile (· != '-') with
  | [] => none
  | _ :: rest => some (rest.takeWhile (· != '-'))

/-- The position of the last byte that a server says it holds. -/
def lastByte? (range : String) : Option Nat :=
  if "bytes=".toList.isPrefixOf range.toList then
    (secondPart? (range.toList.drop 6)).bind fun last =>
      Numeral.readBelow Numeral.bound64 (Text.trimBlanks last)
  else
    none

/-- How many bytes a server says it holds, if they can be counted. -/
def heldBytes? (range : String) : Option Nat :=
  (lastByte? range).bind fun last => (fitting UInt64.size (last + 1)).toOption

end WarehouseLoader.Upload
