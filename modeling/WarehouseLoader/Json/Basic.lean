import WarehouseLoader.Json.Number
import WarehouseLoader.NameMap

/-!
# JSON values

The members of an object are a list. A value that was read has them in ascending
order of their names, each name once; a value that the program builds has them
in the order in which they are to be written. Looking a member up does not
depend on the order.
-/

namespace WarehouseLoader

inductive Json where
  | null
  | bool (b : Bool)
  | number (n : Json.Number)
  | text (s : String)
  | array (items : List Json)
  | object (members : List (String × Json))
  deriving Repr, Inhabited

namespace Json

def ofNat (n : Nat) : Json := number (.natural n)

def ofInt (n : Int) : Json :=
  if n < 0 then number (.negative n.natAbs) else number (.natural n.natAbs)

def ofOption {α : Type} (f : α → Json) : Option α → Json
  | some a => f a
  | none => null

def member? (members : List (String × Json)) (name : String) : Option Json :=
  members.lookup name

mutual

/-- The value with the members of every object in ascending order of their
names, the last of each name. -/
def sorted : Json → Json
  | array items => array (sortedItems items)
  | object members => object (sortedMembers [] members)
  | v => v

def sortedItems : List Json → List Json
  | [] => []
  | item :: rest => sorted item :: sortedItems rest

def sortedMembers (before : List (String × Json)) :
    List (String × Json) → List (String × Json)
  | [] => before
  | (name, value) :: rest => sortedMembers (insertEntry name (sorted value) before) rest

end

end Json

end WarehouseLoader
