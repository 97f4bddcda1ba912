import WarehouseLoader.Number.Numeral

/-!
# Signed numerals

A whole number of 64 bits as text: an optional sign, then one or more digits.
Both signs are allowed before a zero.
-/

namespace WarehouseLoader.Numeral

def readSigned64 (cs : List Char) : Option Int :=
  match cs with
  | '-' :: digits =>
    ((digits? digits).filter (· ≤ Nat.pow 2 63)).map fun n => -(n : Int)
  | cs => ((digits? (dropPlus cs)).filter (· < Nat.pow 2 63)).map fun n => (n : Int)

end WarehouseLoader.Numeral
