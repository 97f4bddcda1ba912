/-!
# Backoff

How long to wait before the next attempt. Delays are milliseconds and the counts
are 32-bit numbers that stop at their largest value; a product that is larger
than the cap does not show, because the cap is taken last.
-/

namespace WarehouseLoader

inductive BackoffType where
  | constant
  | linear
  | exponential
  deriving DecidableEq, Repr

namespace BackoffType

instance : Inhabited BackoffType := ⟨exponential⟩

def all : List BackoffType := [constant, linear, exponential]

def name : BackoffType → String
  | constant => "constant"
  | linear => "linear"
  | exponential => "exponential"

def ofName? (s : String) : Option BackoffType := all.find? (·.name == s)

/-- The largest number of 32 bits. -/
def maxCount : Nat := UInt32.size - 1

/-- By how much the first delay is multiplied before attempt `attempt`, counted
from zero. -/
def factor (attempt : Nat) : BackoffType → Nat
  | constant => 1
  | linear => min (attempt + 1) maxCount
  | exponential => min (Nat.pow 2 (min attempt 32)) maxCount

end BackoffType

/-- The delay before the attempt after `attempt`, in milliseconds. -/
def backoffDelay (type : BackoffType) (attempt initial cap : Nat) : Nat :=
  min (initial * type.factor attempt) cap

end WarehouseLoader
