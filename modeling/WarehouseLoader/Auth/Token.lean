import WarehouseLoader.Error
import WarehouseLoader.Json.Decode

/-!
# Access tokens

A token is kept with the time at which it ends, if it has one. It counts as
ended half a minute before, so that a request made with it does not arrive too
late.

Times are milliseconds of the clock. A time outside of the years that a date can
have cannot be computed.
-/

namespace WarehouseLoader.Auth

open Json (Reading)

/-- How long before its end a token is no longer used. -/
def expiryMargin : Int := 30000

/-- The largest number of seconds that a span of time can have, in either
direction. -/
def maxSpanSeconds : Int := 9223372036854775

/-- The first and the last millisecond that a date can have. -/
def minInstant : Int := -8334601228800000
def maxInstant : Int := 8210266876799999

structure CachedToken where
  token : String
  expiresAt : Option Int
  deriving DecidableEq, Repr

namespace CachedToken

def isExpired (t : CachedToken) (now : Int) : Bool :=
  match t.expiresAt with
  | some ending => now + expiryMargin ≥ ending
  | none => false

/-- A token that ends in so many seconds from now, or for ever if no number is
given. -/
def issued (token : String) (seconds : Option Int) (now : Int) :
    Except LoadError CachedToken :=
  match seconds with
  | none => .ok ⟨token, none⟩
  | some seconds =>
    let ending := now + seconds * 1000
    if seconds.natAbs ≤ maxSpanSeconds ∧ minInstant ≤ ending ∧ ending ≤ maxInstant then
      .ok ⟨token, some ending⟩
    else
      .error .dateRange

end CachedToken

/-- A token endpoint's answer. -/
structure TokenAnswer where
  accessToken : String
  expiresIn : Option Int
  deriving DecidableEq, Repr

def TokenAnswer.read : Reading TokenAnswer :=
  Reading.record ["access_token", "expires_in"] fun depth members => do
    let accessToken ← Reading.required Reading.text depth members "access_token"
    let expiresIn ← Reading.defaulted none (Reading.orNull Reading.integer)
      depth members "expires_in"
    return ⟨accessToken, expiresIn⟩

end WarehouseLoader.Auth
