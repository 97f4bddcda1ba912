import WarehouseLoader.Auth.Key
import WarehouseLoader.Auth.SigningKey
import WarehouseLoader.Json.Writer

/-!
# Assertions

A service account asks for a token by an assertion: a header and claims, each as
JSON in base 64, signed with its key. The claims say who asks, for which scopes,
at which endpoint, and from when to when. Instants are seconds of 64 bits with a
sign. A lifetime has no sign where it comes from, and is read as one of them.
-/

namespace WarehouseLoader.Auth

structure Claims where
  issuer : String
  scope : String
  audience : String
  issuedAt : Int
  expiresAt : Int
  deriving DecidableEq, Repr

structure Assertion where
  keyId : Option String
  claims : Claims
  key : SigningKey

/-- A whole number as 64 bits with a sign hold it. -/
def wrap64 (n : Int) : Int := Int.bmod n UInt64.size

/-- The second at which an assertion ends that is made now. -/
def expiry (lifetime : Nat) (now : Int) : Except LoadError Int :=
  let ending := now + wrap64 lifetime
  if wrap64 ending = ending then .ok ending else .error .overflow

def Claims.of (key : ServiceAccountKey) (scopes : List String) (lifetime : Nat)
    (now : Int) : Except LoadError Claims :=
  (expiry lifetime now).map fun ending =>
    { issuer := key.clientEmail
      scope := " ".intercalate scopes
      audience := key.tokenUri
      issuedAt := now
      expiresAt := ending }

def Claims.toJson (c : Claims) : Json :=
  .object [("iss", .text c.issuer), ("scope", .text c.scope), ("aud", .text c.audience),
    ("iat", .ofInt c.issuedAt), ("exp", .ofInt c.expiresAt)]

namespace Assertion

/-- The assertion of a key at an instant in seconds. The key is looked at when
the claims are there, and before it is used. -/
def of (key : ServiceAccountKey) (scopes : List String) (lifetime : Nat) (now : Int) :
    Except LoadError Assertion :=
  match Claims.of key scopes lifetime now with
  | .error e => .error e
  | .ok claims =>
    match SigningKey.ofText? key.privateKey with
    | none => .error (.assertion "Invalid private key")
    | some signingKey =>
      match signingKey.flaw? with
      | some flaw =>
        .error (.assertion s!"Failed to encode JWT: RSA key invalid: {flaw}")
      | none => .ok ⟨key.privateKeyId, claims, signingKey⟩

def header (a : Assertion) : Json :=
  .object ([("typ", .text "JWT"), ("alg", .text "RS256")] ++
    match a.keyId with
    | some id => [("kid", .text id)]
    | none => [])

/-- What is signed. -/
def payload (a : Assertion) : String :=
  Base64.encodeForUrl (Text.utf8 a.header.render) ++ "." ++
    Base64.encodeForUrl (Text.utf8 a.claims.toJson.render)

def text (a : Assertion) (sign : SigningKey → List UInt8 → List UInt8) : String :=
  a.payload ++ "." ++ Base64.encodeForUrl (sign a.key (Text.utf8 a.payload))

end Assertion

end WarehouseLoader.Auth
