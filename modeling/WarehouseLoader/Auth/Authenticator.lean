import WarehouseLoader.Auth.Assertion
import WarehouseLoader.Auth.Credentials
import WarehouseLoader.Auth.Token
import WarehouseLoader.Http.Transport

/-!
# Authorization of requests

Credentials that are exchanged for tokens keep the last token and ask for a new
one when there is none or when it is about to end. A request for a token that
fails leaves what was kept as it was, and its error is the error of the request
that needed the token. Credentials of the other kinds never ask.
-/

namespace WarehouseLoader.Auth

open Http

/-- The world together with the token that is kept. -/
structure Connection (σ : Type) where
  world : σ
  token : Option CachedToken
  deriving DecidableEq

namespace Connection

/-- Changes the world alone. -/
def mapWorld {σ : Type} (f : σ → σ) (c : Connection σ) : Connection σ :=
  { c with world := f c.world }

end Connection

variable {σ : Type}

def grantType : String := "urn:ietf:params:oauth:grant-type:jwt-bearer"

/-- The value of the header that carries a token. -/
def bearer (token : String) : String := "Bearer " ++ token

/-- The token of an answer that was asked for; `asking` says what the request
was. -/
def tokenOfAnswer (asking : String) (r : Response) (now : Int) :
    Except LoadError CachedToken :=
  if r.isSuccess then
    match r.read TokenAnswer.read with
    | .ok answer => CachedToken.issued answer.accessToken answer.expiresIn now
    | .error e => .error e
  else
    let body := r.text
    .error (.auth s!"{asking} failed with status {r.status}: {body}")

/-- Sends one request for a token. `lost` is the error when no answer comes. -/
def askForToken (T : Transport σ) (request : Option WireRequest) (timeout : Option Nat)
    (asking : String) (lost : TransportFault → LoadError) (w : σ) :
    Except LoadError CachedToken × σ :=
  match request with
  | none => (.error (lost .builder), w)
  | some wire =>
    match T.exchange wire timeout w with
    | (.answered r, w) => (tokenOfAnswer asking r (T.now w), w)
    | (.refused, w) => (.error (lost .connect), w)
    | (.timedOut, w) => (.error (lost .exchange), w)
    | (.broken, w) => (.error (lost .exchange), w)

/-- The request with which a service account hands in its assertion. -/
def exchangeRequest (tokenUri assertion : String) : Request :=
  (Request.new "POST" tokenUri).withBytes
    (Text.utf8 (form [("grant_type", grantType), ("assertion", assertion)]))
    "application/x-www-form-urlencoded"

def metadataRequest (url : String) : Request :=
  (Request.new "GET" url).withHeader "Metadata-Flavor" "Google"

/-- Asks for a new token. `userAgent` and `timeout` are those of the requests
that need it. -/
def fetchToken (T : Transport σ) (credentials : Credentials) (userAgent : Option String)
    (timeout : Option Nat) (w : σ) : Except LoadError CachedToken × σ :=
  match credentials with
  | .serviceAccount key scopes lifetime =>
    match Assertion.of key scopes lifetime (T.now w / 1000) with
    | .error e => (.error e, w)
    | .ok assertion =>
      let request := exchangeRequest key.tokenUri (assertion.text T.sign)
      askForToken T (request.wire? key.tokenUri userAgent [] none) timeout
        "token exchange" .transport w
  | .metadataServer url =>
    askForToken T ((metadataRequest url).wire? url userAgent [] none) timeout
      "metadata token request" (fun _ => .auth "metadata server unreachable") w
  | .none | .bearer _ =>
    (.error (.auth "Token refresh not supported for this auth type"), w)

/-- The token that is kept, if it can still be used. -/
def keptToken? (T : Transport σ) (c : Connection σ) : Option String :=
  match c.token with
  | some t => if t.isExpired (T.now c.world) then none else some t.token
  | none => none

/-- A token that can be used now. -/
def usableToken (T : Transport σ) (credentials : Credentials)
    (userAgent : Option String) (timeout : Option Nat) (c : Connection σ) :
    Except LoadError String × Connection σ :=
  match keptToken? T c with
  | some token => (.ok token, c)
  | none =>
    match fetchToken T credentials userAgent timeout c.world with
    | (.ok token, w) => (.ok token.token, ⟨w, some token⟩)
    | (.error e, w) => (.error e, { c with world := w })

/-- The value of the authorization header of the next request, if it has one. -/
def authorization (T : Transport σ) (credentials : Credentials)
    (userAgent : Option String) (timeout : Option Nat) (c : Connection σ) :
    Except LoadError (Option String) × Connection σ :=
  match credentials with
  | .none => (.ok none, c)
  | .bearer token => (.ok (some (bearer token)), c)
  | .serviceAccount .. | .metadataServer _ =>
    match usableToken T credentials userAgent timeout c with
    | (.ok token, c) => (.ok (some (bearer token)), c)
    | (.error e, c) => (.error e, c)

/-- Forgets the token, so that the next request asks for a new one. -/
def clearToken (c : Connection σ) : Connection σ := { c with token := none }

end WarehouseLoader.Auth
