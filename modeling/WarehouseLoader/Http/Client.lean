import WarehouseLoader.Auth.Authenticator
import WarehouseLoader.Http.Backoff
import WarehouseLoader.Text.Duration

/-!
# Requests with retries

A request is attempted until an attempt settles it or the retries are spent. An
attempt settles the request unless it failed in a way that may pass: too many
requests, one of the server errors that are passing, no answer in time, or no
connection. Before the next attempt the client waits as long as the server asked
for, or as the backoff says.

All attempts are the same request. Only the authorization is worked out anew for
each, since a token may end in between; if that fails the request fails, and if
it breaks off so does the program.

An attempt whose connection broke before the answer settles the request,
although its error is one that `LoadError.isRetryable` calls passing.
-/

namespace WarehouseLoader.Http

open Auth

structure HttpConfig where
  baseUrl : Option String
  /-- Milliseconds, like all times here. -/
  timeout : Nat
  maxRetries : Nat
  initialBackoff : Nat
  maxBackoff : Nat
  backoffType : BackoffType
  defaultHeaders : List (String × String)
  userAgent : String

namespace HttpConfig

/-- The settings that hold where none are given. -/
def standard : HttpConfig where
  baseUrl := none
  timeout := 60000
  maxRetries := 6
  initialBackoff := 250
  maxBackoff := 32000
  backoffType := .exponential
  defaultHeaders := []
  userAgent := "bq-batch-load/0.1.0"

def backoff (c : HttpConfig) (attempt : Nat) : Nat :=
  backoffDelay c.backoffType attempt c.initialBackoff c.maxBackoff

end HttpConfig

def isAbsolute (url : String) : Bool :=
  "http://".toList.isPrefixOf url.toList || "https://".toList.isPrefixOf url.toList

def isSlashChar (c : Char) : Bool := c == '/'

/-- A path below a base, with one slash between them. A URL with a scheme of the
web stands for itself. -/
def joinUrl (base : Option String) (path : String) : String :=
  if isAbsolute path then path else
  match base with
  | none => path
  | some base =>
    let left := (base.toList.reverse.dropWhile isSlashChar).reverse
    let right := path.toList.dropWhile isSlashChar
    String.ofList (left ++ '/' :: right)

structure HttpClient where
  config : HttpConfig
  /-- Nothing means that requests are not authorized. -/
  credentials : Option Credentials

namespace HttpClient

variable {σ : Type}

/-- A client with the settings. The name that it gives itself has to be one that
a header can hold. -/
def create (config : HttpConfig) (credentials : Option Credentials) :
    Except LoadError HttpClient :=
  if isHeaderValue config.userAgent then .ok ⟨config, credentials⟩
  else .error (.transport .builder)

/-- What an attempt came to. -/
inductive Attempt where
  | settled (outcome : Except LoadError Response)
  /-- The error stands if no retry is left; the number is how long the server
  asked to be left alone, in milliseconds. -/
  | passing (e : LoadError) (wait : Option Nat)

/-- How an answer counts. -/
def classify (r : Response) : Attempt :=
  if r.status = 429 then
    .passing (.rateLimited r.retryAfter) (some (r.retryAfter * 1000))
  else if r.isFailure then
    let e := LoadError.httpStatus r.status r.text
    if e.isRetryable then .passing e none else .settled (.error e)
  else
    .settled (.ok r)

/-- How the end of an exchange counts. -/
def classifyExchange (timeout : Nat) : Exchange → Attempt
  | .answered r => classify r
  | .timedOut => .passing (.timeout timeout) none
  | .refused => .passing (.transport .connect) none
  | .broken => .settled (.error (.transport .exchange))

def authorize (c : HttpClient) (T : Transport σ) (s : Connection σ) :
    Except LoadError (Option String) × Connection σ :=
  match c.credentials with
  | none => (.ok none, s)
  | some credentials =>
    match authorization T credentials (some c.config.userAgent)
        (some c.config.timeout) s with
    | (.ok header, s) => (.ok header, s)
    | (.error e, s) => (.error e, s.mapWorld (T.settle e))

/-- One attempt at a request for a full URL. -/
def attempt (c : HttpClient) (T : Transport σ) (r : Request) (url : String)
    (timeout : Nat) (s : Connection σ) : Attempt × Connection σ :=
  match c.authorize T s with
  | (.error e, s) => (.settled (.error e), s)
  | (.ok authorization, s) =>
    match r.wire? url (some c.config.userAgent) c.config.defaultHeaders
        authorization with
    | none => (.settled (.error (.transport .builder)), s)
    | some wire =>
      let (outcome, w) := T.exchange wire (some timeout) s.world
      (classifyExchange timeout outcome, { s with world := w })

/-- The number after an attempt's in the log, which has 32 bits. -/
def attemptLimit (maxRetries : Nat) : Except LoadError Nat :=
  fitting UInt32.size (maxRetries + 1)

def retryNotice (r : Request) (url : String) (e : LoadError)
    (attempt maxRetries delay : Nat) : Except LoadError String :=
  (attemptLimit maxRetries).map fun limit =>
    let shown := Text.duration delay
    let trouble := s!"{r.method} {url} failed ({e.message}), attempt {attempt}/{limit}"
    trouble ++ ", retrying in " ++ shown

/-- Attempts the request until it is settled. `done` attempts were made and
`left` retries remain. -/
def requestFrom (c : HttpClient) (T : Transport σ) (r : Request) (url : String)
    (timeout maxRetries : Nat) (done : Nat) (left : Nat) (s : Connection σ) :
    Except LoadError Response × Connection σ :=
  match c.attempt T r url timeout s with
  | (.settled outcome, s) => (outcome, s)
  | (.passing e wait, s) =>
    match left with
    | 0 => (.error e, s)
    | left + 1 =>
      if T.isOver s.world then
        (.error e, s)
      else
        let delay := wait.getD (c.config.backoff done)
        let s := s.mapWorld fun w =>
          T.pause delay (T.warn (retryNotice r url e (done + 1) maxRetries delay) w)
        requestFrom c T r url timeout maxRetries (done + 1) left s

/-- Sends a request. -/
def request (c : HttpClient) (T : Transport σ) (r : Request) (s : Connection σ) :
    Except LoadError Response × Connection σ :=
  let retries := r.retries.getD c.config.maxRetries
  requestFrom c T r (joinUrl c.config.baseUrl r.url) (r.timeout.getD c.config.timeout)
    retries 0 retries s

/-- Sends a request and reads the body of the answer. -/
def requestRead {α : Type} (c : HttpClient) (T : Transport σ) (reading : Json.Reading α)
    (r : Request) (s : Connection σ) : Except LoadError α × Connection σ :=
  match c.request T r s with
  | (.ok response, s) => (response.read reading, s)
  | (.error e, s) => (.error e, s)

/-- Sends a request and reads the body of the answer as any JSON value. -/
def requestJson (c : HttpClient) (T : Transport σ) (r : Request) (s : Connection σ) :
    Except LoadError Json × Connection σ :=
  match c.request T r s with
  | (.ok response, s) => (response.json, s)
  | (.error e, s) => (.error e, s)

end HttpClient

end WarehouseLoader.Http
