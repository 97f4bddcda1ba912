/-!
# What can go wrong

Every operation of the loader answers with a value or with one `LoadError`. The
constructors are causes: what was being done, and the data a person needs to
see. The wording is in `message` alone.

A job that the warehouse ran and that ended badly is not an error. It is a job
with an error result, carried to the unit's attributes like any other outcome.

`isRetryable` is the one place that says which failures may pass by themselves.
Both the chunk upload and the job poll ask it, so they cannot disagree about a
cause.

Two causes are of another kind. A number that its type cannot hold, and a time
that no date can have, break the program off, and no caller answers them
(`LoadError.breaksOff`).
-/

namespace WarehouseLoader

instance instDecidableEqExcept {ε α : Type} [DecidableEq ε] [DecidableEq α] :
    DecidableEq (Except ε α)
  | .error e, .error e' => decidable_of_iff (e = e') (by simp)
  | .ok a, .ok a' => decidable_of_iff (a = a') (by simp)
  | .error _, .ok _ => isFalse nofun
  | .ok _, .error _ => isFalse nofun

/-- One thing after another goes well if each of them does. -/
theorem bind_eq_ok_iff {ε α β : Type} {x : Except ε α} {f : α → Except ε β} {b : β} :
    x >>= f = .ok b ↔ ∃ a, x = .ok a ∧ f a = .ok b := by
  cases x with
  | error e =>
    refine ⟨fun h => (by cases h), ?_⟩
    rintro ⟨a, h, -⟩
    cases h
  | ok a =>
    refine ⟨fun h => ⟨a, rfl, h⟩, ?_⟩
    rintro ⟨a', h, hf⟩
    cases h
    exact hf

theorem bind_eq_error_iff {ε α β : Type} {x : Except ε α} {f : α → Except ε β} {e : ε} :
    x >>= f = .error e ↔ x = .error e ∨ ∃ a, x = .ok a ∧ f a = .error e := by
  cases x <;> simp [bind, Except.bind]

theorem map_eq_ok_iff {ε α β : Type} {x : Except ε α} {f : α → β} {b : β} :
    x.map f = .ok b ↔ ∃ a, x = .ok a ∧ f a = b := by
  cases x <;> simp [Except.map]

theorem map_eq_error_iff {ε α β : Type} {x : Except ε α} {f : α → β} {e : ε} :
    x.map f = .error e ↔ x = .error e := by
  cases x <;> simp [Except.map]

/-- Why a text is no URL. -/
inductive UrlFault where
  | emptyHost
  | invalidDomainName
  | invalidPort
  | invalidIpv4
  | invalidIpv6
  | invalidDomainCharacter
  | relativeWithoutBase
  deriving DecidableEq, Repr, Inhabited

namespace UrlFault

def message : UrlFault → String
  | emptyHost => "empty host"
  | invalidDomainName => "invalid international domain name"
  | invalidPort => "invalid port number"
  | invalidIpv4 => "invalid IPv4 address"
  | invalidIpv6 => "invalid IPv6 address"
  | invalidDomainCharacter => "invalid domain character"
  | relativeWithoutBase => "relative URL without a base"

end UrlFault

/-- At which point an exchange over the network broke. -/
inductive TransportFault where
  /-- The request could not be put together, so nothing was sent. -/
  | builder
  /-- No connection was made. -/
  | connect
  /-- The answer's body broke off or is not what was asked for. -/
  | body
  /-- The connection ended without an answer. -/
  | exchange
  deriving DecidableEq, Repr, Inhabited

inductive LoadError where
  | config (message : String)
  | missingProperty (property : String)
  | invalidValue (property message : String)
  | yaml
  | json
  | schema (message : String)
  | unknownType (field typeName : String)
  | invalidMode (field mode : String)
  | auth (message : String)
  | credentials (message : String)
  | assertion (message : String)
  | transport (fault : TransportFault)
  | httpStatus (status : Nat) (body : String)
  | rateLimited (seconds : Nat)
  | timeout (milliseconds : Nat)
  | invalidUrl (fault : UrlFault)
  | upload (message : String)
  | jobTimeout (jobId : String) (seconds : Nat)
  | warehouse (message : String)
  | template (message : String)
  | undefinedVariable (name : String)
  | io
  | fileNotFound (path : String)
  /-- A time that no date can have. -/
  | dateRange
  /-- A number that its type cannot hold. -/
  | overflow
  | other (message : String)
  deriving DecidableEq, Repr, Inhabited

/-- The statuses that a server gives for a passing trouble of its own. -/
def isTransientStatus (status : Nat) : Bool :=
  status == 429 || status == 500 || status == 502 || status == 503 || status == 504

namespace LoadError

def message : LoadError → String
  | config m => s!"Configuration error: {m}"
  | missingProperty p => s!"Missing required property: {p}"
  | invalidValue p m => s!"Invalid value for '{p}': {m}"
  | yaml => "Failed to parse YAML"
  | json => "Failed to parse JSON"
  | schema m => s!"Invalid table schema: {m}"
  | unknownType field typeName => s!"Unknown type '{typeName}' for field '{field}'"
  | invalidMode field mode => s!"Invalid mode '{mode}' for field '{field}'"
  | auth m => s!"Authentication failed: {m}"
  | credentials m => s!"Invalid credentials: {m}"
  | assertion m => s!"JWT generation failed: {m}"
  | transport _ => "HTTP request failed"
  | httpStatus status body => s!"HTTP {status}: {body}"
  | rateLimited seconds => s!"Rate limited, retry after {seconds}s"
  | timeout milliseconds => s!"Request timeout after {milliseconds}ms"
  | invalidUrl fault => s!"Invalid URL: {fault.message}"
  | upload m => s!"Upload failed: {m}"
  | jobTimeout jobId seconds => s!"Job '{jobId}' did not finish within {seconds}s"
  | warehouse m => s!"Warehouse error: {m}"
  | template m => s!"Template error: {m}"
  | undefinedVariable name => s!"Undefined variable in template: {name}"
  | io => "IO error"
  | fileNotFound path => s!"File not found: {path}"
  | dateRange => "date out of range"
  | overflow => "arithmetic overflow"
  | other m => m

/-- Whether the same call may succeed when made again. Every transport fault
counts, even one that repeats for certain: the transport is not asked which of
its faults it holds for lasting. -/
def isRetryable : LoadError → Bool
  | transport _ => true
  | rateLimited _ => true
  | timeout _ => true
  | httpStatus status _ => isTransientStatus status
  | _ => false

/-- Whether the program breaks off where this happens, and nobody gets to see
the error. -/
def breaksOff : LoadError → Bool
  | dateRange | overflow => true
  | _ => false

/-- Says what was being done when the error arose. The cause survives as text
only. -/
def inContext (e : LoadError) (doing : String) : LoadError :=
  other s!"{doing}: {e.message}"

end LoadError

/-- A number for which a type with `size` numbers has to have room. -/
def fitting (size n : Nat) : Except LoadError Nat :=
  if n < size then .ok n else .error .overflow

theorem fitting_eq_ok_iff {size n m : Nat} :
    fitting size n = .ok m ↔ n < size ∧ n = m := by
  rw [fitting]
  split <;> simp [*]

theorem fitting_eq_error_iff {size n : Nat} {e : LoadError} :
    fitting size n = .error e ↔ size ≤ n ∧ .overflow = e := by
  rw [fitting, ← Nat.not_lt]
  split <;> simp [*]

end WarehouseLoader
