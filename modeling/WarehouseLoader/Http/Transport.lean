import WarehouseLoader.Auth.SigningKey
import WarehouseLoader.Http.Request
import WarehouseLoader.Json.Decode
import WarehouseLoader.Number.Numeral
import WarehouseLoader.Text.Blank

/-!
# Transport

All that a load does to the world outside goes through one record of operations
on a state: exchanging a request for an answer, waiting, reading the clock,
writing the log, making up an id for a job, and signing. The state stands for
the world. A load is a function of it, so whatever a server may do is a choice
of the record, and laws about loads hold for every choice.

An exchange ends in an answer, in no answer within the time, in no connection,
or in a connection that broke. The body of an answer may break off too, which
shows only where the body is asked for.

A number that does not fit its type breaks the program off. That is one more
thing that is done to the world. A load is written as if it went on behind it,
so a world in which programs run has to remember: nothing happens any more in
one that broke off.
-/

namespace WarehouseLoader.Http

inductive LogLevel where
  | warn
  | error
  deriving DecidableEq, Repr

structure Response where
  status : Nat
  /-- Names in lower case. -/
  headers : List (String × String)
  /-- Nothing if the body breaks off. -/
  body : Option Bytes

namespace Response

def isVisible (c : Char) : Bool := c == '\t' || (0x20 ≤ c.toNat && c.toNat < 0x7F)

/-- The first value of a header, if it is plain text. -/
def header? (r : Response) (name : String) : Option String :=
  (r.headers.lookup name).filter (·.toList.all isVisible)

/-- The body as text; one that broke off counts as empty. -/
def text (r : Response) : String :=
  match r.body with
  | some bytes => Text.ofUtf8Lossy bytes
  | none => ""

def isSuccess (r : Response) : Bool := 200 ≤ r.status && r.status < 300

/-- Whether the status says that the request failed. -/
def isFailure (r : Response) : Bool := 400 ≤ r.status && r.status < 600

/-- The body under a typed reading. -/
def read {α : Type} (r : Response) (reading : Json.Reading α) : Except LoadError α :=
  match (r.body.bind Text.ofUtf8?).bind reading.ofText? with
  | some a => .ok a
  | none => .error (.transport .body)

/-- The body as any JSON value. -/
def json (r : Response) : Except LoadError Json :=
  match (r.body.bind Text.ofUtf8?).bind Json.ofText? with
  | some v => .ok v
  | none => .error (.transport .body)

/-- How long to wait when the header does not say. -/
def defaultRetryAfter : Nat := 30

/-- For how many seconds the server asks to be left alone. -/
def retryAfter (r : Response) : Nat :=
  ((r.header? "retry-after").bind fun s =>
    Numeral.readBelow Numeral.bound64 (Text.trimBlanks s.toList)).getD defaultRetryAfter

end Response

inductive Exchange where
  | answered (r : Response)
  | timedOut
  | refused
  | broken

structure Transport (σ : Type) where
  /-- The number is for how many milliseconds to wait for the answer. -/
  exchange : WireRequest → Option Nat → σ → Exchange × σ
  /-- Waits for so many milliseconds. -/
  pause : Nat → σ → σ
  /-- The clock, in milliseconds. -/
  now : σ → Int
  log : LogLevel → String → σ → σ
  newJobId : σ → String × σ
  sign : Auth.SigningKey → Bytes → Bytes
  /-- Breaks the program off. -/
  halt : σ → σ
  /-- Whether the time for which somebody waits for the outcome is over. -/
  isOver : σ → Bool

namespace Transport

variable {σ : Type}

/-- Writes a warning, or breaks off over a number in it. -/
def warn (T : Transport σ) (notice : Except LoadError String) (w : σ) : σ :=
  match notice with
  | .ok text => T.log .warn text w
  | .error _ => T.halt w

/-- The world in which an error came up, unless the program breaks off over
it. -/
def settle (T : Transport σ) (e : LoadError) (w : σ) : σ :=
  if e.breaksOff then T.halt w else w

/-- The transport with the memory that programs need: whether the program
broke off. Then nothing is exchanged or done any more, and nobody waits for
anything. -/
def haltable (T : Transport σ) : Transport (σ × Bool) where
  exchange r timeout w :=
    if w.2 then (.broken, w) else
    let (outcome, after) := T.exchange r timeout w.1
    (outcome, (after, false))
  pause milliseconds w := if w.2 then w else (T.pause milliseconds w.1, false)
  now w := T.now w.1
  log level text w := if w.2 then w else (T.log level text w.1, false)
  newJobId w :=
    if w.2 then ("", w) else ((T.newJobId w.1).1, ((T.newJobId w.1).2, false))
  sign := T.sign
  halt w := (w.1, true)
  isOver w := w.2 || T.isOver w.1

end Transport

end WarehouseLoader.Http
