import WarehouseLoader.Http.Transport

/-!
# Deadlines

Somebody may wait for the outcome of several exchanges only until a certain
time. From then on nothing more is sent, waited for or logged, and what an
exchange still under way would have brought is lost. An outcome that is there at
that very time counts.
-/

namespace WarehouseLoader.Http.Transport

variable {σ : Type}

/-- The world, and whether the deadline has passed in it. -/
abbrev Limited (σ : Type) := σ × Bool

def exchangeBefore (T : Transport σ) (deadline : Int) (r : WireRequest)
    (timeout : Option Nat) :
    Limited σ → Exchange × Limited σ
  | (w, true) => (.broken, (w, true))
  | (w, false) =>
    let remaining := (deadline - T.now w).toNat
    let cutShort := timeout.all (remaining < ·)
    match T.exchange r
        (some (if cutShort then remaining else timeout.getD remaining)) w with
    | (.timedOut, w) => (.timedOut, (w, cutShort))
    | (outcome, w) => (outcome, (w, deadline < T.now w))

def pauseBefore (T : Transport σ) (deadline : Int) (milliseconds : Nat) :
    Limited σ → Limited σ
  | (w, true) => (w, true)
  | (w, false) =>
    let remaining := (deadline - T.now w).toNat
    if remaining < milliseconds then (T.pause remaining w, true)
    else (T.pause milliseconds w, false)

/-- The transport as it is until the deadline. -/
def before (T : Transport σ) (deadline : Int) : Transport (Limited σ) where
  exchange r timeout w := T.exchangeBefore deadline r timeout w
  pause milliseconds w := T.pauseBefore deadline milliseconds w
  now w := T.now w.1
  log level text w := if w.2 then w else (T.log level text w.1, w.2)
  newJobId w := ((T.newJobId w.1).1, ((T.newJobId w.1).2, w.2))
  sign := T.sign
  halt w := (T.halt w.1, w.2)
  isOver w := w.2 || T.isOver w.1

end WarehouseLoader.Http.Transport
