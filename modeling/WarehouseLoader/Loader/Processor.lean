import WarehouseLoader.Flow.Session
import WarehouseLoader.Loader.Report
import WarehouseLoader.Loader.Warehouse
import WarehouseLoader.Schema.Translate

/-!
# The processor

The processor loads one unit per trigger. It reads the configured schema once
and keeps it until it is stopped; reading it may fail and is then tried again
the next time it is needed.

A trigger takes the front unit of the queue. If the schema cannot be read the
unit is handed back and the trigger fails, since that is no fault of the unit.
Whatever else goes wrong is the unit's outcome: it is penalized and routed to
failure. A job that ends badly is routed to failure too, with its error.
-/

namespace WarehouseLoader.Loader

/-- What the processor keeps between triggers. -/
structure Processor where
  /-- Nothing until a schema was read; then the schema, if one is configured. -/
  schema : Option (Option TableSchema)
  /-- How often reading one was tried. -/
  schemaParses : Nat

inductive Outcome where
  | idle
  | success
  | failure
  deriving DecidableEq, Repr, Inhabited

/-- What was being done for a unit when it failed. -/
inductive Stage where
  | resolve
  | upload
  | await
  deriving DecidableEq, Repr

def Stage.text : Stage → String
  | resolve => "resolve properties for"
  | upload => "upload"
  | await => "await load job for"

namespace Processor

variable {σ ω : Type}

def new : Processor := ⟨none, 0⟩

/-- The configured text of the schema. -/
def schemaText (c : ProcessContext) : Option String := (c.property tableSchema).raw

/-- The schema to load with, read if it is not kept. -/
def readSchema (p : Processor) (c : ProcessContext) :
    Except LoadError (Option TableSchema) × Processor :=
  match p.schema with
  | some schema => (.ok schema, p)
  | none =>
    match TableSchema.configured (schemaText c) with
    | .ok schema => (.ok schema, ⟨some schema, p.schemaParses + 1⟩)
    | .error e => (.error e, { p with schemaParses := p.schemaParses + 1 })

/-- Gets ready to run with a configuration. -/
def onScheduled (p : Processor) (c : ProcessContext) :
    Except LoadError Unit × Processor :=
  match p.readSchema c with
  | (.error e, p) => (.error e, p)
  | (.ok _, p) => (ensureValid (c.validate properties), p)

def onStopped (p : Processor) : Processor := { p with schema := none }

/-- Uploads a payload and gives the job that it made. -/
def submit (W : WarehouseOps σ ω) (config : LoadConfiguration) (content : Bytes)
    (w : σ) : Except LoadError Job × σ :=
  match W.openChannel config w with
  | (.error e, w) => (.error e, w)
  | (.ok channel, w) =>
    match W.write channel content w with
    | (.error e, _, w) => (.error e, w)
    | (.ok _, channel, w) => W.close channel w

/-- Waits for a job as long as the settings allow. -/
def awaitJob (W : WarehouseOps σ ω) (job : Job) (seconds : Nat) (w : σ) :
    Except LoadError Job × σ :=
  match W.wait job seconds w with
  | (some outcome, w) => (outcome, w)
  | (none, w) => (.error (.jobTimeout job.id seconds), w)

/-- Uploads a unit and waits for its job; an error comes with what was being
done. -/
def load (W : WarehouseOps σ ω) (settings : LoadSettings) (schema : Option TableSchema)
    (u : FlowUnit) (w : σ) : Except (Stage × LoadError) Job × σ :=
  match submit W (settings.configuration schema) u.content w with
  | (.error e, w) => (.error (.upload, e), w)
  | (.ok job, w) =>
    match awaitJob W job settings.timeout w with
    | (.error e, w) => (.error (.await, e), w)
    | (.ok job, w) => (.ok job, w)

def stageNotice (stage : Stage) (u : FlowUnit) (e : LoadError) : String :=
  s!"Failed to {stage.text} unit {u.id}: {e.message}"

/-- Penalizes a unit and routes it to failure. -/
def routeFailure (W : WarehouseOps σ ω) (stage : Stage) (e : LoadError) (u : FlowUnit)
    (session : Session) (w : σ) : Outcome × Session × σ :=
  (.failure, session.transfer u.penalize .failure,
    W.log .error (stageNotice stage u e) w)

def outcomeOf : Relationship → Outcome
  | .success => .success
  | .failure => .failure

/-- Routes a unit by its job. -/
def routeReported (W : WarehouseOps σ ω) (settings : LoadSettings) (job : Job)
    (u : FlowUnit) (session : Session) (w : σ) : Outcome × Session × σ :=
  let (route, reported) := report settings job u
  let w :=
    match job.error? with
    | some e => W.log .warn (failureNotice settings job e) w
    | none => w
  (outcomeOf route, session.transfer reported route, w)

/-- Loads a unit that was taken from the session and routes it. -/
def process (W : WarehouseOps σ ω) (c : ProcessContext) (schema : Option TableSchema)
    (u : FlowUnit) (session : Session) (w : σ) : Outcome × Session × σ :=
  match LoadSettings.resolve c u.attributes with
  | .error e => routeFailure W .resolve e u session w
  | .ok settings =>
    match load W settings schema u w with
    | (.error (stage, e), w) => routeFailure W stage e u session w
    | (.ok job, w) => routeReported W settings job u session w

/-- Everything a trigger may change. -/
structure State (σ : Type) where
  processor : Processor
  session : Session
  world : σ

/-- Processes at most one unit. An error means that the configuration, not the
unit, is at fault. -/
def onTrigger (W : WarehouseOps σ ω) (c : ProcessContext) (s : State σ) :
    Except LoadError Outcome × State σ :=
  match s.session.take? with
  | none => (.ok .idle, s)
  | some (u, session) =>
    match s.processor.readSchema c with
    | (.error e, p) => (.error e, ⟨p, session.rollback u, s.world⟩)
    | (.ok schema, p) =>
      let (outcome, session, w) := process W c schema u session s.world
      (.ok outcome, ⟨p, session, w⟩)

/-- Loading a unit does nothing to those that wait. -/
theorem queue_process (W : WarehouseOps σ ω) (c : ProcessContext)
    (schema : Option TableSchema) (u : FlowUnit) (session : Session) (w : σ) :
    (process W c schema u session w).2.1.queue = session.queue := by
  unfold process
  split
  · rfl
  · split <;> rfl

/-- A trigger that was not idle leaves one unit less. -/
theorem queue_length_onTrigger {W : WarehouseOps σ ω} {c : ProcessContext}
    {s s' : State σ} {o : Outcome} (h : onTrigger W c s = (.ok o, s'))
    (busy : o ≠ .idle) : s'.session.queue.length + 1 = s.session.queue.length := by
  unfold onTrigger Session.take? at h
  match eq : s.session.queue with
  | [] =>
    simp only [eq, Prod.mk.injEq, Except.ok.injEq] at h
    exact absurd h.1.symm busy
  | u :: rest =>
    simp only [eq] at h
    split at h
    · cases h
    · cases h
      simp [queue_process]

end Processor

end WarehouseLoader.Loader
