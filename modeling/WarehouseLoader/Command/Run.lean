import WarehouseLoader.Command.Message
import WarehouseLoader.Command.Path
import WarehouseLoader.Config.Basic
import WarehouseLoader.Loader.Processor

/-!
# Running the commands

A command answers with an error or without one, and prints messages on the way.
Three of the four do nothing else: they depend on the machine's files alone.
Loading also uses the network.

A load command first reads its configuration, gets ready, and reads all its
files, each into one unit. Only when all of that went well is the first unit
triggered, and units are triggered until none waits. Each trigger that is not
idle takes a unit away, so that comes to an end.
-/

namespace WarehouseLoader.Command

open Auth Config Http Loader

/-- How a command ended, and what it printed. -/
structure Report where
  outcome : Except LoadError Unit
  messages : List Json

/-- The report of a command that printed messages before a last step. -/
def Report.after (messages : List Json) (outcome : Except LoadError (List Json)) :
    Report :=
  match outcome with
  | .ok more => ⟨.ok (), messages ++ more⟩
  | .error e => ⟨.error e, messages⟩

/-! ### Without the network -/

/-- The content of a file that has to be there. -/
def readFile (m : Machine) (path : String) : Except LoadError Bytes :=
  match m.file path with
  | .missing => .error (.fileNotFound path)
  | .unreadable => .error .io
  | .content bytes => .ok bytes

/-- The text of a schema, given directly or by a file. -/
def schemaSource (m : Machine) (inlineText file : Option String) :
    Except LoadError String :=
  match inlineText, file with
  | some text, _ => .ok text
  | none, some path =>
    (readFile m path).bind fun bytes =>
      match Text.ofUtf8? bytes with
      | some text => .ok text
      | none => .error (.schema s!"{path} is not UTF-8")
  | none, none => .error (.config "Schema not specified (use --schema or --file)")

def runSchema (m : Machine) (inlineText file : Option String) : Report :=
  .after [] do
    let text ← schemaSource m inlineText file
    let schema ← TableSchema.ofText text
    return [schemaMessage schema]

/-- What a check of a context says after its results. -/
def schemaVerdict (c : ProcessContext) : Except LoadError (List Json) := do
  ensureValid (c.validate properties)
  let schema ← TableSchema.configured (Processor.schemaText c)
  return [logMessage "INFO" (validText schema)]

def runValidate (m : Machine) (config : String) : Report :=
  match (LoaderConfig.ofFile m config).bind LoaderConfig.context with
  | .error e => ⟨.error e, []⟩
  | .ok c => .after [validationMessage (c.validate properties)] (schemaVerdict c)

/-! ### Loading -/

/-- The attributes of a unit that comes from a file, under those that were
given. -/
def fileAttributes (path : String) (content : Bytes) (given : List (String × String)) :
    Attributes :=
  let parent :=
    match Path.parent? path with
    | some p => [("path", p)]
    | none => []
  NameMap.ofList ([("filename", (Path.fileName? path).getD "")] ++ parent ++
    [("file.size", toString content.length)] ++ given)

/-- Queues a unit for each file, and keeps the names of the files under the ids
of their units. -/
def enqueueFiles (m : Machine) (given : List (String × String)) :
    Session → List (Nat × String) → List String →
      Except LoadError (Session × List (Nat × String))
  | session, sources, [] => .ok (session, sources)
  | session, sources, path :: rest => do
    let content ← readFile m path
    let (id, session) ← session.enqueue content (fileAttributes path content given)
    enqueueFiles m given session (sources ++ [(id, (Path.fileName? path).getD "")]) rest

/-- How many units went which way. -/
structure Tally where
  loaded : Nat
  failed : Nat
  deriving DecidableEq, Repr

variable {σ ω : Type}

set_option linter.unusedVariables false in
/-- Triggers until no unit waits, or until a trigger finds fault with the
configuration. -/
def drain (W : WarehouseOps σ ω) (c : ProcessContext) (t : Tally)
    (s : Processor.State σ) : Except LoadError Tally × Processor.State σ :=
  match step : Processor.onTrigger W c s with
  | (.error e, s') => (.error e, s')
  | (.ok .idle, s') => (.ok t, s')
  | (.ok .success, s') => drain W c { t with loaded := t.loaded + 1 } s'
  | (.ok .failure, s') => drain W c { t with failed := t.failed + 1 } s'
termination_by s.session.queue.length
decreasing_by
  all_goals
    have := Processor.queue_length_onTrigger step (by simp)
    omega

/-- Everything a load command needs before the first trigger. -/
structure Prepared where
  context : ProcessContext
  client : Warehouse.Client
  processor : Processor
  session : Session
  sources : List (Nat × String)

/-- Gets a load command ready. Nothing is sent for this. -/
def prepare (m : Machine) (config : String) (given : List (String × String))
    (files : List String) : Except LoadError Prepared := do
  let loader ← LoaderConfig.ofFile m config
  let context ← loader.context
  let client ← loader.client m
  let (scheduled, processor) := Processor.new.onScheduled context
  scheduled
  let (session, sources) ← enqueueFiles m given .empty [] files
  return ⟨context, client, processor, session, sources⟩

/-- What a load command says when all units were routed. -/
def loadReport (sources : List (Nat × String)) (files milliseconds : Nat) (t : Tally)
    (routed : List (Relationship × FlowUnit)) : Report where
  outcome :=
    if t.failed = 0 then .ok ()
    else .error (.warehouse s!"{t.failed} of {files} units routed to failure")
  messages :=
    (routed.map fun r => unitMessage (sources.lookup r.2.id) r) ++
      [logMessage (if t.failed = 0 then "INFO" else "ERROR")
        (loadedText t.loaded files milliseconds)]

def runLoad (m : Machine) (T : Transport σ) (config : String)
    (given : List (String × String)) (files : List String) (w : σ) : Report × σ :=
  match prepare m config given files with
  | .error e => (⟨.error e, []⟩, w)
  | .ok p =>
    let W := WarehouseOps.ofClient p.client T
    match drain W p.context ⟨0, 0⟩ ⟨p.processor, p.session, ⟨w, none⟩⟩ with
    | (.error e, s) => (⟨.error e, []⟩, s.world.world)
    | (.ok t, s) =>
      let elapsed := (T.now s.world.world - T.now w).toNat
      (loadReport p.sources files.length elapsed t s.session.transferred, s.world.world)

/-- Runs a command. -/
def run (m : Machine) (T : Transport σ) (action : Action) (w : σ) : Report × σ :=
  match action with
  | .properties => (⟨.ok (), [propertiesMessage]⟩, w)
  | .schema inlineText file => (runSchema m inlineText file, w)
  | .validate config => (runValidate m config, w)
  | .load config given files => runLoad m T config given files w

end WarehouseLoader.Command
