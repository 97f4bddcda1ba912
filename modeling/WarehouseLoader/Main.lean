import WarehouseLoader.Command.Run

/-!
# The command line

Reads the files that a command line names, runs the command over them, and
prints what it reports: messages to standard output, the log and the error to
standard error. A program that broke off reports nothing. There is no network
here: every connection is refused, so a load ends with its units routed to
failure.
-/

namespace WarehouseLoader.Main

open Command Config Http

/-- What the program says of itself. -/
def versionText : String := "bq-batch-load 0.1.0"

def usageText : String :=
  "Usage: bq-batch-load [--format json|pretty] [--verbose] " ++
    "<properties|schema|validate|load> [options]"

/-- The log, the last line first, and the clock. -/
structure World where
  log : List String
  clock : Int

def levelText : LogLevel → String
  | .warn => "WARN"
  | .error => "ERROR"

/-- A network on which nothing can be reached. -/
def unconnected : Transport World where
  exchange _ _ w := (.refused, w)
  pause milliseconds w := { w with clock := w.clock + milliseconds }
  now w := w.clock
  log level text w :=
    let line := levelText level ++ " " ++ text
    { w with log := line :: w.log }
  newJobId w := ("bq_batch_load_0_0_0", w)
  sign _ _ := []
  halt w := w
  isOver _ := false

/-- The files that a command names. -/
def namedFiles : Action → List String
  | .properties => []
  | .schema _ file => file.toList
  | .validate config => [config]
  | .load config _ files => config :: files

/-- The key files that a configuration names. -/
def keyFiles (m : Machine) : Action → List String
  | .load config _ _ =>
    match LoaderConfig.ofFile m config with
    | .ok c =>
      match c.credentials with
      | .serviceAccount (some path) _ _ => [path]
      | _ => []
    | .error _ => []
  | _ => []

def readState (path : String) : IO FileState := do
  try
    return .content (← IO.FS.readBinFile path).toList
  catch e =>
    match e with
    | .noFileOrDirectory .. => return .missing
    | _ => return .unreadable

/-- The machine as far as some of its files go. -/
def machineOf (credentialsPath : Option String) (paths : List String) : IO Machine := do
  let states ← paths.mapM fun path => do return (path, ← readState path)
  return ⟨fun path => (states.lookup path).getD .missing, credentialsPath⟩

/-- Prints the log and what is reported, unless the program broke off before. -/
def report (invocation : Invocation) (r : Command.Report) (log : List String)
    (broken : Bool) : IO UInt32 := do
  for line in log.reverse do
    IO.eprintln line
  if broken then return 101
  for message in r.messages do
    IO.println (messageText invocation.format message)
  match r.outcome with
  | .ok () => return 0
  | .error e =>
    if e.breaksOff then return 101
    IO.eprintln ("Error: " ++ e.message)
    return 1

def runInvocation (invocation : Invocation) : IO UInt32 := do
  let credentialsPath ← IO.getEnv "GOOGLE_APPLICATION_CREDENTIALS"
  let named := namedFiles invocation.action
  let m ← machineOf credentialsPath named
  let m ← machineOf credentialsPath
    (named ++ keyFiles m invocation.action ++ credentialsPath.toList)
  let (r, w) :=
    run m unconnected.haltable invocation.action (⟨[], ← IO.monoMsNow⟩, false)
  report invocation r w.1.log w.2

end WarehouseLoader.Main

open WarehouseLoader Command in
def main (args : List String) : IO UInt32 := do
  match parseArguments args with
  | .ok invocation => Main.runInvocation invocation
  | .error .help =>
    IO.println Main.usageText
    return 0
  | .error .version =>
    IO.println Main.versionText
    return 0
  | .error .usage =>
    IO.eprintln Main.usageText
    return 2
