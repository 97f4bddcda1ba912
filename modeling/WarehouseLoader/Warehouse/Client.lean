import WarehouseLoader.Http.Deadline
import WarehouseLoader.Upload.Channel

/-!
# The warehouse over the network

A load starts by a request that describes the job and is answered by the address
of an upload session. The payload goes there through a channel, and closing the
channel gives the job. A job that is not done yet is asked for again and again,
with growing waits, until it is.

Polling passes over whatever may pass: a job in any other state, and an error
that may not come again. The count of polls has 32 bits, so the loop is bounded
by that many; nothing that waits for a job waits as long.
-/

namespace WarehouseLoader.Warehouse

open Auth Http Upload

/-- Sizes of chunks are multiples of this. -/
def alignment : Nat := 262144

/-- The least multiple of the alignment, other than none of it, that is not
smaller than `requested`. Sizes have 64 bits, and there may be no such multiple
among them. -/
def alignedChunkSize (requested : Nat) : Except LoadError Nat :=
  fitting UInt64.size (max ((requested + (alignment - 1)) / alignment) 1 * alignment)

structure ClientConfig where
  chunkSize : Nat
  /-- Milliseconds, like the longest delay. -/
  pollInitial : Nat
  pollMax : Nat
  deriving DecidableEq, Repr

def ClientConfig.standard : ClientConfig := ⟨8 * 1024 * 1024, 500, 10000⟩

structure Client where
  http : HttpClient
  config : ClientConfig

namespace Client

variable {σ : Type}

/-- A client with the settings, but for the size of chunks, which is aligned. -/
def create (http : HttpClient) (config : ClientConfig) : Except LoadError Client :=
  (alignedChunkSize config.chunkSize).map fun size =>
    ⟨http, { config with chunkSize := size }⟩

def uploadPath (project : String) : String :=
  s!"/upload/bigquery/v2/projects/{project}/jobs"

def jobPath (project jobId : String) : String :=
  s!"/bigquery/v2/projects/{project}/jobs/{jobId}"

def startRequest (config : LoadConfiguration) (jobId : String) : Request :=
  ((Request.new "POST" (uploadPath config.table.project)).withQuery
    "uploadType" "resumable").withJson (config.toJson jobId)

def jobRequest (project jobId : String) (location : Option String) : Request :=
  let r := Request.new "GET" (jobPath project jobId)
  match location with
  | some l => r.withQuery "location" l
  | none => r

/-- Starts a load and gives the address of its upload session. -/
def startUpload (c : Client) (T : Transport σ) (config : LoadConfiguration)
    (s : Connection σ) : Except LoadError String × Connection σ :=
  let (jobId, w) := T.newJobId s.world
  match c.http.request T (startRequest config jobId) { s with world := w } with
  | (.error e, s) => (.error e, s)
  | (.ok response, s) =>
    match response.header? "location" with
    | some url => (.ok url, s)
    | none => (.error (.upload "upload start response carried no Location header"), s)

def openChannel (c : Client) (T : Transport σ) (config : LoadConfiguration)
    (s : Connection σ) : Except LoadError Channel × Connection σ :=
  match c.startUpload T config s with
  | (.ok url, s) => (.ok (.new url c.config.chunkSize), s)
  | (.error e, s) => (.error e, s)

/-- The job as it is now. -/
def getJob (c : Client) (T : Transport σ) (project jobId : String)
    (location : Option String) (s : Connection σ) : Except LoadError Job × Connection σ :=
  c.http.requestRead T Job.read (jobRequest project jobId location) s

def pollDelay (c : Client) (attempt : Nat) : Nat :=
  backoffDelay .exponential attempt c.config.pollInitial c.config.pollMax

/-- Polls until a poll decides. Nothing if `left` polls do not, or if the time
is over. -/
def pollFrom (c : Client) (T : Transport σ) (r : JobReference) (done : Nat) (left : Nat)
    (s : Connection σ) : Option (Except LoadError Job) × Connection σ :=
  match left with
  | 0 => (none, s)
  | left + 1 =>
    let s := s.mapWorld (T.pause (c.pollDelay done))
    if T.isOver s.world then (none, s) else
    match c.getJob T r.project r.jobId r.location s with
    | (.ok job, s) =>
      if T.isOver s.world then (none, s)
      else if job.isDone then (some (.ok job), s)
      else pollFrom c T r (done + 1) left s
    | (.error e, s) =>
      if T.isOver s.world then (none, s)
      else if e.isRetryable then
        pollFrom c T r (done + 1) left
          (s.mapWorld
            (T.log .warn s!"Polling job {r.jobId} failed, will retry: {e.message}"))
      else
        (some (.error e), s)

/-- Waits for a job to be done. -/
def waitFor (c : Client) (T : Transport σ) (job : Job) (s : Connection σ) :
    Option (Except LoadError Job) × Connection σ :=
  if job.isDone then (some (.ok job), s)
  else if job.id.isEmpty then (some (.error (.warehouse "job has no id to poll")), s)
  else pollFrom c T job.reference 0 UInt32.size s

/-- Waits for a job for so many seconds. -/
def waitWithin (c : Client) (T : Transport σ) (job : Job) (seconds : Nat)
    (s : Connection σ) : Option (Except LoadError Job) × Connection σ :=
  let deadline := T.now s.world + seconds * 1000
  match c.waitFor (T.before deadline) job ⟨(s.world, false), s.token⟩ with
  | (outcome, s) => (outcome, ⟨s.world.1, s.token⟩)

end Client

end WarehouseLoader.Warehouse
