import WarehouseLoader.Json.Decode
import WarehouseLoader.LoadJob.Configuration
import WarehouseLoader.Number.Signed

/-!
# Jobs

The part of a job, as the warehouse answers it, that a load goes by. Every part
of it may be missing. A job is done when its state says exactly so; whether it
went well is told by its error result alone.

Times are whole milliseconds, written as numbers or as texts of numbers.
-/

namespace WarehouseLoader

open Json (Reading)

structure JobError where
  message : String
  reason : String
  location : Option String
  deriving DecidableEq, Repr, Inhabited

structure JobStatus where
  state : String
  errorResult : Option JobError
  deriving DecidableEq, Repr, Inhabited

structure JobStatistics where
  creationTime : Option Int
  startTime : Option Int
  endTime : Option Int
  deriving DecidableEq, Repr, Inhabited

structure Job where
  reference : JobReference
  selfLink : Option String
  status : JobStatus
  statistics : JobStatistics
  deriving DecidableEq, Repr, Inhabited

namespace JobReference

def empty : JobReference := ⟨"", "", none⟩

def read : Reading JobReference :=
  Reading.record ["projectId", "jobId", "location"] fun depth members => do
    let project ← Reading.defaulted "" Reading.text depth members "projectId"
    let jobId ← Reading.defaulted "" Reading.text depth members "jobId"
    let location ←
      Reading.defaulted none (Reading.orNull Reading.text) depth members "location"
    return ⟨project, jobId, location⟩

end JobReference

namespace JobError

def read : Reading JobError :=
  Reading.record ["message", "reason", "location"] fun depth members => do
    let message ← Reading.defaulted "" Reading.text depth members "message"
    let reason ← Reading.defaulted "" Reading.text depth members "reason"
    let location ←
      Reading.defaulted none (Reading.orNull Reading.text) depth members "location"
    return ⟨message, reason, location⟩

end JobError

namespace JobStatus

def empty : JobStatus := ⟨"", none⟩

def read : Reading JobStatus :=
  Reading.record ["state", "errorResult"] fun depth members => do
    let state ← Reading.defaulted "" Reading.text depth members "state"
    let errorResult ←
      Reading.defaulted none (Reading.orNull JobError.read) depth members "errorResult"
    return ⟨state, errorResult⟩

end JobStatus

namespace JobStatistics

def empty : JobStatistics := ⟨none, none, none⟩

/-- A time in milliseconds, as a number or as the text of one. -/
def readMillis : Reading (Option Int)
  | _, .null => some none
  | _, .text (some s) => (Numeral.readSigned64 s.toList).map some
  | depth, d => (Reading.integer depth d).map some

def read : Reading JobStatistics :=
  Reading.record ["creationTime", "startTime", "endTime"] fun depth members => do
    let creationTime ← Reading.defaulted none readMillis depth members "creationTime"
    let startTime ← Reading.defaulted none readMillis depth members "startTime"
    let endTime ← Reading.defaulted none readMillis depth members "endTime"
    return ⟨creationTime, startTime, endTime⟩

end JobStatistics

namespace Job

def empty : Job := ⟨.empty, none, .empty, .empty⟩

def read : Reading Job :=
  Reading.record ["jobReference", "selfLink", "status",
      "statistics"] fun depth members => do
    let reference ←
      Reading.defaulted .empty JobReference.read depth members "jobReference"
    let selfLink ←
      Reading.defaulted none (Reading.orNull Reading.text) depth members "selfLink"
    let status ← Reading.defaulted .empty JobStatus.read depth members "status"
    let statistics ←
      Reading.defaulted .empty JobStatistics.read depth members "statistics"
    return ⟨reference, selfLink, status, statistics⟩

def ofText? (s : String) : Option Job := read.ofText? s

def id (j : Job) : String := j.reference.jobId

def isDone (j : Job) : Bool := j.status.state == "DONE"

def error? (j : Job) : Option JobError := j.status.errorResult

end Job

end WarehouseLoader
