import WarehouseLoader.LoadJob.Job
import WarehouseLoader.Loader.Settings

/-!
# Reporting a job on its unit

A finished job is told in the attributes of the unit that it loaded. Both ways,
the settings are written and what an earlier failure left behind is taken away.
A job that went well adds its times and its address, as far as it has them; one
that did not adds its error, and the unit is to wait before it is tried again.

What an earlier success left behind is not taken away.
-/

namespace WarehouseLoader.Loader

/-- An attribute for a value that may be missing. -/
def optional (name : String) (value : Option String) : List (String × String) :=
  match value with
  | some v => [(name, v)]
  | none => []

/-- The attributes of a job that went well. -/
def successAttributes (job : Job) : List (String × String) :=
  optional Attribute.jobCreationTime (job.statistics.creationTime.map toString) ++
    optional Attribute.jobStartTime (job.statistics.startTime.map toString) ++
    optional Attribute.jobEndTime (job.statistics.endTime.map toString) ++
    optional Attribute.jobLink job.selfLink

def errorAttributes (e : JobError) : List (String × String) :=
  [(Attribute.errorMessage, e.message), (Attribute.errorReason, e.reason)] ++
    optional Attribute.errorLocation e.location

/-- The unit without what an earlier failure left behind. -/
def withoutErrors (u : FlowUnit) : FlowUnit :=
  Attribute.ofErrors.foldl FlowUnit.removeAttribute u

/-- Where a unit goes after its job, and what it then says. -/
def report (settings : LoadSettings) (job : Job) (u : FlowUnit) :
    Relationship × FlowUnit :=
  match job.error? with
  | some e =>
    (.failure, ((withoutErrors u).putAttributes
      (settings.attributes ++ errorAttributes e)).penalize)
  | none =>
    (.success, (withoutErrors u).putAttributes
      (settings.attributes ++ successAttributes job))

/-- What the log says of a job that did not go well. -/
def failureNotice (settings : LoadSettings) (job : Job) (e : JobError) : String :=
  s!"Load job {job.id} into {settings.table.text} failed: {e.message} ({e.reason})"

end WarehouseLoader.Loader
