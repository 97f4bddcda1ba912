import WarehouseLoader.LoadJob.Options
import WarehouseLoader.Schema.Wire

/-!
# The description of one load job

What a load is asked to do, and the job resource that says so to the warehouse.
A schema that is not given is left out of the resource, so that the warehouse
keeps or infers one; an empty schema is sent.
-/

namespace WarehouseLoader

structure TableId where
  project : String
  dataset : String
  table : String
  deriving DecidableEq, Repr, Inhabited

namespace TableId

/-- The table as it is shown to people. -/
def text (t : TableId) : String := s!"{t.project}:{t.dataset}.{t.table}"

def toJson (t : TableId) : Json :=
  .object [("projectId", .text t.project), ("datasetId", .text t.dataset),
    ("tableId", .text t.table)]

end TableId

structure JobReference where
  project : String
  jobId : String
  location : Option String
  deriving DecidableEq, Repr, Inhabited

namespace JobReference

def toJson (r : JobReference) : Json :=
  .object ([("projectId", .text r.project), ("jobId", .text r.jobId)] ++
    match r.location with
    | some location => [("location", .text location)]
    | none => [])

end JobReference

structure LoadConfiguration where
  table : TableId
  schema : Option TableSchema
  format : SourceFormat
  createDisposition : CreateDisposition
  writeDisposition : WriteDisposition
  maxBadRecords : Nat
  ignoreUnknownValues : Bool

namespace LoadConfiguration

/-- A load with every option at its default and no schema. -/
def ofTable (table : TableId) : LoadConfiguration :=
  ⟨table, none, default, default, default, 0, false⟩

/-- The resource that starts the job under an id. -/
def toJson (c : LoadConfiguration) (jobId : String) : Json :=
  let schema :=
    match c.schema with
    | some s => [("schema", s.toJson)]
    | none => []
  let load : Json :=
    .object ([("destinationTable", c.table.toJson)] ++ schema ++
      [("sourceFormat", .text c.format.name),
        ("createDisposition", .text c.createDisposition.name),
        ("writeDisposition", .text c.writeDisposition.name),
        ("maxBadRecords", .ofNat c.maxBadRecords),
        ("ignoreUnknownValues", .bool c.ignoreUnknownValues)])
  .object [("jobReference", JobReference.toJson ⟨c.table.project, jobId, none⟩),
    ("configuration", .object [("load", load)])]

end LoadConfiguration

end WarehouseLoader
