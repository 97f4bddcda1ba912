import WarehouseLoader.Flow.Unit
import WarehouseLoader.LoadJob.Configuration
import WarehouseLoader.Loader.Properties

/-!
# The settings of one load

Before a unit is loaded the properties are worked out for it: the table from
templates over its attributes, everything else from the configured text. The
first property that cannot be worked out decides the error.
-/

namespace WarehouseLoader.Loader

structure LoadSettings where
  table : TableId
  schemaText : Option String
  format : SourceFormat
  createDisposition : CreateDisposition
  writeDisposition : WriteDisposition
  maxBadRecords : Nat
  ignoreUnknownValues : Bool
  /-- Seconds. -/
  timeout : Nat
  deriving DecidableEq

namespace LoadSettings

def resolve (c : ProcessContext) (attributes : Attributes) :
    Except LoadError LoadSettings := do
  let project ← (c.property Loader.projectId).evaluateRequired (some attributes)
  let dataset ← (c.property Loader.dataset).evaluateRequired (some attributes)
  let table ← (c.property Loader.tableName).evaluateRequired (some attributes)
  let schemaText ← (c.property Loader.tableSchema).evaluate (some attributes)
  let format ← (c.property Loader.sourceType).parse SourceFormat.parse
  let create ← (c.property Loader.createDisposition).parse CreateDisposition.parse
  let write ← (c.property Loader.writeDisposition).parse WriteDisposition.parse
  let badRecords ← (c.property Loader.maxBadRecords).asNat32
  let ignore ← (c.property Loader.ignoreUnknown).asBool
  let timeout ← (c.property Loader.jobTimeout).asNat64
  return ⟨⟨project, dataset, table⟩, schemaText, format, create, write, badRecords,
    ignore, timeout⟩

/-- The load that the settings ask for, with the schema of the processor. -/
def configuration (s : LoadSettings) (schema : Option TableSchema) :
    LoadConfiguration where
  table := s.table
  schema := schema
  format := s.format
  createDisposition := s.createDisposition
  writeDisposition := s.writeDisposition
  maxBadRecords := s.maxBadRecords
  ignoreUnknownValues := s.ignoreUnknownValues

def boolText (b : Bool) : String := if b then "true" else "false"

/-- What a unit tells about the settings it was loaded with. -/
def attributes (s : LoadSettings) : List (String × String) :=
  [(Attribute.dataset, s.table.dataset), (Attribute.tableName, s.table.table)] ++
    (match s.schemaText with
      | some text => [(Attribute.tableSchema, text)]
      | none => []) ++
    [(Attribute.sourceType, s.format.name),
      (Attribute.ignoreUnknown, boolText s.ignoreUnknownValues),
      (Attribute.createDisposition, s.createDisposition.name),
      (Attribute.writeDisposition, s.writeDisposition.name),
      (Attribute.maxBadRecords, toString s.maxBadRecords)]

end LoadSettings

end WarehouseLoader.Loader
