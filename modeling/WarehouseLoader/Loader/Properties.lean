import WarehouseLoader.Flow.Attribute
import WarehouseLoader.LoadJob.Options
import WarehouseLoader.Property.Context

/-!
# The loader's properties

The ten properties that a load is configured with. A dataset and a table that
are not configured are taken from the unit's own attributes, by templates as
their defaults.
-/

namespace WarehouseLoader.Loader

def projectId : PropertyDescriptor where
  name := "gcp.project.id"
  displayName := "Project ID"
  description := "Google Cloud project that runs the load job and owns the dataset"
  required := true
  fallback := none
  allowable := []
  templates := true
  validator := .nonEmpty

def dataset : PropertyDescriptor where
  name := Attribute.dataset
  displayName := "Dataset"
  description := "BigQuery dataset"
  required := true
  fallback := some "\x7b\x7b bq.dataset \x7d\x7d"
  allowable := []
  templates := true
  validator := .nonEmpty

def tableName : PropertyDescriptor where
  name := Attribute.tableName
  displayName := "Table Name"
  description := "BigQuery table name"
  required := true
  fallback := some "\x7b\x7b bq.table.name \x7d\x7d"
  allowable := []
  templates := true
  validator := .nonEmpty

def tableSchema : PropertyDescriptor where
  name := Attribute.tableSchema
  displayName := "Table Schema"
  description := "BigQuery table schema, as a JSON field list"
  required := false
  fallback := none
  allowable := []
  templates := false
  validator := .nonEmpty

def sourceType : PropertyDescriptor where
  name := Attribute.sourceType
  displayName := "Load file type"
  description := "Format of the load payload"
  required := true
  fallback := some SourceFormat.avro.name
  allowable := SourceFormat.all.map SourceFormat.name
  templates := false
  validator := .nonEmpty

def createDisposition : PropertyDescriptor where
  name := Attribute.createDisposition
  displayName := "Create Disposition"
  description := "Whether the job may create the table if it does not exist"
  required := true
  fallback := some CreateDisposition.ifNeeded.name
  allowable := CreateDisposition.all.map CreateDisposition.name
  templates := false
  validator := .nonEmpty

def writeDisposition : PropertyDescriptor where
  name := Attribute.writeDisposition
  displayName := "Write Disposition"
  description := "Action taken when the table already exists"
  required := true
  fallback := some WriteDisposition.empty.name
  allowable := WriteDisposition.all.map WriteDisposition.name
  templates := false
  validator := .nonEmpty

def maxBadRecords : PropertyDescriptor where
  name := Attribute.maxBadRecords
  displayName := "Max Bad Records"
  description := "Number of bad records tolerated before the job fails"
  required := true
  fallback := some "0"
  allowable := []
  templates := false
  validator := .nonNegativeInteger

def ignoreUnknown : PropertyDescriptor where
  name := Attribute.ignoreUnknown
  displayName := "Ignore Unknown Values"
  description :=
    "Whether values not present in the table schema are ignored. " ++
      "When false, records with extra columns are treated as bad records."
  required := true
  fallback := some "true"
  allowable := ["true", "false"]
  templates := false
  validator := .boolean

def jobTimeout : PropertyDescriptor where
  name := "bq.job.timeout"
  displayName := "Job Timeout"
  description :=
    "Seconds to wait for a submitted load job to finish before the unit fails"
  required := true
  fallback := some "300"
  allowable := []
  templates := false
  validator := .positiveInteger

/-- All of them, in the order in which they are listed and judged. -/
def properties : List PropertyDescriptor :=
  [projectId, dataset, tableName, tableSchema, sourceType, createDisposition,
    writeDisposition, maxBadRecords, ignoreUnknown, jobTimeout]

end WarehouseLoader.Loader
