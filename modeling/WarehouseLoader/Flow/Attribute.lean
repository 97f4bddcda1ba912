/-!
# Attributes that a load writes

The names under which a unit tells where it was loaded, how, and what became of
the job.
-/

namespace WarehouseLoader.Attribute

def dataset : String := "bq.dataset"
def tableName : String := "bq.table.name"
def tableSchema : String := "bq.table.schema"
def sourceType : String := "bq.load.type"
def ignoreUnknown : String := "bq.load.ignore_unknown"
def createDisposition : String := "bq.load.create_disposition"
def writeDisposition : String := "bq.load.write_disposition"
def maxBadRecords : String := "bq.load.max_badrecords"
def jobCreationTime : String := "bq.job.stat.creation_time"
def jobStartTime : String := "bq.job.stat.start_time"
def jobEndTime : String := "bq.job.stat.end_time"
def jobLink : String := "bq.job.link"
def errorMessage : String := "bq.error.message"
def errorReason : String := "bq.error.reason"
def errorLocation : String := "bq.error.location"

/-- What a failed job leaves behind, to be taken away before the next outcome is
written. -/
def ofErrors : List String := [errorMessage, errorReason, errorLocation]

/-- Every attribute that a load may write, with what it says. -/
def described : List (String × String) :=
  [(dataset, "BigQuery dataset"), (tableName, "BigQuery table name"),
    (tableSchema, "BigQuery table schema, as a JSON field list"),
    (sourceType, "Format of the load payload"),
    (ignoreUnknown, "Whether values not present in the table schema are ignored. " ++
      "When false, records with extra columns are treated as bad records."),
    (createDisposition, "Whether the job may create the table if it does not exist"),
    (writeDisposition, "Action taken when the table already exists"),
    (maxBadRecords, "Number of bad records tolerated before the job fails"),
    (jobCreationTime, "Time the load job was created, epoch milliseconds"),
    (jobStartTime, "Time the load job started, epoch milliseconds"),
    (jobEndTime, "Time the load job ended, epoch milliseconds"),
    (jobLink, "API link to the load job"),
    (errorMessage, "Load job error message"), (errorReason, "Load job error reason"),
    (errorLocation, "Load job error location")]

/-- The names of the attributes that a load may write. -/
def written : List String := described.map (·.1)

end WarehouseLoader.Attribute
