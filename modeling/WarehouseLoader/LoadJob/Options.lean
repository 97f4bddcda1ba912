import WarehouseLoader.Error

/-!
# Options of a load job

Each option is one of a few names that the warehouse knows. Names are matched
exactly, and the refusal of another one lists those that would have done.
-/

namespace WarehouseLoader

/-- The value that `name` gives to one of `all`, or the refusal of the text as a
value of `option`. -/
def parseOption {α : Type} (option : String) (all : List α) (name : α → String)
    (s : String) : Except LoadError α :=
  match all.find? (name · == s) with
  | some a => .ok a
  | none =>
    let names := ", ".intercalate (all.map name)
    .error (.invalidValue option s!"'{s}' is not one of {names}")

/-- The format of the payload. -/
inductive SourceFormat where
  | newlineDelimitedJson
  | avro
  | csv
  deriving DecidableEq, Repr

namespace SourceFormat

instance : Inhabited SourceFormat := ⟨avro⟩

def all : List SourceFormat := [newlineDelimitedJson, avro, csv]

def name : SourceFormat → String
  | newlineDelimitedJson => "NEWLINE_DELIMITED_JSON"
  | avro => "AVRO"
  | csv => "CSV"

def parse : String → Except LoadError SourceFormat :=
  parseOption "source format" all name

end SourceFormat

/-- Whether the job may create the table. -/
inductive CreateDisposition where
  | ifNeeded
  | never
  deriving DecidableEq, Repr, Inhabited

namespace CreateDisposition

def all : List CreateDisposition := [ifNeeded, never]

def name : CreateDisposition → String
  | ifNeeded => "CREATE_IF_NEEDED"
  | never => "CREATE_NEVER"

def parse : String → Except LoadError CreateDisposition :=
  parseOption "create disposition" all name

end CreateDisposition

/-- What the job does with the rows that the table has. -/
inductive WriteDisposition where
  | empty
  | append
  | truncate
  deriving DecidableEq, Repr, Inhabited

namespace WriteDisposition

def all : List WriteDisposition := [empty, append, truncate]

def name : WriteDisposition → String
  | empty => "WRITE_EMPTY"
  | append => "WRITE_APPEND"
  | truncate => "WRITE_TRUNCATE"

def parse : String → Except LoadError WriteDisposition :=
  parseOption "write disposition" all name

end WriteDisposition

end WarehouseLoader
