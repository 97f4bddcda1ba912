import WarehouseLoader.Flow.Attribute
import WarehouseLoader.Flow.Session
import WarehouseLoader.Command.Arguments
import WarehouseLoader.Json.Writer
import WarehouseLoader.Loader.Properties
import WarehouseLoader.Property.Context
import WarehouseLoader.Schema.Wire

/-!
# Messages of the commands

Commands print messages, each an object whose members are in the order of their
names. A message is one line, or several if people are to read it.
-/

namespace WarehouseLoader.Command

/-- The text of a message in the format that was asked for. -/
def messageText (format : OutputFormat) (message : Json) : String :=
  match format with
  | .json => message.render
  | .pretty => message.renderLines

def describedJson (name description : String) : Json :=
  .object [("description", .text description), ("name", .text name)]

def descriptorJson (d : PropertyDescriptor) : Json :=
  .object [("allowable_values", .array (d.allowable.map .text)),
    ("default_value", Json.ofOption .text d.fallback),
    ("description", .text d.description), ("display_name", .text d.displayName),
    ("name", .text d.name), ("required", .bool d.required),
    ("supports_templates", .bool d.templates), ("validator", .text d.validator.name)]

/-- All that may be configured and all that may come of it. -/
def propertiesMessage : Json :=
  .object [("properties", .array (Loader.properties.map descriptorJson)),
    ("relationships",
      .array (Relationship.all.map fun r => describedJson r.name r.description)),
    ("type", .text "PROPERTIES"),
    ("writesAttributes",
      .array (Attribute.described.map fun a => describedJson a.1 a.2))]

def schemaMessage (s : TableSchema) : Json :=
  .object [("schema", s.toJson.sorted), ("type", .text "SCHEMA")]

def resultJson (r : ValidationResult) : Json :=
  .object [("explanation", Json.ofOption .text r.explanation),
    ("subject", .text r.subject), ("valid", .bool r.valid)]

def validationMessage (results : List ValidationResult) : Json :=
  .object [("results", .array (results.map resultJson)), ("type", .text "VALIDATION")]

def logMessage (level text : String) : Json :=
  .object [("log", .object [("level", .text level), ("message", .text text)]),
    ("type", .text "LOG")]

/-- What the check of a configuration says of its schema. -/
def validText : Option TableSchema → String
  | some s => s!"Configuration is valid; table schema has {s.size} fields"
  | none => "Configuration is valid; schema left to the warehouse"

/-- Where a unit went, under the name of the file that it came from. -/
def unitMessage (source : Option String) (r : Relationship × FlowUnit) : Json :=
  .object [
    ("attributes", .object (r.2.attributes.toList.map fun a => (a.1, .text a.2))),
    ("filename", Json.ofOption .text source), ("penalized", .bool r.2.penalized),
    ("relationship", .text r.1.name)]

/-- A time in seconds with two places, the last of them rounded. -/
def secondsText (milliseconds : Nat) : String :=
  let hundredths := (milliseconds + 5) / 10
  let places := toString (hundredths % 100)
  let padded := if hundredths % 100 < 10 then "0" ++ places else places
  toString (hundredths / 100) ++ "." ++ padded

def loadedText (loaded files milliseconds : Nat) : String :=
  let seconds := secondsText milliseconds
  s!"Loaded {loaded} of {files} units in {seconds}s"

end WarehouseLoader.Command
