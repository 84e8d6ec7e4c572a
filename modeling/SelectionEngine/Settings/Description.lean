import SelectionEngine.Settings.Reading

namespace SelectionEngine.Settings

/-- What the configuration is, in the words of its description. -/
def configurationSummary : String :=
  "The configuration for the executor.\n\nCan be created through \x60serde::Deserialize\x60 from various formats, " ++
    "or inline in Rust code with the builder."

/-- The description of one setting: its meaning, its default and what else
is said of its values. -/
def setting (summary : String) (default : Value) (others : Object) : Value :=
  .object ([("description", .string summary), ("default", default)] ++ others)

/-- The description of an object whose properties are all known. -/
def closedObject (properties : Object) : Object :=
  [("type", .string "object"), ("properties", .object properties), ("additionalProperties", .bool false)]

def deadlineSetting (default : Value) : Value :=
  setting ("Maximum duration of a request in human-readable format, e.g. \x602s\x60. " ++
      "Requests are not bounded when unset.")
    default [("type", .string "string"), ("nullable", .bool true)]

def maxDepthSetting (default : Value) : Value :=
  setting "Maximum nesting of selection sets; defaults to 32" default
    [("type", .string "integer"), ("format", .string "uint"), ("minimum", .double (Double.zero false))]

def parallelFieldsSetting (default : Value) : Value :=
  setting ("Resolve sibling fields of queries concurrently; defaults to true. " ++
      "Root fields of mutations always run one after another.")
    default [("type", .string "boolean")]

/-- The settings of the execution, each with its default. -/
def executionSettings (defaults : Object) : Object :=
  [("deadline", deadlineSetting), ("max_depth", maxDepthSetting), ("parallel_fields", parallelFieldsSetting)].map
    fun (name, describe) => (name, describe ((Entries.get? name defaults).getD .null))

/-- The JSON Schema of configurations. -/
def jsonSchema : Value :=
  let defaults := ({} : ExecutionSettings).toValue
  let execution := setting "Request execution options." defaults
    (closedObject (executionSettings (defaults.asObject?.getD [])))
  .object ([("$schema", .string "http://json-schema.org/draft-07/schema#"), ("title", .string "Configuration"),
    ("description", .string configurationSummary)] ++ closedObject [("execution", execution)])

end SelectionEngine.Settings
