import SelectionEngine.Settings.Duration

namespace SelectionEngine

/-- Limits and scheduling of a single request. -/
structure ExecutionSettings where
  /-- How long a request may take. Requests are not bounded where
  this is missing. -/
  deadline : Option Duration := none
  /-- How deep fields may nest. -/
  maxDepth : Nat := 32
  /-- Whether sibling fields of queries are resolved at the same time. -/
  parallelFields : Bool := true
deriving DecidableEq

/-- The settings in a few words. -/
def ExecutionSettings.text (settings : ExecutionSettings) : String :=
  let deadline := match settings.deadline with
    | some d => "deadline " ++ d.text
    | none => "no deadline"
  let mode := if settings.parallelFields then "parallel" else "serial"
  s!"{deadline}, max depth {settings.maxDepth}, {mode} fields"

structure Configuration where
  execution : ExecutionSettings := {}
deriving DecidableEq

end SelectionEngine
