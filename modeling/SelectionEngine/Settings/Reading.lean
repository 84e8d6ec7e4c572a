import SelectionEngine.Settings.Configuration
import SelectionEngine.Settings.TimeSpan
import SelectionEngine.Value
import SelectionEngine.Yaml.Document

namespace SelectionEngine

open Yaml (Node)

/-- Why a text is no configuration. -/
inductive ConfigurationError where
  | unreadable
  | zeroDepth
  | zeroDeadline
deriving DecidableEq

def ConfigurationError.message : ConfigurationError → String
  | unreadable => "failed to parse configuration"
  | zeroDepth => "invalid 'execution.max_depth' configuration: must be at least 1"
  | zeroDeadline => "invalid 'execution.deadline' configuration: must not be zero"

namespace Settings

/-- The parts of a record with the given names, from a mapping without other or
repeated keys or from the sequence of its leading parts. -/
def parts? (names : List String) : Node → Option (List (Option Node))
  | .mapping entries => do
    let entries ← entries.mapM fun (key, node) => key.text?.map (·, node)
    let known := entries.all fun entry => names.contains entry.1
    let single := names.all fun name => entries.countP (fun entry => entry.1 = name) ≤ 1
    if known && single then some (names.map fun name => Entries.get? name entries) else none
  | .sequence items =>
    if items.length ≤ names.length then
      some (items.map some ++ List.replicate (names.length - items.length) none)
    else none
  | _ => none

/-- The base that is written before the digits of a number, and the digits. -/
def based? : List Char → Option (Nat × List Char)
  | '0' :: 'x' :: digits => some (16, digits)
  | '0' :: 'o' :: digits => some (8, digits)
  | '0' :: 'b' :: digits => some (2, digits)
  | _ => none

/-- Whether several digits start with a zero, which makes no number. -/
def isPadded : List Char → Bool
  | '0' :: _ :: _ => true
  | _ => false

/-- Splits off a sign and says whether it is a minus. -/
def signed : List Char → Bool × List Char
  | '+' :: rest => (false, rest)
  | '-' :: rest => (true, rest)
  | text => (false, text)

/-- Reads a number after its sign. A base may be followed by a plus, unless
there was a minus before it. -/
def magnitude? (negative : Bool) (text : List Char) : Option Nat :=
  match based? text with
  | some (base, '+' :: digits) => if negative then none else Text.natural? base digits
  | some (base, digits) => Text.natural? base digits
  | none => if isPadded text then none else Text.natural? 10 text

/-- Reads a natural number of 64 bits, which may have a sign. -/
def natural? : Node → Option Nat
  | .scalar (.plain text) => do
    let (negative, text) := signed text.toList
    let n ← magnitude? negative text
    if UInt64.size ≤ n ∨ (negative ∧ n ≠ 0) then none else some n
  | _ => none

/-- Reads a duration, or null for none. -/
def deadline? (node : Node) : Option (Option Duration) :=
  if node.isNull then some none
  else node.text?.bind fun text => (Duration.ofSpans? text).map some

/-- A part that may be left out. -/
def withDefault {α : Type} (default : α) (read : Node → Option α) : Option Node → Option α
  | none => some default
  | some node => read node

def execution? (node : Node) : Option ExecutionSettings := do
  let [deadline, maxDepth, parallelFields] ← parts? ["deadline", "max_depth", "parallel_fields"] node | none
  let defaults : ExecutionSettings := {}
  return {
    deadline := ← withDefault defaults.deadline deadline? deadline
    maxDepth := ← withDefault defaults.maxDepth natural? maxDepth
    parallelFields := ← withDefault defaults.parallelFields Node.bool? parallelFields }

def configuration? (node : Node) : Option Configuration := do
  let [execution] ← parts? ["execution"] node | none
  return { execution := ← withDefault {} execution? execution }

end Settings

namespace Configuration

/-- The first setting with a value that makes no sense. -/
def fault? (configuration : Configuration) : Option ConfigurationError :=
  if configuration.execution.maxDepth = 0 then some .zeroDepth
  else if configuration.execution.deadline = some ⟨0⟩ then some .zeroDeadline
  else none

/-- Reads a configuration. A blank text leaves everything at its default. -/
def ofText (text : String) : Except ConfigurationError Configuration :=
  if (Text.trim text.toList).isEmpty then .ok {}
  else match (Node.ofText? text).bind Settings.configuration? with
    | none => .error .unreadable
    | some configuration => match configuration.fault? with
      | some fault => .error fault
      | none => .ok configuration

end Configuration

/-- The JSON form of the settings, with the deadline as a sum of spans. -/
def ExecutionSettings.toValue (settings : ExecutionSettings) : Value :=
  .object [("deadline", ((settings.deadline.map fun d => Value.string d.spans).getD .null)),
    ("max_depth", .int settings.maxDepth), ("parallel_fields", .bool settings.parallelFields)]

def Configuration.toValue (configuration : Configuration) : Value :=
  .object [("execution", configuration.execution.toValue)]

end SelectionEngine
