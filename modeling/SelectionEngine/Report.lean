import SelectionEngine.ErrorCode
import SelectionEngine.Json.Printer
import SelectionEngine.Path

namespace SelectionEngine

/-- An error as it is listed in a response. -/
structure Report where
  message : String := ""
  /-- The place of the field that failed, for an error of one field. -/
  path : Option Path := none
  extensions : Object := []
deriving DecidableEq

namespace Report

/-- Adds a code, unless there is an entry of that name. -/
def withCode (report : Report) (code : String) : Report :=
  if Entries.contains report.extensions "code" then report
  else { report with extensions := Entries.set "code" (.string code) report.extensions }

/-- The code, if it is a string or a number. -/
def code? (report : Report) : Option String :=
  match Entries.get? "code" report.extensions with
  | some (.string s) => some s
  | some (.int n) => some (Value.toJson (.int n))
  | some (.double d) => some (Value.toJson (.double d))
  | _ => none

/-- The JSON form, without the parts that are missing or empty. -/
def toValue (report : Report) : Value :=
  .object ([("message", .string report.message)] ++
    (match report.path with
      | some path => [("path", path.toValue)]
      | none => []) ++
    (if report.extensions.isEmpty then [] else [("extensions", .object report.extensions)]))

end Report

/-- Errors that can be reported to a client. -/
class Reportable (ε : Type) where
  message : ε → String
  code : ε → String
  /-- What the extensions hold besides the code. -/
  details : ε → Object := fun _ => []

namespace Reportable

variable {ε : Type} [Reportable ε]

/-- The report of an error at a place. Its code replaces an entry of that name. -/
def report (error : ε) (path : Option Path) : Report where
  message := message error
  path := path
  extensions := Entries.set "code" (.string (code error)) (details error)

end Reportable

/-- An error that is known by the name of its kind alone. -/
structure NamedError where
  kind : String
  message : String

instance : Reportable NamedError where
  message := NamedError.message
  code error := ErrorCode.ofName error.kind

end SelectionEngine
