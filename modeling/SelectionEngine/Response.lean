import SelectionEngine.Json.Members
import SelectionEngine.Report

namespace SelectionEngine

/-- The answer to a request. Its data is missing where the
request failed as a whole. -/
structure Response where
  data : Option Value := none
  errors : List Report := []
  extensions : Object := []
deriving DecidableEq

namespace Response

def ofError (error : Report) : Response := { errors := [error] }

/-- The JSON form. Data is always there, as null if it is missing. -/
def toValue (response : Response) : Value :=
  .object ([("data", response.data.getD .null)] ++
    (if response.errors.isEmpty then [] else [("errors", .list (response.errors.map Report.toValue))]) ++
    (if response.extensions.isEmpty then [] else [("extensions", .object response.extensions)]))

end Response

open Json (Document)

/-- Decodes an error of a response. Every part of it may be left out. -/
def Report.ofDocument? (document : Document) : Option Report := do
  let [message, path, extensions] ← document.members? ["message", "path", "extensions"] | none
  return {
    message := ← Document.withDefault "" Document.string? message
    path := ← Document.withDefault none (Document.nullable Path.ofDocument?) path
    extensions := ← Document.withDefault [] Document.object? extensions }

def Report.listOf? : Document → Option (List Report)
  | .array items => items.mapM Report.ofDocument?
  | _ => none

/-- Decodes a response. Every part of it may be left out, and data
that is null is missing. -/
def Response.ofDocument? (document : Document) : Option Response := do
  let [data, errors, extensions] ← document.members? ["data", "errors", "extensions"] | none
  return {
    data := ← Document.withDefault none (Document.nullable Document.toValue?) data
    errors := ← Document.withDefault [] Report.listOf? errors
    extensions := ← Document.withDefault [] Document.object? extensions }

end SelectionEngine
