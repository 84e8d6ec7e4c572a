import SelectionEngine.Schema.Basic
import SelectionEngine.Selection

namespace SelectionEngine

/-- An operation to execute, as a selection tree. -/
structure Request where
  operation : OperationKind := .query
  operationName : Option String := none
  selectionSet : List Selection := []
  variableValues : Object := []

end SelectionEngine
