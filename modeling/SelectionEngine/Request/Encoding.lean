import SelectionEngine.Request.Basic

namespace SelectionEngine

/-- An entry, unless there is nothing to say. -/
def entryUnless (absent : Bool) (key : String) (value : Value) : Object :=
  if absent then [] else [(key, value)]

def textEntry (key : String) : Option String → Object
  | some text => [(key, .string text)]
  | none => []

namespace InputValue

mutual

def toValue : InputValue → Value
  | .variable name => .object [("variable", .string name)]
  | .value v => .object [("value", v)]
  | .list items => .object [("list", .list (toItems items))]
  | .object entries => .object [("object", .object (toEntries entries))]

def toItems : List InputValue → List Value
  | [] => []
  | item :: items => toValue item :: toItems items

def toEntries : List (String × InputValue) → List (String × Value)
  | [] => []
  | (key, item) :: rest => (key, toValue item) :: toEntries rest

end

end InputValue

namespace Selection

mutual

/-- The JSON form, without the parts that are missing or empty, the
selections of a fragment apart. -/
def toValue : Selection → Value
  | .field call selections =>
    let body := [("name", .string call.name)] ++ textEntry "alias" call.label ++
      entryUnless call.arguments.isEmpty "arguments" (.object (InputValue.toEntries call.arguments)) ++
      entryUnless selections.isEmpty "selectionSet" (.list (toValues selections))
    .object [("field", .object body)]
  | .fragment condition selections =>
    let body := textEntry "typeCondition" condition ++ [("selectionSet", .list (toValues selections))]
    .object [("inlineFragment", .object body)]

def toValues : List Selection → List Value
  | [] => []
  | selection :: rest => toValue selection :: toValues rest

end

end Selection

/-- The JSON form of a request, without a missing name and empty variables. -/
def Request.toValue (request : Request) : Value :=
  .object ([("operation", .string request.operation.name)] ++ textEntry "operationName" request.operationName ++
    [("selectionSet", .list (Selection.toValues request.selectionSet))] ++
    entryUnless request.variableValues.isEmpty "variables" (.object request.variableValues))

end SelectionEngine
