import SelectionEngine.Json.Members
import SelectionEngine.Request.Basic

namespace SelectionEngine

open Json (Document)

namespace InputValue

mutual

/-- Decodes an object with the one key that says how the value is given. -/
def ofDocument? : Document → Option InputValue
  | .object [("variable", .atom (.string name))] => some (.variable name)
  | .object [("value", document)] => document.toValue?.map .value
  | .object [("list", .array items)] => (ofItems? items).map .list
  | .object [("object", .object members)] => (ofMembers? members).map fun pairs => .object (Entries.ofList pairs)
  | _ => none

def ofItems? : List Document → Option (List InputValue)
  | [] => some []
  | item :: items => do some ((← ofDocument? item) :: (← ofItems? items))

def ofMembers? : List (String × Document) → Option (List (String × InputValue))
  | [] => some []
  | (key, item) :: rest => do some ((key, ← ofDocument? item) :: (← ofMembers? rest))

end

def argumentsOf? : Document → Option (Entries String InputValue)
  | .object members => (ofMembers? members).map Entries.ofList
  | _ => none

end InputValue

/-- Decodes the call of a field from its first three members. -/
def FieldCall.ofMembers? (name label arguments : Option Document) : Option FieldCall := do
  let name ← (← name).string?
  let label ← Document.withDefault none (Document.nullable Document.string?) label
  let arguments ← Document.withDefault [] InputValue.argumentsOf? arguments
  return { name, label, arguments }

namespace Selection

/-- The names of the members of a field. -/
def fieldMembers : List String := ["name", "alias", "arguments", "selectionSet"]

/-- The names of the members of a fragment. -/
def fragmentMembers : List String := ["typeCondition", "selectionSet"]

mutual

/-- Decodes an object with the one key that says whether it is a
field or a fragment. -/
def ofDocument? : Document → Option Selection
  | .object [("field", body)] => do
    let [name, label, arguments, _] ← body.members? fieldMembers | none
    return .field (← FieldCall.ofMembers? name label arguments) (← selectionsAt? 3 body)
  | .object [("inlineFragment", body)] => do
    let [condition, _] ← body.members? fragmentMembers | none
    return .fragment (← Document.withDefault none (Document.nullable Document.string?) condition)
      (← selectionsAt? 1 body)
  | _ => none

/-- Decodes the selections below a record, which are its member at an index. -/
def selectionsAt? (index : Nat) : Document → Option (List Selection)
  | .object members => selectionsUnder? members
  | .array items => selectionsNth? index items
  | _ => none

def selectionsUnder? : List (String × Document) → Option (List Selection)
  | [] => some []
  | (key, document) :: rest => if key = "selectionSet" then listOf? document else selectionsUnder? rest

def selectionsNth? : Nat → List Document → Option (List Selection)
  | _, [] => some []
  | 0, document :: _ => listOf? document
  | index + 1, _ :: rest => selectionsNth? index rest

def listOf? : Document → Option (List Selection)
  | .array items => ofItems? items
  | _ => none

def ofItems? : List Document → Option (List Selection)
  | [] => some []
  | item :: items => do some ((← ofDocument? item) :: (← ofItems? items))

end

end Selection

/-- Decodes the name of an operation kind, or an object with that name as its
key and null under it. -/
def OperationKind.ofDocument? : Document → Option OperationKind
  | .atom (.string "query") | .object [("query", .atom .null)] => some .query
  | .atom (.string "mutation") | .object [("mutation", .atom .null)] => some .mutation
  | _ => none

namespace Request

/-- Decodes a request. What is left out is a query, has no name, selects
nothing or has no variables. -/
def ofDocument? (document : Document) : Option Request := do
  let [operation, operationName, selectionSet, variableValues] ←
    document.members? ["operation", "operationName", "selectionSet", "variables"] | none
  return {
    operation := ← Document.withDefault .query OperationKind.ofDocument? operation
    operationName := ← Document.withDefault none (Document.nullable Document.string?) operationName
    selectionSet := ← Document.withDefault [] Selection.listOf? selectionSet
    variableValues := ← Document.withDefault [] (fun d => (Document.nullable Document.object? d).map (·.getD []))
      variableValues }

/-- The request that a JSON value holds. -/
def ofValue? (value : Value) : Option Request := ofDocument? (Document.ofValue value)

end Request

end SelectionEngine
