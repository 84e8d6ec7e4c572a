import SelectionEngine.Value

namespace SelectionEngine

/-- The value of an argument as an operation gives it. Variables may
stand anywhere in it. -/
inductive InputValue where
  | variable (name : String)
  | value (value : Value)
  | list (items : List InputValue)
  | object (entries : List (String × InputValue))
deriving Inhabited

/-- What a field selection asks for, apart from its selections. -/
structure FieldCall where
  name : String
  label : Option String := none
  arguments : Entries String InputValue := []

/-- The key of the field in the response. -/
def FieldCall.responseKey (call : FieldCall) : String := call.label.getD call.name

/-- A node of the selection tree of an operation. -/
inductive Selection where
  | field (call : FieldCall) (selections : List Selection)
  /-- Selections on the objects that satisfy a type condition, on all of
  them if there is none. -/
  | fragment (typeCondition : Option String) (selections : List Selection)
deriving Inhabited

namespace Selection

mutual

/-- How many fields are nested in each other. Fragments do not count. -/
def depth : Selection → Nat
  | field _ selections => 1 + depthOfAll selections
  | fragment _ selections => depthOfAll selections

def depthOfAll : List Selection → Nat
  | [] => 0
  | selection :: rest => max selection.depth (depthOfAll rest)

end

end Selection

namespace InputValue

mutual

/-- The value with its variables replaced, or nothing for a
variable that is not set. -/
def substitute? (variableValues : Object) : InputValue → Option Value
  | .variable name => Entries.get? name variableValues
  | .value v => some v
  | .list items => some (.list (substituteItems variableValues items))
  | .object entries => some (.object (Entries.ofList (substituteEntries variableValues entries)))

/-- In a list, a variable that is not set is null. -/
def substituteItems (variableValues : Object) : List InputValue → List Value
  | [] => []
  | item :: items => (substitute? variableValues item).getD .null :: substituteItems variableValues items

/-- In an object, an entry whose variable is not set is left out. -/
def substituteEntries (variableValues : Object) : List (String × InputValue) → List (String × Value)
  | [] => []
  | (key, item) :: rest =>
    match substitute? variableValues item with
    | some v => (key, v) :: substituteEntries variableValues rest
    | none => substituteEntries variableValues rest

end

end InputValue

end SelectionEngine
