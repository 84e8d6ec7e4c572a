import SelectionEngine.Definitions.Source
import SelectionEngine.Schema.Bindings
import SelectionEngine.Schema.Validation

namespace SelectionEngine.Schema

variable {σ : Type}

/-- The schema of declared types. Of several roots of one kind the last counts. -/
def ofDeclarations (declarations : Declarations σ) : Except SchemaError (Schema σ) := do
  let registered ← registerAll empty declarations.types
  let schema := declarations.roots.foldl (fun schema root => schema.setRootType root.1 root.2) registered
  schema.validate
  return schema

/-- The schema of definitions with behaviour attached to its types. -/
def ofDefinitions (definitions : List Definitions.Definition) (bindings : Bindings σ) :
    Except SchemaError (Schema σ) :=
  match Declarations.ofDefinitions definitions with
  | .error fault => .error (.definition fault)
  | .ok declarations => match bindings.loose? declarations with
    | some name => .error (.unknownBinding name)
    | none => ofDeclarations (bindings.bind declarations)

/-- The schema that a text defines, with behaviour attached to its types. -/
def ofText (text : String) (bindings : Bindings σ) : Except SchemaError (Schema σ) :=
  match Definitions.Definition.ofText? text with
  | some definitions => ofDefinitions definitions bindings
  | none => .error (.definition .grammar)

end SelectionEngine.Schema
