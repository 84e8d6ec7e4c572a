import SelectionEngine.Schema.Registry

namespace SelectionEngine.Schema

variable {σ : Type}

/-- Checks that the type of an argument or input field is an input type
and accepts the default. -/
def validateInput (schema : Schema σ) (coordinate : String) (argument : ArgumentDef) :
    Except SchemaError Unit := do
  let target ← schema.lookup argument.type.innerName
  if !target.isInput then throw (.invalidFieldType coordinate argument.type .input)
  if let some default := argument.default then
    if let .error cause := schema.coerceValue default argument.type coordinate then
      throw (.invalidDefault coordinate cause)

def validateField (schema : Schema σ) (typeName : String) (field : FieldDef σ) : Except SchemaError Unit := do
  let coordinate := typeName ++ "." ++ field.name
  let target ← schema.lookup field.type.innerName
  if !target.isOutput then throw (.invalidFieldType coordinate field.type .output)
  field.arguments.forM fun argument => schema.validateInput s!"{coordinate}({argument.name}:)" argument

def validateType (schema : Schema σ) (type : TypeDef σ) : Except SchemaError Unit := do
  type.fields.forM (schema.validateField type.name)
  if let .inputObject input := type then
    input.fields.forM fun field => schema.validateInput (input.name ++ "." ++ field.name) field

/-- Checks that every reference is to a registered type of the right direction
and that defaults have their declared types. Types may be registered after
those that refer to them. -/
def validate (schema : Schema σ) : Except SchemaError Unit :=
  (Entries.values schema.types).forM schema.validateType

end SelectionEngine.Schema
