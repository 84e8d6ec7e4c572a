import SelectionEngine.Schema.Error

namespace SelectionEngine

variable {σ : Type}

/-- The first name that stands in the list for the second time. -/
def repeated? (seen : List String) : List String → Option String
  | [] => none
  | name :: rest => if name ∈ seen then some name else repeated? (seen ++ [name]) rest

namespace Schema

def checkUnique (typeName : String) (names : List String) : Except SchemaError Unit :=
  match repeated? [] names with
  | some name => .error (.duplicateField typeName name)
  | none => .ok ()

def checkType (type : TypeRef) : Except SchemaError Unit :=
  match type.nestedWrapper? with
  | some inner => .error (.nestedWrapper inner)
  | none => .ok ()

def checkField (typeName : String) (field : FieldDef σ) : Except SchemaError Unit := do
  checkType field.type
  checkUnique (typeName ++ "." ++ field.name) (field.arguments.map ArgumentDef.name)
  field.arguments.forM fun argument => checkType argument.type

def checkFields (typeName : String) (fields : List (FieldDef σ)) : Except SchemaError Unit := do
  checkUnique typeName (fields.map FieldDef.name)
  fields.forM (checkField typeName)

/-- The first field of an interface that an object type lacks or
has with another type. -/
def missingField? (object : ObjectType σ) (fields : List (FieldDef σ)) : Option ImplementationFault :=
  fields.findSome? fun expected => match object.field? expected.name with
    | none => some (.missingField expected.name)
    | some field =>
      if field.type = expected.type then none
      else some (.fieldType expected.name field.type expected.type)

def implementationFault? (schema : Schema σ) (object : ObjectType σ) (interface : String) :
    Option ImplementationFault :=
  match schema.lookup? interface with
  | some (.interface type) => missingField? object type.fields
  | some other => some (.notAnInterface other.kind)
  | none => some .notRegistered

def checkImplementation (schema : Schema σ) (object : ObjectType σ) (interface : String) :
    Except SchemaError Unit :=
  match schema.implementationFault? object interface with
  | some fault => .error (.invalidImplementation object.name interface fault)
  | none => .ok ()

/-- The checks on a type that do not depend on later ones. -/
def check (schema : Schema σ) : TypeDef σ → Except SchemaError Unit
  | .scalar _ => .ok ()
  | .object type => do
    checkFields type.name type.fields
    type.interfaces.forM (schema.checkImplementation type)
  | .interface type => checkFields type.name type.fields
  | .inputObject type => do
    checkUnique type.name (type.fields.map ArgumentDef.name)
    type.fields.forM fun field => checkType field.type

/-- Lists an object type under one more interface. -/
def addImplementor (object : String) (implementors : Entries String (List String)) (interface : String) :
    Entries String (List String) :=
  Entries.set interface ((Entries.get? interface implementors).getD [] ++ [object]) implementors

/-- The resolvers of the fields that have one. -/
def boundFields (fields : List (FieldDef σ)) : Entries String (Resolver σ) :=
  fields.filterMap fun field => field.resolver.map (field.name, ·)

/-- Adds a type that passed the checks. -/
def insert (schema : Schema σ) (type : TypeDef σ) : Schema σ :=
  let types := Entries.set type.name type schema.types
  match type with
  | .object object =>
    { schema with
      types
      implementors := object.interfaces.foldl (addImplementor object.name) schema.implementors
      resolvers := Entries.set object.name (boundFields object.fields) schema.resolvers }
  | _ => { schema with types }

/-- Adds a type to the schema. An object type implements only interfaces that
were registered before. -/
def register (schema : Schema σ) (type : TypeDef σ) : Except SchemaError (Schema σ) :=
  if Entries.contains schema.types type.name then .error (.duplicateType type.name)
  else (schema.check type).map fun _ => schema.insert type

def registerAll (schema : Schema σ) (types : List (TypeDef σ)) : Except SchemaError (Schema σ) :=
  types.foldlM register schema

/-- The type of a name, or the error that there is none. -/
def lookup (schema : Schema σ) (name : String) : Except SchemaError (TypeDef σ) :=
  match schema.lookup? name with
  | some type => .ok type
  | none => .error (.unknownType name)

end Schema

end SelectionEngine
