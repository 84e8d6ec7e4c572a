import SelectionEngine.Resolver.Basic
import SelectionEngine.TypeRef

namespace SelectionEngine

/-- The kinds of operations. -/
inductive OperationKind where
  | query
  | mutation
deriving DecidableEq

namespace OperationKind

def name : OperationKind → String
  | query => "query"
  | mutation => "mutation"

/-- The root type where a schema does not name one. -/
def defaultTypeName : OperationKind → String
  | query => "Query"
  | mutation => "Mutation"

end OperationKind

/-- The meta field with the name of the object's type. -/
def typenameField : String := "__typename"

/-- An argument of a field, or a field of an input object. -/
structure ArgumentDef where
  name : String
  type : TypeRef
  default : Option Value := none
deriving DecidableEq

/-- A field of an object or interface type. -/
structure FieldDef (σ : Type) where
  name : String
  type : TypeRef
  arguments : List ArgumentDef := []
  resolver : Option (Resolver σ) := none

structure ObjectType (σ : Type) where
  name : String
  fields : List (FieldDef σ) := []
  /-- The names of the interfaces it implements. -/
  interfaces : List String := []
  /-- Tells the values of this type from others. -/
  isTypeOf : Option (Value → Bool) := none

structure InterfaceType (σ : Type) where
  name : String
  fields : List (FieldDef σ) := []
  /-- Names the object type of a value, or leaves that to the
  predicates of the implementors. -/
  resolveType : Option (Value → Option String) := none

structure InputObjectType where
  name : String
  fields : List ArgumentDef := []
deriving DecidableEq

/-- A type with a name. `σ` is the state that resolvers work on. -/
inductive TypeDef (σ : Type) where
  | scalar (name : String)
  | object (type : ObjectType σ)
  | interface (type : InterfaceType σ)
  | inputObject (type : InputObjectType)

variable {σ : Type}

namespace ObjectType

def field? (type : ObjectType σ) (name : String) : Option (FieldDef σ) :=
  type.fields.find? fun field => field.name = name

/-- Whether a value belongs to the type. Without a predicate it has to say
so in its `__typename`. -/
def accepts (type : ObjectType σ) (value : Value) : Bool :=
  match type.isTypeOf with
  | some predicate => predicate value
  | none => (value.property? typenameField).bind Value.asString? = some type.name

end ObjectType

namespace TypeDef

def name : TypeDef σ → String
  | scalar name => name
  | object type => type.name
  | interface type => type.name
  | inputObject type => type.name

/-- The output fields. -/
def fields : TypeDef σ → List (FieldDef σ)
  | object type => type.fields
  | interface type => type.fields
  | scalar _ | inputObject _ => []

def field? (type : TypeDef σ) (name : String) : Option (FieldDef σ) :=
  type.fields.find? fun field => field.name = name

def isInput : TypeDef σ → Bool
  | scalar _ | inputObject _ => true
  | object _ | interface _ => false

def isOutput : TypeDef σ → Bool
  | inputObject _ => false
  | scalar _ | object _ | interface _ => true

def kind : TypeDef σ → String
  | scalar _ => "scalar"
  | object _ => "object"
  | interface _ => "interface"
  | inputObject _ => "input object"

end TypeDef

/-- Types by name in the order of their registration, with what is looked up
often kept beside them. -/
structure Schema (σ : Type) where
  types : Entries String (TypeDef σ)
  /-- The object types that declare an interface, in the order of
  their registration. -/
  implementors : Entries String (List String) := []
  /-- The resolvers by object type and field. -/
  resolvers : Entries String (Entries String (Resolver σ)) := []
  queryType : String := OperationKind.query.defaultTypeName
  mutationType : String := OperationKind.mutation.defaultTypeName

namespace Schema

/-- The schema that has only the built-in scalars. -/
def empty : Schema σ where
  types := BuiltIn.all.map fun scalar => (scalar.name, .scalar scalar.name)

def lookup? (schema : Schema σ) (name : String) : Option (TypeDef σ) := Entries.get? name schema.types

def implementorsOf (schema : Schema σ) (interface : String) : List String :=
  (Entries.get? interface schema.implementors).getD []

/-- Whether the values of an object type satisfy a type condition. -/
def isSubtype (schema : Schema σ) (condition object : String) : Bool :=
  condition = object ∨ object ∈ schema.implementorsOf condition

/-- The resolver of a field of an object type. -/
def resolver? (schema : Schema σ) (type field : String) : Option (Resolver σ) :=
  (Entries.get? type schema.resolvers).bind (Entries.get? field)

def rootTypeName (schema : Schema σ) : OperationKind → String
  | .query => schema.queryType
  | .mutation => schema.mutationType

def setRootType (schema : Schema σ) (kind : OperationKind) (name : String) : Schema σ :=
  match kind with
  | .query => { schema with queryType := name }
  | .mutation => { schema with mutationType := name }

/-- The object type that operations of a kind start from. -/
def rootType? (schema : Schema σ) (kind : OperationKind) : Option (ObjectType σ) :=
  match schema.lookup? (schema.rootTypeName kind) with
  | some (.object type) => some type
  | _ => none

end Schema

end SelectionEngine
