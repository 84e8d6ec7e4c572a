import SelectionEngine.Definitions.Basic

namespace SelectionEngine

/-- The behaviour that is attached to the types of a text by their names. -/
structure Bindings (σ : Type) where
  /-- The resolvers by the names of an object type and a field. -/
  fields : Entries (String × String) (Resolver σ) := []
  isTypeOf : Entries String (Value → Bool) := []
  resolveType : Entries String (Value → Option String) := []

/-- The types and roots that definitions declare, each kind in the
order of its definitions. -/
structure Declarations (σ : Type) where
  scalars : List String := []
  interfaces : List (InterfaceType σ) := []
  inputs : List InputObjectType := []
  objects : List (ObjectType σ) := []
  roots : List (OperationKind × String) := []

namespace Declarations

variable {σ : Type}

open Definitions

/-- Adds what one definition declares. -/
def add (declarations : Declarations σ) : Definition → Except DefinitionFault (Declarations σ)
  | .scalar name => .ok { declarations with scalars := declarations.scalars ++ [name] }
  | .interface name clauses => do
    let fields ← clauses.mapM FieldClause.declare
    return { declarations with interfaces := declarations.interfaces ++ [{ name, fields }] }
  | .inputObject name clauses => do
    let fields ← clauses.mapM ArgumentClause.declare
    return { declarations with inputs := declarations.inputs ++ [{ name, fields }] }
  | .object name interfaces clauses => do
    let fields ← clauses.mapM FieldClause.declare
    return { declarations with objects := declarations.objects ++ [{ name, fields, interfaces }] }
  | .roots clauses => do
    let roots ← clauses.mapM RootClause.declare
    return { declarations with roots := declarations.roots ++ roots }
  | .directive => .ok declarations
  | .foreign text => .error (.unsupportedDefinition text)

def ofDefinitions (definitions : List Definition) : Except DefinitionFault (Declarations σ) :=
  definitions.foldlM add {}

/-- The types in the order in which they are registered: whatever object types
refer to comes first. -/
def types (declarations : Declarations σ) : List (TypeDef σ) :=
  declarations.scalars.map .scalar ++ declarations.interfaces.map .interface ++
    declarations.inputs.map .inputObject ++ declarations.objects.map .object

end Declarations

namespace Bindings

variable {σ : Type}

/-- Attaches what is bound to an object type. -/
def bindObject (bindings : Bindings σ) (type : ObjectType σ) : ObjectType σ :=
  { type with
    isTypeOf := Entries.get? type.name bindings.isTypeOf
    fields := type.fields.map fun field =>
      { field with resolver := Entries.get? (type.name, field.name) bindings.fields } }

/-- Attaches what is bound to an interface. -/
def bindInterface (bindings : Bindings σ) (type : InterfaceType σ) : InterfaceType σ :=
  { type with resolveType := Entries.get? type.name bindings.resolveType }

def bind (bindings : Bindings σ) (declarations : Declarations σ) : Declarations σ :=
  { declarations with
    interfaces := declarations.interfaces.map bindings.bindInterface
    objects := declarations.objects.map bindings.bindObject }

/-- The first name that something is bound to and that is not declared. -/
def loose? (bindings : Bindings σ) (declarations : Declarations σ) : Option String :=
  let declares (target : String × String) : Bool := declarations.objects.any fun type =>
    type.name = target.1 ∧ type.fields.any fun field => field.name = target.2
  let field := ((Entries.keys bindings.fields).find? (! declares ·)).map fun target => target.1 ++ "." ++ target.2
  let object := (Entries.keys bindings.isTypeOf).find? fun name =>
    !declarations.objects.any fun type => type.name = name
  let interface := (Entries.keys bindings.resolveType).find? fun name =>
    !declarations.interfaces.any fun type => type.name = name
  field <|> object <|> interface

end Bindings

end SelectionEngine
