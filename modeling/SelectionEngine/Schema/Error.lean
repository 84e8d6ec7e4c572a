import SelectionEngine.Coercion

namespace SelectionEngine

/-- Why an object type does not implement an interface. -/
inductive ImplementationFault where
  | notAnInterface (kind : String)
  | notRegistered
  | missingField (name : String)
  | fieldType (name : String) (found expected : TypeRef)
deriving DecidableEq

def ImplementationFault.reason (interface : String) : ImplementationFault → String
  | notAnInterface kind => s!"'{interface}' is a {kind}"
  | notRegistered => s!"'{interface}' is not registered"
  | missingField name => s!"missing field '{name}'"
  | fieldType name found expected =>
    s!"field '{name}' has type '{found.text}' instead of '{expected.text}'"

/-- The two directions in which values pass through a schema. -/
inductive Direction where
  | input
  | output
deriving DecidableEq

def Direction.name : Direction → String
  | input => "input"
  | output => "output"

/-- Why a text does not define a schema. -/
inductive DefinitionFault where
  /-- The text does not follow the grammar. -/
  | grammar
  | unsupportedDefinition (text : String)
  | unsupportedRoot (text : String)
  | unnamedRoot
  | invalidDefault (text : String)
deriving DecidableEq

def DefinitionFault.reason : DefinitionFault → String
  | grammar => "the text does not follow the grammar"
  | unsupportedDefinition text => s!"unsupported definition '{text}'"
  | unsupportedRoot text => s!"unsupported root operation '{text}'"
  | unnamedRoot => "root operation type has no name"
  | invalidDefault text => s!"invalid default value '{text}'"

/-- Why a type cannot be registered, or a schema is not valid. -/
inductive SchemaError where
  | duplicateType (name : String)
  | unknownType (name : String)
  | duplicateField (typeName field : String)
  | invalidImplementation (object interface : String) (fault : ImplementationFault)
  | nestedWrapper (type : TypeRef)
  | invalidFieldType (coordinate : String) (type : TypeRef) (expected : Direction)
  | invalidDefault (coordinate : String) (cause : ArgumentError)
  | unknownBinding (target : String)
  | definition (fault : DefinitionFault)
deriving DecidableEq

instance : Reportable SchemaError where
  message
    | .duplicateType name => s!"type '{name}' is already registered"
    | .unknownType name => s!"unknown type '{name}'"
    | .duplicateField typeName field => s!"field '{typeName}.{field}' is declared more than once"
    | .invalidImplementation object interface fault =>
      s!"type '{object}' cannot implement '{interface}': {fault.reason interface}"
    | .nestedWrapper type =>
      s!"invalid type reference {type.text}: a wrapper type cannot directly wrap itself"
    | .invalidFieldType coordinate type expected =>
      s!"field '{coordinate}' has type '{type.text}' which is not an {expected.name} type"
    | .invalidDefault coordinate cause =>
      s!"invalid default value for '{coordinate}': {Reportable.message cause}"
    | .unknownBinding target => s!"no field '{target}' to bind a resolver to"
    | .definition fault => s!"parsing error(s): {fault.reason}"
  code
    | .definition _ => "SCHEMA_PARSING_ERROR"
    | _ => "INVALID_SCHEMA"

end SelectionEngine
