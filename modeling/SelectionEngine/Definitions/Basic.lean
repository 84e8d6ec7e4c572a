import SelectionEngine.Definitions.Literal

namespace SelectionEngine.Definitions

/-- An argument or an input field as a text defines it. -/
structure ArgumentClause where
  name : String
  type : TypeRef
  default : Option Literal := none

/-- A field of an object or interface type as a text defines it. -/
structure FieldClause where
  name : String
  type : TypeRef
  arguments : List ArgumentClause := []

/-- An entry of a schema definition. -/
structure RootClause where
  /-- The kind of operations, if they can be executed. -/
  kind : Option OperationKind
  typeName : Option String
  /-- The entry as it is written. -/
  text : String

/-- A definition of a text. What is said of directives is not kept. -/
inductive Definition where
  | scalar (name : String)
  | object (name : String) (interfaces : List String) (fields : List FieldClause)
  | interface (name : String) (fields : List FieldClause)
  | inputObject (name : String) (fields : List ArgumentClause)
  | roots (clauses : List RootClause)
  | directive
  /-- A definition of a kind that schemas are not made of. -/
  | foreign (text : String)

namespace ArgumentClause

def declare (clause : ArgumentClause) : Except DefinitionFault ArgumentDef :=
  match clause.default with
  | none => .ok { name := clause.name, type := clause.type }
  | some literal => literal.toValue.map fun value => ⟨clause.name, clause.type, some value⟩

end ArgumentClause

def FieldClause.declare {σ : Type} (clause : FieldClause) : Except DefinitionFault (FieldDef σ) :=
  (clause.arguments.mapM ArgumentClause.declare).map fun arguments =>
    { name := clause.name, type := clause.type, arguments }

def RootClause.declare (clause : RootClause) : Except DefinitionFault (OperationKind × String) :=
  match clause.kind, clause.typeName with
  | none, _ => .error (.unsupportedRoot clause.text)
  | some _, none => .error .unnamedRoot
  | some kind, some name => .ok (kind, name)

end SelectionEngine.Definitions
