namespace SelectionEngine

/-- The scalar types that every schema has. -/
inductive BuiltIn where
  | string
  | int
  | float
  | id
  | boolean
deriving DecidableEq

/-- A reference to a type. A name stands for a registered type, also if it is
spelled as a built-in one. -/
inductive TypeRef where
  | builtIn (scalar : BuiltIn)
  | named (name : String)
  | list (inner : TypeRef)
  | nonNull (inner : TypeRef)
deriving DecidableEq

namespace BuiltIn

def name : BuiltIn → String
  | string => "String"
  | int => "Int"
  | float => "Float"
  | id => "ID"
  | boolean => "Boolean"

def all : List BuiltIn := [string, int, float, id, boolean]

def ofName? (name : String) : Option BuiltIn := all.find? fun scalar => scalar.name = name

end BuiltIn

namespace TypeRef

/-- The type that a name stands for where a type is written. -/
def ofName (name : String) : TypeRef :=
  match BuiltIn.ofName? name with
  | some scalar => builtIn scalar
  | none => named name

def text : TypeRef → String
  | builtIn scalar => scalar.name
  | named name => name
  | list inner => "[" ++ inner.text ++ "]"
  | nonNull inner => inner.text ++ "!"

/-- The name under all lists and markers. -/
def innerName : TypeRef → String
  | builtIn scalar => scalar.name
  | named name => name
  | list inner | nonNull inner => inner.innerName

def isBuiltIn : TypeRef → Bool
  | builtIn _ => true
  | _ => false

def isNonNull : TypeRef → Bool
  | nonNull _ => true
  | _ => false

def isList : TypeRef → Bool
  | list _ => true
  | _ => false

/-- The type without the non-null markers around it. -/
def nullable : TypeRef → TypeRef
  | nonNull inner => inner.nullable
  | other => other

/-- The outermost reference inside that wraps one of its own
kind, if there is one. -/
def nestedWrapper? : TypeRef → Option TypeRef
  | nonNull inner => if inner.isNonNull then some (nonNull inner) else inner.nestedWrapper?
  | list inner => if inner.isList then some (list inner) else inner.nestedWrapper?
  | _ => none

end TypeRef

end SelectionEngine
