import SelectionEngine.Definitions.Basic
import SelectionEngine.Definitions.Reader

namespace SelectionEngine.Definitions

open Reader

/-- Reads the definition of an argument or an input field. -/
def argumentClause : Reader ArgumentClause := fun lexemes => do
  let (name, lexemes) ← name (skipDescription lexemes)
  let (type, lexemes) ← afterMark ':' typeRef lexemes
  let (default, lexemes) ←
    whenNext (isMark '=') (fun ls => (afterMark '=' constant ls).map fun (v, rest) => (some v, rest)) none lexemes
  let (_, lexemes) ← skipDirectives constant lexemes
  return ({ name, type, default }, lexemes)

/-- Reads the arguments of a field, in parentheses that are not empty. -/
def argumentClauses : Reader (List ArgumentClause) := between '(' ')' (some1 isDescribed argumentClause)

/-- Reads the definition of a field of an object or interface type. -/
def fieldClause : Reader FieldClause := fun lexemes => do
  let (name, lexemes) ← name (skipDescription lexemes)
  let (arguments, lexemes) ← whenNext (isMark '(') argumentClauses [] lexemes
  let (type, lexemes) ← afterMark ':' typeRef lexemes
  let (_, lexemes) ← skipDirectives constant lexemes
  return ({ name, type, arguments }, lexemes)

/-- Reads fields in braces, which may be missing but not empty. -/
def fieldClauses : Reader (List FieldClause) :=
  whenNext (isMark '\x7b') (between '\x7b' '\x7d' (some1 isDescribed fieldClause)) []

def inputClauses : Reader (List ArgumentClause) :=
  whenNext (isMark '\x7b') (between '\x7b' '\x7d' (some1 isDescribed argumentClause)) []

/-- Reads the interfaces that a type says to implement. -/
def interfaceNames : Reader (List String) :=
  whenNext (isWord "implements") (afterWord "implements" (separated '&' name)) []

/-- Reads the word for a kind of operations. -/
def operationWord : Reader (Option OperationKind)
  | ⟨_, .name "query"⟩ :: rest => some (some .query, rest)
  | ⟨_, .name "mutation"⟩ :: rest => some (some .mutation, rest)
  | ⟨_, .name "subscription"⟩ :: rest => some (none, rest)
  | _ => none

/-- Reads an entry of a schema definition. The name of the type may be missing. -/
def rootClause : Reader RootClause := fun lexemes => do
  let (kind, rest) ← operationWord lexemes
  let rest ← mark ':' rest
  let (typeName, rest) ← whenNext isName (fun ls => (name ls).map fun (n, rest) => (some n, rest)) none rest
  let text := Lexeme.excerpt (lexemes.take (lexemes.length - rest.length))
  return ({ kind, typeName, text }, rest)

def rootClauses : Reader (List RootClause) := between '\x7b' '\x7d' (some1 isName rootClause)

/-- The names of the places in which a directive may stand. -/
def directiveLocations : List String :=
  ["QUERY", "MUTATION", "SUBSCRIPTION", "FIELD", "FRAGMENT_DEFINITION", "FRAGMENT_SPREAD", "INLINE_FRAGMENT",
    "VARIABLE_DEFINITION", "SCHEMA", "SCALAR", "OBJECT", "FIELD_DEFINITION", "ARGUMENT_DEFINITION", "INTERFACE",
    "UNION", "ENUM", "ENUM_VALUE", "INPUT_OBJECT", "INPUT_FIELD_DEFINITION"]

def directiveLocation : Reader String := fun lexemes => do
  let (word, lexemes) ← name lexemes
  if directiveLocations.contains word then some (word, lexemes) else none

/-- Reads a scalar definition, after its keyword. -/
def scalarDefinition : Reader Definition := fun lexemes => do
  let (name, lexemes) ← name lexemes
  let (_, lexemes) ← skipDirectives constant lexemes
  return (.scalar name, lexemes)

/-- Reads an object type definition, after its keyword. -/
def objectDefinition : Reader Definition := fun lexemes => do
  let (name, lexemes) ← name lexemes
  let (interfaces, lexemes) ← interfaceNames lexemes
  let (_, lexemes) ← skipDirectives constant lexemes
  let (fields, lexemes) ← fieldClauses lexemes
  return (.object name interfaces fields, lexemes)

/-- Reads an interface definition, after its keyword. -/
def interfaceDefinition : Reader Definition := fun lexemes => do
  let (name, lexemes) ← name lexemes
  let (_, lexemes) ← interfaceNames lexemes
  let (_, lexemes) ← skipDirectives constant lexemes
  let (fields, lexemes) ← fieldClauses lexemes
  return (.interface name fields, lexemes)

/-- Reads an input object type definition, after its keyword. -/
def inputDefinition : Reader Definition := fun lexemes => do
  let (name, lexemes) ← name lexemes
  let (_, lexemes) ← skipDirectives constant lexemes
  let (fields, lexemes) ← inputClauses lexemes
  return (.inputObject name fields, lexemes)

/-- Reads a schema definition, after its keyword. Its entries may be
missing with their braces. -/
def schemaDefinition : Reader Definition := fun lexemes => do
  let (_, lexemes) ← skipDirectives constant lexemes
  let (clauses, lexemes) ← whenNext (isMark '\x7b') rootClauses [] lexemes
  return (.roots clauses, lexemes)

/-- Reads a directive definition, after its keyword. -/
def directiveDefinition : Reader Definition := fun lexemes => do
  let (_, lexemes) ← afterMark '@' name lexemes
  let (_, lexemes) ← whenNext (isMark '(') argumentClauses [] lexemes
  let lexemes := if next (isWord "repeatable") lexemes then lexemes.drop 1 else lexemes
  let (_, lexemes) ← afterWord "on" (separated '|' directiveLocation) lexemes
  return (.directive, lexemes)

/-- Reads a definition that schemas are made of. -/
def definition (lexemes : List Lexeme) : Option (Definition × List Lexeme) :=
  match skipDescription lexemes with
  | ⟨_, .name "scalar"⟩ :: rest => scalarDefinition rest
  | ⟨_, .name "type"⟩ :: rest => objectDefinition rest
  | ⟨_, .name "interface"⟩ :: rest => interfaceDefinition rest
  | ⟨_, .name "input"⟩ :: rest => inputDefinition rest
  | ⟨_, .name "schema"⟩ :: rest => schemaDefinition rest
  | ⟨_, .name "directive"⟩ :: rest => directiveDefinition rest
  | _ => none

end SelectionEngine.Definitions
