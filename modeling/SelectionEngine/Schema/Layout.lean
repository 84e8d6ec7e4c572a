import SelectionEngine.Json.Printer
import SelectionEngine.Definitions.Lexeme
import SelectionEngine.Schema.Basic

namespace SelectionEngine.Layout

open Definitions

variable {σ : Type}

/-- A token right after the one before it. -/
def close (token : Token) : Lexeme := ⟨[], token⟩

/-- A token after a blank. -/
def apart (token : Token) : Lexeme := ⟨[' '], token⟩

/-- A type whose first token stands after `gap`. -/
def typeRef (gap : List Char) : TypeRef → List Lexeme
  | .builtIn scalar => [⟨gap, .name scalar.name⟩]
  | .named name => [⟨gap, .name name⟩]
  | .list inner => ⟨gap, .mark '['⟩ :: typeRef [] inner ++ [close (.mark ']')]
  | .nonNull inner => typeRef gap inner ++ [close (.mark '!')]

mutual

/-- A value as a constant whose first token stands after `gap`. -/
def constant (gap : List Char) : Value → List Lexeme
  | .null => [⟨gap, .name "null"⟩]
  | .bool true => [⟨gap, .name "true"⟩]
  | .bool false => [⟨gap, .name "false"⟩]
  | .int n => [⟨gap, .int (toString n).toList⟩]
  | .double d => [⟨gap, .float d.text⟩]
  | .string s => [⟨gap, .string (s.toList.flatMap Json.escape)⟩]
  | .list items => ⟨gap, .mark '['⟩ :: constantItems [] items ++ [close (.mark ']')]
  | .object entries => ⟨gap, .mark '\x7b'⟩ :: constantEntries [] entries ++ [close (.mark '\x7d')]

/-- Items with a comma between each two. -/
def constantItems (gap : List Char) : List Value → List Lexeme
  | [] => []
  | item :: items => constant gap item ++ constantItems [',', ' '] items

def constantEntries (gap : List Char) : List (String × Value) → List Lexeme
  | [] => []
  | (key, item) :: rest =>
    ⟨gap, .name key⟩ :: close (.mark ':') :: constant [' '] item ++ constantEntries [',', ' '] rest

end

def argument (gap : List Char) (argument : ArgumentDef) : List Lexeme :=
  ⟨gap, .name argument.name⟩ :: close (.mark ':') :: typeRef [' '] argument.type ++
    match argument.default with
    | some value => apart (.mark '=') :: constant [' '] value
    | none => []

/-- Arguments with a comma between each two. -/
def arguments (gap : List Char) : List ArgumentDef → List Lexeme
  | [] => []
  | first :: rest => argument gap first ++ arguments [',', ' '] rest

/-- The gap before an indented line. -/
def indent : List Char := ['\n', ' ', ' ']

def field (field : FieldDef σ) : List Lexeme :=
  ⟨indent, .name field.name⟩ ::
    (if field.arguments.isEmpty then []
      else close (.mark '(') :: arguments [] field.arguments ++ [close (.mark ')')]) ++
    close (.mark ':') :: typeRef [' '] field.type

/-- Lines in braces. -/
def braced (lines : List (List Lexeme)) : List Lexeme :=
  apart (.mark '\x7b') :: lines.flatten ++ [⟨['\n'], .mark '\x7d'⟩]

/-- The names of interfaces with an ampersand between each two. -/
def interfaces : List String → List Lexeme
  | [] => []
  | first :: rest => apart (.name "implements") :: apart (.name first) ::
    rest.flatMap fun name => [apart (.mark '&'), apart (.name name)]

/-- The definition of a type, whose first token stands after `gap`. -/
def typeDef (gap : List Char) : TypeDef σ → List Lexeme
  | .scalar name => [⟨gap, .name "scalar"⟩, apart (.name name)]
  | .interface type => ⟨gap, .name "interface"⟩ :: apart (.name type.name) :: braced (type.fields.map field)
  | .object type => ⟨gap, .name "type"⟩ :: apart (.name type.name) :: interfaces type.interfaces ++
    braced (type.fields.map field)
  | .inputObject type => ⟨gap, .name "input"⟩ :: apart (.name type.name) ::
    braced (type.fields.map (argument indent))

/-- The gap before a definition that is not the first one. -/
def paragraph : List Char := ['\n', '\n']

/-- Definitions with an empty line between each two. -/
def typeDefs (gap : List Char) : List (TypeDef σ) → List Lexeme
  | [] => []
  | first :: rest => typeDef gap first ++ typeDefs paragraph rest

def root (kind : OperationKind) (name : String) : List Lexeme :=
  [⟨indent, .name kind.name⟩, close (.mark ':'), apart (.name name)]

end SelectionEngine.Layout

namespace SelectionEngine.Schema

variable {σ : Type}

/-- The roots that are not named as they are by default. -/
def ownRoots (schema : Schema σ) : List OperationKind :=
  [OperationKind.query, OperationKind.mutation].filter fun kind =>
    schema.rootTypeName kind ≠ kind.defaultTypeName

/-- The types other than the built-in ones. -/
def ownTypes (schema : Schema σ) : List (TypeDef σ) :=
  (Entries.values schema.types).filter fun type => (BuiltIn.ofName? type.name).isNone

/-- The definitions of a schema. -/
def lexemes (schema : Schema σ) : List Definitions.Lexeme :=
  match schema.ownRoots with
  | [] => Layout.typeDefs [] schema.ownTypes
  | roots => ⟨[], .name "schema"⟩ ::
    Layout.braced (roots.map fun kind => Layout.root kind (schema.rootTypeName kind)) ++
    Layout.typeDefs Layout.paragraph schema.ownTypes

/-- The text that defines the types and roots of a schema, in the order
of their registration. -/
def text (schema : Schema σ) : String :=
  match schema.lexemes with
  | [] => ""
  | lexemes => String.ofList (Definitions.Lexeme.textOfAll lexemes ++ ['\n'])

end SelectionEngine.Schema
