import SelectionEngine.Definitions.Lexeme
import SelectionEngine.Definitions.Literal

namespace SelectionEngine.Definitions

/-- Reads something off the front of a list of lexemes. -/
abbrev Reader (α : Type) := List Lexeme → Option (α × List Lexeme)

namespace Reader

variable {α : Type}

/-- Whether the next token is of a kind. -/
def next (kind : Token → Bool) (lexemes : List Lexeme) : Bool := lexemes.head?.any fun l => kind l.token

/-- Whether a comma stands before the next token. -/
def nextFollowsComma (lexemes : List Lexeme) : Bool := lexemes.head?.any Lexeme.followsComma

def isMark (c : Char) (token : Token) : Bool := token = .mark c

def isName : Token → Bool
  | .name _ => true
  | _ => false

def isWord (word : String) (token : Token) : Bool := token = .name word

/-- Whether a token is a string, which may stand before a
definition as its description. -/
def isDescription : Token → Bool
  | .string _ | .block _ => true
  | _ => false

/-- Whether a token may start the definition of something with a name. -/
def isDescribed (token : Token) : Bool := isName token || isDescription token

/-- Reads one token of a kind. -/
def one (kind : Token → Bool) : List Lexeme → Option (List Lexeme)
  | [] => none
  | l :: rest => if kind l.token then some rest else none

def mark (c : Char) : List Lexeme → Option (List Lexeme) := one (isMark c)

def name : Reader String
  | ⟨_, .name text⟩ :: rest => some (text, rest)
  | _ => none

/-- Passes over a description. -/
def skipDescription (lexemes : List Lexeme) : List Lexeme :=
  if next isDescription lexemes then lexemes.drop 1 else lexemes

/-- Reads something that is there if the next token is of a kind. -/
def whenNext (kind : Token → Bool) (item : Reader α) (absent : α) : Reader α := fun lexemes =>
  if next kind lexemes then item lexemes else some (absent, lexemes)

/-- Reads up to `count` items as long as the next token is of a kind. -/
def atMost (count : Nat) (kind : Token → Bool) (item : Reader α) : Reader (List α) := fun lexemes =>
  match count with
  | 0 => some ([], lexemes)
  | count + 1 =>
    if next kind lexemes then do
      let (first, lexemes) ← item lexemes
      let (others, lexemes) ← atMost count kind item lexemes
      return (first :: others, lexemes)
    else some ([], lexemes)

/-- Reads items as long as the next token is of a kind. -/
def many (kind : Token → Bool) (item : Reader α) : Reader (List α) := fun lexemes =>
  atMost lexemes.length kind item lexemes

/-- Reads one item and more of them as long as the next token is of a kind. -/
def some1 (kind : Token → Bool) (item : Reader α) : Reader (List α) := fun lexemes => do
  let (first, lexemes) ← item lexemes
  let (others, lexemes) ← many kind item lexemes
  return (first :: others, lexemes)

/-- Reads what stands between two marks. -/
def between (opening closing : Char) (content : Reader α) : Reader α := fun lexemes => do
  let lexemes ← mark opening lexemes
  let (a, lexemes) ← content lexemes
  let lexemes ← mark closing lexemes
  return (a, lexemes)

/-- Reads what follows a mark. -/
def afterMark (c : Char) (content : Reader α) : Reader α := fun lexemes => do
  content (← mark c lexemes)

/-- Reads what follows a keyword. -/
def afterWord (word : String) (content : Reader α) : Reader α := fun lexemes => do
  content (← one (isWord word) lexemes)

/-- Reads items with a mark between each two, which may also
stand before the first. -/
def separated (c : Char) (item : Reader α) : Reader (List α) := fun lexemes => do
  let lexemes := if next (isMark c) lexemes then lexemes.drop 1 else lexemes
  let (first, lexemes) ← item lexemes
  let (others, lexemes) ← many (isMark c) (afterMark c item) lexemes
  return (first :: others, lexemes)

end Reader

/-- How deep lists and objects may nest in types, in literals and
in selections. -/
def nestingLimit : Nat := 500

open Reader

/-- Reads a type inside of which `inner` reads the items of a list. -/
def typeWith (inner : Reader TypeRef) : Reader TypeRef := fun lexemes => do
  let (type, lexemes) ←
    if next (isMark '[') lexemes then (between '[' ']' inner lexemes).map fun (t, rest) => (.list t, rest)
    else (name lexemes).map fun (n, rest) => (.ofName n, rest)
  match one (isMark '!') lexemes with
  | some rest => return (.nonNull type, rest)
  | none => return (type, lexemes)

/-- Reads a type in which lists nest at most `room` deep. -/
def typeWithin : Nat → Reader TypeRef
  | 0 => typeWith fun _ => none
  | room + 1 => typeWith (typeWithin room)

def typeRef : Reader TypeRef := typeWithin nestingLimit

/-- The literal that a name is. Names that are no keyword stand
for their own text. -/
def wordLiteral (word : String) : Literal :=
  if word = "null" then .null
  else if word = "true" then .bool true
  else if word = "false" then .bool false
  else .string word

/-- Reads the field of an object. Its value may be missing
together with the colon. -/
def literalField (item : Reader Literal) : Reader (String × Option Literal) := fun lexemes => do
  let (key, lexemes) ← name lexemes
  let (value, lexemes) ←
    whenNext (isMark ':') (fun ls => (afterMark ':' item ls).map fun (v, rest) => (some v, rest)) none lexemes
  return ((key, value), lexemes)

/-- Reads a literal. Variables are read by `unknown` and the parts of lists
and objects by `item`. -/
def literalWith (unknown item : Reader Literal) : Reader Literal
  | ⟨_, .int digits⟩ :: rest => some (.int digits, rest)
  | ⟨_, .float digits⟩ :: rest => some (.float digits, rest)
  | ⟨_, .string body⟩ :: rest => some (.string (String.ofList (unescape body)), rest)
  | ⟨_, .block body⟩ :: rest => some (.string (String.ofList (Text.trim (unescapeBlock body))), rest)
  | ⟨_, .name word⟩ :: rest => some (wordLiteral word, rest)
  | ⟨gap, .mark c⟩ :: rest =>
    if c = '[' then do
      let (items, rest) ← many (! isMark ']' ·) item rest
      return (.list items, ← mark ']' rest)
    else if c = '\x7b' then do
      let (fields, rest) ← many isName (literalField item) rest
      return (.object fields, ← mark '\x7d' rest)
    else unknown (⟨gap, .mark c⟩ :: rest)
  | _ => none

/-- Reads a literal in which lists and objects nest at most `room` deep. -/
def literalWithin (unknown : Reader Literal) : Nat → Reader Literal
  | 0 => literalWith unknown fun _ => none
  | room + 1 => literalWith unknown (literalWithin unknown room)

/-- Reads a literal without variables. -/
def constant : Reader Literal := literalWithin (fun _ => none) nestingLimit

/-- Passes over arguments, whose values `value` reads. -/
def skipArguments (value : Reader Literal) : Reader Unit := fun lexemes => do
  let (_, lexemes) ← between '(' ')' (some1 isName (literalField value)) lexemes
  return ((), lexemes)

/-- Passes over directives, the values of whose arguments `value` reads. -/
def skipDirectives (value : Reader Literal) : Reader Unit := fun lexemes => do
  let (_, lexemes) ← many (isMark '@') (fun ls => do
    let (_, ls) ← afterMark '@' name ls
    whenNext (isMark '(') (skipArguments value) () ls) lexemes
  return ((), lexemes)

end SelectionEngine.Definitions
