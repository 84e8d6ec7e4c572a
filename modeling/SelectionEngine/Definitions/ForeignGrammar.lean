import SelectionEngine.Definitions.Grammar

namespace SelectionEngine.Definitions.Foreign

open Reader

/-- Whether something was read. -/
def present (kind : Token → Bool) (item : Reader Unit) : Reader Bool :=
  whenNext kind (fun lexemes => (item lexemes).map fun (_, rest) => (true, rest)) false

/-- Reads a name other than some reserved ones. -/
def nameBut (reserved : List String) : Reader Unit := fun lexemes => do
  let (word, lexemes) ← name lexemes
  if reserved.contains word then none else some ((), lexemes)

def enumValue : Reader Unit := fun lexemes => do
  let (_, lexemes) ← nameBut ["true", "false", "null"] (skipDescription lexemes)
  skipDirectives constant lexemes

def enumValues : Reader Unit := fun lexemes => do
  let (_, lexemes) ← between '\x7b' '\x7d' (some1 isDescribed enumValue) lexemes
  return ((), lexemes)

def unionMembers : Reader Unit := fun lexemes => do
  let (_, lexemes) ← afterMark '=' (separated '|' name) lexemes
  return ((), lexemes)

/-- Reads the parts of a type extension, of which one has to be there. -/
def extended (parts : List (Reader Bool)) : Reader Unit := fun lexemes => do
  let (found, lexemes) ← parts.foldlM (fun (found, lexemes) part => do
    let (more, lexemes) ← part lexemes
    return (found || more, lexemes)) (false, lexemes)
  if found then some ((), lexemes) else none

def directives : Reader Bool := present (isMark '@') (skipDirectives constant)

def unit {α : Type} (item : Reader α) : Reader Unit := fun lexemes =>
  (item lexemes).map fun (_, rest) => ((), rest)

def interfaces : Reader Bool := present (isWord "implements") (unit interfaceNames)

def fields : Reader Bool := present (isMark '\x7b') (unit fieldClauses)

/-- Reads the entries of a schema extension, whose braces may be empty. -/
def roots : Reader Bool :=
  whenNext (isMark '\x7b') (fun lexemes => do
    let (clauses, lexemes) ← between '\x7b' '\x7d' (many isName rootClause) lexemes
    return (!clauses.isEmpty, lexemes)) false

/-- Reads an extension, after its first keyword. No comma follows that. -/
def extension (lexemes : List Lexeme) : Option (Unit × List Lexeme) := do
  if nextFollowsComma lexemes then none
  let (kind, lexemes) ← name lexemes
  if kind = "schema" then
    extended [directives, roots] lexemes
  else do
    let (_, lexemes) ← name lexemes
    match kind with
    | "scalar" => extended [directives] lexemes
    | "type" | "interface" => extended [interfaces, directives, fields] lexemes
    | "union" => extended [directives, present (isMark '=') unionMembers] lexemes
    | "enum" => extended [directives, present (isMark '\x7b') enumValues] lexemes
    | "input" => extended [directives, present (isMark '\x7b') (unit inputClauses)] lexemes
    | _ => none

/-- Reads a variable, whose value is not known. -/
def variableName : Reader Literal := fun lexemes =>
  (afterMark '$' name lexemes).map fun (_, rest) => (.null, rest)

/-- Reads a literal that may have variables in it. -/
def input : Reader Literal := literalWithin variableName nestingLimit

def variableDefinition : Reader Unit := fun lexemes => do
  let (_, lexemes) ← variableName lexemes
  let (_, lexemes) ← afterMark ':' typeRef lexemes
  let (_, lexemes) ← whenNext (isMark '=') (unit (afterMark '=' constant)) () lexemes
  skipDirectives constant lexemes

def variableDefinitions : Reader Unit := unit (between '(' ')' (some1 (isMark '$') variableDefinition))

/-- Reads the name of a field, after an alias if there is one. The colon after
that follows no comma. -/
def fieldName : Reader Unit := fun lexemes => do
  let (_, lexemes) ← name lexemes
  if nextFollowsComma lexemes then some ((), lexemes)
  else whenNext (isMark ':') (unit (afterMark ':' name)) () lexemes

def typeCondition : Reader Unit := unit (afterWord "on" name)

/-- Reads a selection below which `selections` reads the selection sets. No
comma follows a spread. -/
def selectionWith (selections : Reader Unit) : Reader Unit := fun lexemes =>
  match lexemes with
  | ⟨_, .spread⟩ :: rest =>
    if nextFollowsComma rest then none
    else if next isName rest && !next (isWord "on") rest then do
      let (_, rest) ← name rest
      skipDirectives input rest
    else do
      let (_, rest) ← whenNext (isWord "on") typeCondition () rest
      let (_, rest) ← skipDirectives input rest
      selections rest
  | _ => do
    let (_, rest) ← fieldName lexemes
    let (_, rest) ← whenNext (isMark '(') (skipArguments input) () rest
    let (_, rest) ← skipDirectives input rest
    whenNext (isMark '\x7b') selections () rest

def isSelection (token : Token) : Bool := isName token || token = .spread

/-- Reads a selection set in which selection sets nest at most `room` deep. -/
def selectionsWithin : Nat → Reader Unit
  | 0 => fun _ => none
  | room + 1 => unit (between '\x7b' '\x7d' (some1 isSelection (selectionWith (selectionsWithin room))))

def selections : Reader Unit := selectionsWithin nestingLimit

/-- Reads an operation, after its keyword. -/
def operation : Reader Unit := fun lexemes => do
  let (_, lexemes) ← whenNext isName (unit name) () lexemes
  let (_, lexemes) ← whenNext (isMark '(') variableDefinitions () lexemes
  let (_, lexemes) ← skipDirectives input lexemes
  selections lexemes

/-- Reads a fragment definition, after its keyword. -/
def fragment : Reader Unit := fun lexemes => do
  let (_, lexemes) ← nameBut ["on"] lexemes
  let (_, lexemes) ← typeCondition lexemes
  let (_, lexemes) ← skipDirectives input lexemes
  selections lexemes

/-- Reads a union or enum definition, after its keyword. -/
def unionDefinition : Reader Unit := fun lexemes => do
  let (_, lexemes) ← name lexemes
  let (_, lexemes) ← skipDirectives constant lexemes
  whenNext (isMark '=') unionMembers () lexemes

def enumDefinition : Reader Unit := fun lexemes => do
  let (_, lexemes) ← name lexemes
  let (_, lexemes) ← skipDirectives constant lexemes
  whenNext (isMark '\x7b') enumValues () lexemes

/-- Reads a definition that is well formed and not one that schemas are made of.
After a description the word `fragment` is the name of a fragment. -/
def definition (lexemes : List Lexeme) : Option (Unit × List Lexeme) :=
  match skipDescription lexemes with
  | ⟨_, .name "union"⟩ :: rest => unionDefinition rest
  | ⟨_, .name "enum"⟩ :: rest => enumDefinition rest
  | _ => match lexemes with
    | ⟨_, .name "extend"⟩ :: rest => extension rest
    | ⟨_, .name "fragment"⟩ :: rest => fragment rest
    | ⟨_, .name "query"⟩ :: rest | ⟨_, .name "mutation"⟩ :: rest | ⟨_, .name "subscription"⟩ :: rest =>
      operation rest
    | ⟨_, .mark '\x7b'⟩ :: _ => selections lexemes
    | first :: rest => if isDescription first.token && next (isWord "fragment") rest then fragment rest else none
    | [] => none

end SelectionEngine.Definitions.Foreign
