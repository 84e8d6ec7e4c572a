import SelectionEngine.Pattern.CharacterSet
import SelectionEngine.Text.Alphabetic

namespace SelectionEngine.Pattern

/-- A token of a pattern. -/
inductive Token where
  /-- Something that matches, with the layers that it has. -/
  | atom (layers : Nat)
  /-- A change of the mode. -/
  | switch
  | repetition
  | bar
  /-- The start of a group, which may have a name. -/
  | opening (name : Option String)
  | closing
deriving DecidableEq

namespace Token

/-- The name of a group. -/
def name? : Token → Option String
  | opening name => name
  | _ => none

end Token

/-- Reads the name of a group up to its closing bracket. -/
def groupName? (text : List Char) : Option (String × List Char) :=
  let (name, rest) := text.span (· != '>')
  match name, rest with
  | first :: others, _ :: rest =>
    if (first == '_' || Text.isAlphabetic first) &&
        others.all fun c => ['_', '.', '[', ']'].contains c || Text.isAlphanumeric c then
      some (String.ofList name, rest)
    else none
  | _, _ => none

/-- Reads the start of a group after its bracket, with the mode inside of it, or
a change of the mode. -/
def group? (mode : Mode) (text : List Char) : Option (Token × Mode × List Char) :=
  match mode.skip text with
  | '?' :: 'P' :: '<' :: rest | '?' :: '<' :: rest => do
    let (name, rest) ← groupName? rest
    return (.opening (some name), mode, rest)
  | '?' :: rest =>
    let (letters, rest) := rest.span fun c => c != ':' && c != ')'
    if areSwitches letters then match rest with
      | ':' :: rest => some (.opening none, mode.apply letters, rest)
      | ')' :: rest => if letters.isEmpty then none else some (.switch, mode.apply letters, rest)
      | _ => none
    else none
  | rest => some (.opening none, mode, rest)

/-- An atom as a token. -/
def atomToken? (mode : Mode) (atom : Atom) (rest : List Char) : Option (Token × List Char) :=
  if atom.isKnown mode then some (.atom 0, rest) else none

/-- Reads a token that starts with a character and is no bracket of a group.
Braces do not count repetitions. -/
def token? (mode : Mode) (c : Char) (rest : List Char) : Option (Token × List Char) :=
  match c with
  | '|' => some (.bar, rest)
  | '?' | '*' | '+' => some (.repetition, if rest.head? = some '?' then rest.drop 1 else rest)
  | '\x7b' => none
  | '[' => (set? mode rest).map fun (layers, rest) => (.atom layers, rest)
  | '\\' => (escape? mode rest).bind fun (atom, rest) => atomToken? mode atom rest
  | '.' => atomToken? mode .any rest
  | '^' | '$' => atomToken? mode .edge rest
  | c => atomToken? mode (.literal c false) rest

/-- Reads at most `fuel` tokens up to the end of the text. At the end of a group
the mode around it holds again. -/
def readTokens? : Nat → Mode → List Mode → List Char → Option (List Token)
  | 0, _, _, _ => none
  | fuel + 1, mode, outer, text =>
    match mode.skip text with
    | [] => some []
    | '(' :: rest => do
      let (token, inner, rest) ← group? mode rest
      return token :: (← readTokens? fuel inner (if token = .switch then outer else mode :: outer) rest)
    | ')' :: rest => match outer with
      | [] => none
      | mode :: outer => (readTokens? fuel mode outer rest).map (.closing :: ·)
    | c :: rest => do
      let (token, rest) ← token? mode c rest
      return token :: (← readTokens? fuel mode outer rest)

/-- The tokens of a pattern. -/
def tokens? (text : List Char) : Option (List Token) := readTokens? (text.length + 1) {} [] text

end SelectionEngine.Pattern
