import SelectionEngine.Pattern.Grouping
import SelectionEngine.Text.Number
import SelectionEngine.Text.Offset

namespace SelectionEngine.LogFilter

/-- Why a text is no list of directives. -/
inductive Fault where
  | malformed
  /-- A part of a directive ends inside of a character. -/
  | brokenCharacter

/-- The names of the log levels. -/
def levelNames : List String := ["off", "error", "warn", "info", "debug", "trace"]

/-- Whether a text names a level, by its name in any case or by its number.
Nothing is a level, too. -/
def isLevel (text : List Char) : Bool :=
  text.isEmpty || (Text.word64? text).any (· ≤ 5) || levelNames.contains (String.ofList (text.map Char.toLower))

/-- Whether a text is a field `name=value`. The value may be missing; else it is
a number or a pattern, and what follows a second `=` is of no account. -/
def isField (text : List Char) : Bool :=
  match text.dropWhile (· != '=') with
  | [] => !text.isEmpty
  | _ :: rest =>
    let value := rest.takeWhile (· != '=')
    Text.isNumber value || Pattern.isPattern value

/-- The parts of a directive `target[span\x7bfield\x7d]=level`, some with the
place where they start. -/
inductive Part where
  | start
  | target
  | span (start : Nat)
  | field (start : Nat)
  | afterFields
  | afterSpan

/-- Goes on if a condition holds. -/
def require (condition : Bool) : Except Fault Unit := if condition then .ok () else .error .malformed

/-- The characters of a directive between two places. -/
def excerpt (whole : List Char) (start stop : Nat) : Except Fault (List Char) :=
  match Text.excerpt? start stop whole with
  | some text => .ok text
  | none => .error .brokenCharacter

/-- Checks the level of a directive, which starts at a place and
goes on to its end. -/
def checkLevel (whole : List Char) (start : Nat) : Except Fault Unit :=
  match Text.dropBytes? start whole with
  | some text => require (isLevel text)
  | none => .error .brokenCharacter

/-- Checks a directive from a place on. Places are counted in bytes without the
blanks before a directive, but what is between two places is looked up in the
whole directive, where those blanks count. -/
def checkFrom (whole : List Char) (place : Nat) : Part → List Char → Except Fault Unit
  | .target, [] | .afterSpan, [] => .ok ()
  | _, [] => .error .malformed
  | part, c :: rest =>
    let next := place + c.utf8Size
    match part with
    | .start =>
      if c = '[' then checkFrom whole next (.span next) rest
      else if c = '-' ∨ c = ':' ∨ c = '_' ∨ Text.isAlphanumeric c then checkFrom whole next .target rest
      else .error .malformed
    | .target =>
      if c = '=' ∨ c = '[' then do
        let _ ← excerpt whole 0 place
        if c = '=' then checkLevel whole next else checkFrom whole next (.span next) rest
      else checkFrom whole next .target rest
    | .span start =>
      if c = ']' ∨ c = '\x7b' then do
        let _ ← excerpt whole start place
        checkFrom whole next (if c = ']' then .afterSpan else .field next) rest
      else checkFrom whole next (.span start) rest
    | .field start =>
      if c = '\x7d' then do
        require (isField (← excerpt whole start place))
        checkFrom whole next .afterFields rest
      else checkFrom whole next (.field start) rest
    | .afterFields => do
      require (c == ']')
      checkFrom whole next .afterSpan rest
    | .afterSpan => do
      require (c == '=')
      checkLevel whole next

def checkDirective (whole : List Char) : Except Fault Unit := checkFrom whole 0 .start (Text.trim whole)

/-- Checks a list of directives with commas between them. Empty
ones are passed over. -/
def check (filter : String) : Except Fault Unit :=
  ((filter.splitOn ",").filter (! ·.isEmpty)).forM fun directive => checkDirective directive.toList

end SelectionEngine.LogFilter
