import SelectionEngine.Pattern.Mode
import SelectionEngine.Text.CodeUnit

namespace SelectionEngine.Pattern

/-- What stands in a pattern for a character or for a place
between two of them. -/
inductive Atom where
  /-- A character itself, which may be given as a byte. -/
  | literal (c : Char) (isByte : Bool)
  | any
  /-- A digit, a blank or a character of a word, or any other character. -/
  | kind (isNegated : Bool)
  /-- An end of a line or of the text. -/
  | edge
  /-- An end of a word, or a place that is none. -/
  | wordEdge

namespace Atom

/-- Whether an atom can be matched. Digits, blanks, words and cases are known
for ASCII alone, and a byte that is no character never matches. -/
def isKnown (mode : Mode) : Atom → Bool
  | literal c isByte => if mode.unicode then !mode.ignoresCase else !isByte || c.toNat < 0x80
  | any => mode.unicode
  | kind isNegated => !mode.unicode && !isNegated
  | edge => true
  | wordEdge => !mode.unicode

/-- Whether an atom can be in a set. Sets of bytes hold ASCII alone. -/
def isMember (mode : Mode) : Atom → Bool
  | literal c _ => if mode.unicode then !mode.ignoresCase else c.toNat < 0x80
  | kind isNegated => isKnown mode (kind isNegated)
  | _ => false

/-- Whether two atoms are the ends of a range. -/
def areRange (mode : Mode) : Atom → Atom → Bool
  | literal c isByte, literal d isByte' =>
    c ≤ d && isMember mode (literal c isByte) && isMember mode (literal d isByte')
  | _, _ => false

end Atom

/-- Reads hexadecimal digits, which go on with those of `value`. -/
def codePoint? (mode : Mode) : Nat → Nat → List Char → Option (Nat × List Char)
  | 0, value, text => some (value, text)
  | count + 1, value, text => match mode.skip text with
    | [] => none
    | c :: rest => do codePoint? mode count (16 * value + (← Text.digit? 16 c)) rest

/-- Reads a character that is given by the digits of its code point. -/
def codedLiteral? (mode : Mode) (digits : Nat) (isByte : Bool) (text : List Char) : Option (Atom × List Char) := do
  let (value, rest) ← codePoint? mode digits 0 text
  return (.literal (← Text.character? value) isByte, rest)

/-- The control character that a letter stands for after a backslash. -/
def controlCharacter? (c : Char) : Option Char :=
  List.lookup c [('a', '\x07'), ('t', '\t'), ('n', '\n'), ('v', '\x0b'), ('f', '\x0c'), ('r', '\r')]

/-- Whether a character may stand for itself after a backslash. -/
def isEscapable (c : Char) : Bool := c.toNat < 0x80 && !c.isAlphanum && c != '<' && c != '>'

/-- Reads an atom after its backslash. There are no references to groups and no
properties of characters. -/
def escape? (mode : Mode) : List Char → Option (Atom × List Char)
  | [] => none
  | c :: rest =>
    match c with
    | 'x' => codedLiteral? mode 2 true rest
    | 'u' => codedLiteral? mode 4 false rest
    | 'U' => codedLiteral? mode 8 false rest
    | 'd' | 's' | 'w' => some (.kind false, rest)
    | 'D' | 'S' | 'W' => some (.kind true, rest)
    | 'A' | 'z' => some (.edge, rest)
    | 'b' | 'B' | '<' | '>' => some (.wordEdge, rest)
    | c =>
      if isEscapable c then some (.literal c false, rest)
      else (controlCharacter? c).map fun d => (.literal d false, rest)

end SelectionEngine.Pattern
