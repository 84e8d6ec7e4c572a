import SelectionEngine.Definitions.Token

namespace SelectionEngine.Definitions

/-- A token with the blanks, commas and comments before it. -/
structure Lexeme where
  gap : List Char := []
  token : Token
deriving DecidableEq

/-- The characters that only separate tokens. -/
def isSeparator (c : Char) : Bool :=
  c == ' ' || c == '\t' || c == '\n' || c == '\r' || c == ',' || c == '\ufeff'

/-- Splits off separators and comments. A comment starts with `#` and goes
to the end of its line. -/
def spanGap (inComment : Bool) : List Char → List Char × List Char
  | [] => ([], [])
  | c :: rest =>
    if inComment then
      let (gap, rest) := spanGap (!isLineEnd c) rest
      (c :: gap, rest)
    else if c = '#' ∨ isSeparator c then
      let (gap, rest) := spanGap (c == '#') rest
      (c :: gap, rest)
    else ([], c :: rest)

/-- Whether there is a comma among separators, outside of their comments. -/
def hasComma (inComment : Bool) : List Char → Bool
  | [] => false
  | c :: rest => if inComment then hasComma (!isLineEnd c) rest else c == ',' || hasComma (c == '#') rest

namespace Lexeme

/-- Whether a comma stands before the token. -/
def followsComma (lexeme : Lexeme) : Bool := hasComma false lexeme.gap

def text (lexeme : Lexeme) : List Char := lexeme.gap ++ lexeme.token.text

/-- The lexemes as they are written. -/
def textOfAll (lexemes : List Lexeme) : List Char := lexemes.flatMap text

/-- The lexemes as they are written, without what stands before
the first token. -/
def excerpt : List Lexeme → String
  | [] => ""
  | first :: rest => String.ofList (first.token.text ++ textOfAll rest)

/-- Reads the lexemes of a text, at most as many as `fuel`. -/
def readAll : Nat → List Char → Option (List Lexeme)
  | 0, _ => none
  | fuel + 1, text =>
    let (gap, rest) := spanGap false text
    if rest.isEmpty then some []
    else do
      let (token, rest) ← Token.read? rest
      return ⟨gap, token⟩ :: (← readAll fuel rest)

/-- The lexemes of a text, each of them as long as it can be. -/
def ofText? (text : List Char) : Option (List Lexeme) := readAll (text.length + 1) text

end Lexeme

end SelectionEngine.Definitions
