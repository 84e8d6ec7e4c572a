namespace SelectionEngine.Yaml

/-- Where a character stands in a text. -/
structure Place where
  index : Nat
  line : Nat
  column : Nat
deriving DecidableEq

/-- The rest of a text, with the place of every character. -/
abbrev Cursor := List (Char × Place)

/-- The characters of a text from a place on. A carriage return and the line
feed after it are one line end. A carriage return of its own ends a line too,
but columns are counted on past it. -/
def Cursor.ofChars : Place → List Char → Cursor
  | _, [] => []
  | place, '\r' :: '\n' :: rest => ('\n', place) :: ofChars ⟨place.index + 2, place.line + 1, 0⟩ rest
  | place, '\n' :: rest => ('\n', place) :: ofChars ⟨place.index + 1, place.line + 1, 0⟩ rest
  | place, c :: rest => (c, place) :: ofChars ⟨place.index + 1, place.line, place.column + 1⟩ rest

/-- The characters of a text, which ends before a null character. -/
def Cursor.ofText (text : String) : Cursor := ofChars ⟨0, 0, 0⟩ (text.toList.takeWhile (· ≠ '\x00'))

namespace Cursor

def isLineEnd (c : Char) : Bool := c == '\n' || c == '\r'

def isBlank (c : Char) : Bool := c == ' ' || c == '\t'

/-- The characters that are marks of their own inside brackets and braces. -/
def flowMarks : List Char := [',', '[', ']', '\x7b', '\x7d']

/-- Whether the text is at its end, or at a blank or the end of a line. -/
def atGap : Cursor → Bool
  | [] => true
  | (c, _) :: _ => isBlank c || isLineEnd c

/-- Whether a colon with this text after it separates a key from its value. -/
def separates (flow : Bool) (rest : Cursor) : Bool :=
  atGap rest || (flow && rest.head?.any fun c => flowMarks.contains c.1)

/-- Whether a line starts with three times the mark, as the first or last
line of a document does. -/
def atRuler (mark : Char) : Cursor → Bool
  | (a, place) :: (b, _) :: (c, _) :: rest =>
    place.column == 0 && a == mark && b == mark && c == mark && atGap rest
  | _ => false

def atDocumentMark (cursor : Cursor) : Bool := atRuler '-' cursor || atRuler '.' cursor

end Cursor

end SelectionEngine.Yaml
