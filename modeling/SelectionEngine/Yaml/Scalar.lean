import SelectionEngine.Text.CodeUnit
import SelectionEngine.Yaml.Cursor
import SelectionEngine.Yaml.Node

namespace SelectionEngine.Yaml

open Cursor

/-- The blanks and line ends between two words of a scalar. -/
inductive Gap where
  /-- Blanks on one line. -/
  | blanks (text : List Char)
  /-- The end of a line, with a number of empty lines after it. -/
  | lines (empty : Nat)
  /-- The end of a line with a backslash before it, with a number of
  empty lines after it. -/
  | joined (empty : Nat)
deriving DecidableEq

namespace Gap

def none : Gap := blanks []

/-- What a gap is worth. Blanks stay, the end of a line is a blank or nothing,
and empty lines are line feeds. -/
def text : Gap → List Char
  | blanks text => text
  | lines 0 => [' ']
  | lines empty | joined empty => List.replicate empty '\n'

/-- Whether the words are on different lines. -/
def spansLines : Gap → Bool
  | blanks _ => false
  | _ => true

/-- The gap with one more blank, which is worth nothing at the start of a line. -/
def addBlank (c : Char) : Gap → Gap
  | blanks text => blanks (text ++ [c])
  | gap => gap

/-- The gap with one more line end, before which blanks are worth nothing. -/
def addLineEnd : Gap → Gap
  | blanks _ => lines 0
  | lines empty => lines (empty + 1)
  | joined empty => joined (empty + 1)

end Gap

/-- Whether a plain scalar ends at the text after a gap. Outside of brackets and
braces its further lines start at the column `floor` or to the right of it. -/
def endsPlain (flow : Bool) (floor : Nat) (gap : Gap) : Cursor → Bool
  | [] => true
  | (c, place) :: rest =>
    (c == ':' && separates flow rest) || (flow && flowMarks.contains c) ||
      (gap != .none && (c == '#' || (!flow && place.column < floor) || atDocumentMark ((c, place) :: rest)))

/-- Reads a plain scalar from a gap in it on, and says whether the gap after it
goes over the end of a line. -/
def plainText? (flow : Bool) (floor : Nat) : Gap → Cursor → Option ((List Char × Bool) × Cursor)
  | gap, [] => some (([], gap.spansLines), [])
  | gap, (c, place) :: rest =>
    if isLineEnd c then plainText? flow floor gap.addLineEnd rest
    else if isBlank c then
      if gap.spansLines ∧ c = '\t' ∧ place.column < floor then none
      else plainText? flow floor (gap.addBlank c) rest
    else if endsPlain flow floor gap ((c, place) :: rest) then
      some (([], gap.spansLines), (c, place) :: rest)
    else do
      let ((text, spansLines), rest) ← plainText? flow floor .none rest
      return ((gap.text ++ c :: text, spansLines), rest)

/-- The character of a short escape. -/
def shortEscape? (c : Char) : Option Char :=
  List.lookup c
    [('0', '\x00'), ('a', '\x07'), ('b', '\x08'), ('t', '\t'), ('\t', '\t'), ('n', '\n'), ('v', '\x0b'),
      ('f', '\x0c'), ('r', '\r'), ('e', '\x1b'), (' ', ' '), ('"', '"'), ('/', '/'), ('\x27', '\x27'),
      ('\\', '\\'), ('N', '\x85'), ('_', '\xa0'), ('L', '\u2028'), ('P', '\u2029')]

/-- How many hexadecimal digits follow the letter of an escape. -/
def escapeLength? (c : Char) : Option Nat := List.lookup c [('x', 2), ('u', 4), ('U', 8)]

/-- Where the reading of a quoted scalar is. -/
inductive Quoting where
  /-- After a gap between its words. -/
  | gap (gap : Gap)
  /-- After a backslash. -/
  | escape
  /-- Among the digits of an escape. -/
  | digits (missing : Nat) (read : List Char)

/-- Reads the rest of a scalar in quotes. In single quotes a quote is written
twice, and in double quotes a backslash starts an escape. -/
def quotedText? (quote : Char) : Quoting → Cursor → Option (List Char × Cursor)
  | _, [] => none
  | .gap gap, (c, place) :: rest =>
    if isLineEnd c then quotedText? quote (.gap gap.addLineEnd) rest
    else if isBlank c then quotedText? quote (.gap (gap.addBlank c)) rest
    else if atDocumentMark ((c, place) :: rest) then none
    else if c = quote then
      match rest with
      | (d, _) :: after =>
        if quote = '\x27' ∧ d = quote then
          (quotedText? quote (.gap .none) after).map fun (text, rest) => (gap.text ++ c :: text, rest)
        else some (gap.text, rest)
      | [] => some (gap.text, [])
    else if quote = '"' ∧ c = '\\' then
      (quotedText? quote .escape rest).map fun (text, rest) => (gap.text ++ text, rest)
    else (quotedText? quote (.gap .none) rest).map fun (text, rest) => (gap.text ++ c :: text, rest)
  | .escape, (c, _) :: rest =>
    if isLineEnd c then quotedText? quote (.gap (.joined 0)) rest
    else match escapeLength? c with
      | some length => quotedText? quote (.digits length []) rest
      | none => do
        let c ← shortEscape? c
        let (text, rest) ← quotedText? quote (.gap .none) rest
        return (c :: text, rest)
  | .digits missing read, (c, _) :: rest =>
    let read := read ++ [c]
    if missing ≤ 1 then do
      let c ← (Text.natural? 16 read).bind Text.character?
      let (text, rest) ← quotedText? quote (.gap .none) rest
      return (c :: text, rest)
    else quotedText? quote (.digits (missing - 1) read) rest

end SelectionEngine.Yaml
