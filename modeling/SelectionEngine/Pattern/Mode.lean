import SelectionEngine.Text.Blank

namespace SelectionEngine.Pattern

/-- How a pattern is understood from a place on. -/
structure Mode where
  ignoresCase : Bool := false
  /-- Whether characters are matched and not only their bytes. -/
  unicode : Bool := true
  /-- Whether blanks and comments are passed over. -/
  verbose : Bool := false

/-- The letters that switch something, and the dash after which
they switch it off. -/
def switchLetters : List Char := ['i', 'm', 's', 'U', 'u', 'R', 'x', '-']

/-- Whether letters make up switches. None of them is repeated, and
something follows the dash. -/
def areSwitches (letters : List Char) : Bool :=
  letters.all switchLetters.contains && decide letters.Nodup && letters.getLast? != some '-'

/-- Passes over blanks and over comments, which go on to the end of their line. -/
def skipBlanks (inComment : Bool) : List Char → List Char
  | [] => []
  | c :: rest =>
    if inComment then skipBlanks (c ≠ '\n') rest
    else if c = '#' ∨ Text.isBlank c then skipBlanks (c = '#') rest
    else c :: rest

namespace Mode

/-- Switches what a letter stands for. The other letters change what a pattern
matches, not whether it is one. -/
def switch (on : Bool) (mode : Mode) : Char → Mode
  | 'i' => { mode with ignoresCase := on }
  | 'u' => { mode with unicode := on }
  | 'x' => { mode with verbose := on }
  | _ => mode

/-- Switches on what stands before a dash and off what stands after it. -/
def apply (mode : Mode) (letters : List Char) : Mode :=
  let (on, off) := letters.span (· != '-')
  off.foldl (switch false) (on.foldl (switch true) mode)

/-- Passes over what has no meaning. -/
def skip (mode : Mode) (text : List Char) : List Char :=
  if mode.verbose then skipBlanks false text else text

/-- The next character with a meaning, as far as can be seen: of a comment only
the `#` is passed over. -/
def peek? (mode : Mode) (text : List Char) : Option Char :=
  if mode.verbose then match text.dropWhile Text.isBlank with
    | '#' :: rest => (rest.dropWhile Text.isBlank).head?
    | rest => rest.head?
  else text.head?

end Mode

end SelectionEngine.Pattern
