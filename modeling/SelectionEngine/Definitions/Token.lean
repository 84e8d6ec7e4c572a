import SelectionEngine.Text.CodeUnit

namespace SelectionEngine.Definitions

/-- A token of the schema definition language. Literals are kept
as they are written. -/
inductive Token where
  | mark (c : Char)
  | spread
  | name (text : String)
  | int (digits : List Char)
  | float (digits : List Char)
  /-- A string, by what stands between its quotes. -/
  | string (body : List Char)
  /-- A string between tripled quotes. -/
  | block (body : List Char)
deriving DecidableEq

/-- The characters that are tokens by themselves. -/
def marks : List Char := ['!', '$', '&', '(', ')', ':', '=', '@', '[', ']', '\x7b', '|', '\x7d']

def isNameStart (c : Char) : Bool := c.isAlpha || c == '_'

def isNamePart (c : Char) : Bool := c.isAlphanum || c == '_'

/-- Whether a character ends a line. -/
def isLineEnd (c : Char) : Bool := c == '\n' || c == '\r'

/-- A name is made of ASCII letters, digits and underscores and does
not start with a digit. -/
def IsName (name : String) : Prop :=
  ∃ c rest, name.toList = c :: rest ∧ isNameStart c = true ∧ rest.all isNamePart = true

namespace Token

/-- The token as it is written. -/
def text : Token → List Char
  | mark c => [c]
  | spread => ['.', '.', '.']
  | name text => text.toList
  | int digits | float digits => digits
  | string body => '"' :: body ++ ['"']
  | block body => '"' :: '"' :: '"' :: body ++ ['"', '"', '"']

/-- Reads a nonempty run of digits, which starts with a zero only
if that is all of it. -/
def readWhole? (text : List Char) : Option (List Char × List Char) :=
  let (digits, rest) := Text.spanDigits text
  if digits.isEmpty ∨ (digits.head? = some '0' ∧ 1 < digits.length) then none else some (digits, rest)

/-- Reads the point and the digits of a fraction, if there is a point. -/
def readFraction? : List Char → Option (List Char × List Char)
  | '.' :: rest =>
    let (digits, rest) := Text.spanDigits rest
    if digits.isEmpty then none else some ('.' :: digits, rest)
  | text => some ([], text)

/-- Splits off a sign. -/
def spanSign : List Char → List Char × List Char
  | '+' :: rest => (['+'], rest)
  | '-' :: rest => (['-'], rest)
  | text => ([], text)

/-- Reads the letter, the sign and the digits of an exponent, if there is one. -/
def readExponent? : List Char → Option (List Char × List Char)
  | [] => some ([], [])
  | c :: rest =>
    if c = 'e' ∨ c = 'E' then
      let (sign, rest) := spanSign rest
      let (digits, rest) := Text.spanDigits rest
      if digits.isEmpty then none else some (c :: sign ++ digits, rest)
    else some ([], c :: rest)

/-- Whether a number may end where this text goes on. -/
def endsNumber : List Char → Bool
  | [] => true
  | c :: _ => !(isNameStart c || c == '.')

/-- Reads a number, which no name may follow without a blank. -/
def readNumber? (text : List Char) : Option (Token × List Char) := do
  let (sign, rest) := match text with
    | '-' :: rest => (['-'], rest)
    | rest => ([], rest)
  let (whole, rest) ← readWhole? rest
  let (fraction, rest) ← readFraction? rest
  let (exponent, rest) ← readExponent? rest
  if !endsNumber rest then none
  let digits := sign ++ whole ++ fraction ++ exponent
  return (if fraction.isEmpty ∧ exponent.isEmpty then int digits else float digits, rest)

/-- Splits off the rest of the body of a string, up to the first quote after no
backslash of its own. -/
def readBody? : List Char → Option (List Char × List Char)
  | [] => none
  | '"' :: rest => some ([], rest)
  | '\\' :: c :: rest =>
    if isLineEnd c then none
    else (readBody? rest).map fun (body, rest) => ('\\' :: c :: body, rest)
  | c :: rest =>
    if isLineEnd c then none
    else (readBody? rest).map fun (body, rest) => (c :: body, rest)

/-- Splits off the body of a string after its first quote. Only there it may
have the end of a line. -/
def readString? : List Char → Option (List Char × List Char)
  | [] => none
  | c :: rest =>
    if isLineEnd c then (readBody? rest).map fun (body, rest) => (c :: body, rest)
    else readBody? (c :: rest)

/-- Splits off the body of a block string. Its quotes may be
tripled after a backslash. -/
def readBlock? : List Char → Option (List Char × List Char)
  | [] => none
  | '\\' :: '"' :: '"' :: '"' :: rest =>
    (readBlock? rest).map fun (body, rest) => ('\\' :: '"' :: '"' :: '"' :: body, rest)
  | '"' :: '"' :: '"' :: rest => some ([], rest)
  | c :: rest => (readBlock? rest).map fun (body, rest) => (c :: body, rest)

/-- Whether the text starts with the digits of a code point and a
closing brace. -/
def bracedCodePoint (text : List Char) : Bool :=
  let (digits, rest) := text.span fun c => (Text.digit? 16 c).isSome
  rest.head? = some '\x7d' && ((Text.natural? 16 digits).bind Text.character?).isSome

/-- Whether every escape of a body is one of the language. Surrogates
have to come in pairs. -/
def wellEscaped : List Char → Bool
  | [] => true
  | '\\' :: 'u' :: '\x7b' :: rest => bracedCodePoint rest && wellEscaped rest
  | '\\' :: 'u' :: a :: b :: c :: d :: rest =>
    match Text.natural? 16 [a, b, c, d] with
    | none => false
    | some unit =>
      if Text.isHighSurrogate unit then
        match rest with
        | '\\' :: 'u' :: a :: b :: c :: d :: rest =>
          (Text.natural? 16 [a, b, c, d]).any Text.isLowSurrogate && wellEscaped rest
        | _ => false
      else !Text.isLowSurrogate unit && wellEscaped rest
  | '\\' :: c :: rest => ['"', '\\', '/', 'b', 'f', 'n', 'r', 't'].contains c && wellEscaped rest
  | _ :: rest => wellEscaped rest

/-- Reads the token at the start of the text. -/
def read? : List Char → Option (Token × List Char)
  | '.' :: '.' :: '.' :: rest => some (spread, rest)
  | '"' :: '"' :: '"' :: rest => (readBlock? rest).map fun (body, rest) => (block body, rest)
  | '"' :: rest => do
    let (body, rest) ← readString? rest
    if wellEscaped body then some (string body, rest) else none
  | c :: rest =>
    if c ∈ marks then some (mark c, rest)
    else if isNameStart c then
      let (part, rest) := rest.span isNamePart
      some (name (String.ofList (c :: part)), rest)
    else readNumber? (c :: rest)
  | [] => none

end Token

end SelectionEngine.Definitions
