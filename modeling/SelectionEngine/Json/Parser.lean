import SelectionEngine.Json.Document
import SelectionEngine.Text.CodeUnit

namespace SelectionEngine.Json

def isSpace (c : Char) : Bool := c == ' ' || c == '\n' || c == '\t' || c == '\r'

def skipSpace (text : List Char) : List Char := text.dropWhile isSpace

/-- Reads the four hexadecimal digits of a code unit. -/
def readUnit : List Char → Option (Nat × List Char)
  | a :: b :: c :: d :: rest => (Text.natural? 16 [a, b, c, d]).map (·, rest)
  | _ => none

/-- The character of a short escape. -/
def shortEscape? : Char → Option Char
  | '"' => some '"'
  | '\\' => some '\\'
  | '/' => some '/'
  | 'b' => some '\x08'
  | 'f' => some '\x0c'
  | 'n' => some '\n'
  | 'r' => some '\r'
  | 't' => some '\t'
  | _ => none

/-- Adds a character to a text, if there is one to add it to. -/
def prepend (c : Char) : Option (List Char) × List Char → Option (List Char) × List Char
  | (text, rest) => (text.map (c :: ·), rest)

/-- Reads a string up to its closing quote. The text is missing if an escape in
it names half a surrogate pair. -/
def readString : Nat → List Char → Option (Option (List Char) × List Char)
  | 0, _ => none
  | fuel + 1, text => match text with
    | '"' :: rest => some (some [], rest)
    | '\\' :: 'u' :: rest => do
      let (unit, rest) ← readUnit rest
      if Text.isHighSurrogate unit then
        match rest with
        | '\\' :: 'u' :: after =>
          let (low, after) ← readUnit after
          if Text.isLowSurrogate low then
            return prepend (Char.ofNat (Text.pairCodePoint unit low)) (← readString fuel after)
          else return (none, (← readString fuel rest).2)
        | _ => return (none, (← readString fuel rest).2)
      else if Text.isLowSurrogate unit then return (none, (← readString fuel rest).2)
      else return prepend (Char.ofNat unit) (← readString fuel rest)
    | '\\' :: c :: rest => do
      let escaped ← shortEscape? c
      return prepend escaped (← readString fuel rest)
    | c :: rest => if c.toNat < 0x20 then none else do return prepend c (← readString fuel rest)
    | [] => none

/-- Reads the digits of an exponent, after the letter. -/
def readExponent (text : List Char) : Option (Int × List Char) :=
  let (negative, text) := match text with
    | '-' :: rest => (true, rest)
    | '+' :: rest => (false, rest)
    | rest => (false, rest)
  let (digits, rest) := Text.spanDigits text
  (Text.natural? 10 digits).map fun n => (if negative then -(n : Int) else n, rest)

/-- The value of an integer numeral: `-0` and integers beyond 64
bits are doubles. -/
def integerValue? (negative : Bool) (digits : List Char) : Option Value :=
  let n := (Text.natural? 10 digits).getD 0
  let m : Int := if negative then -(n : Int) else n
  if (negative ∧ n = 0) ∨ m < -0x8000000000000000 ∨ UInt64.size ≤ m then
    (Decimal.ofDigits negative digits [] 0).toDouble?.map .double
  else some (.int m)

def ofOption? : Option Value → Document
  | some v => .atom v
  | none => .unreadable

/-- Reads a number after its sign. A zero is not followed by a digit. -/
def readNumber (negative : Bool) (text : List Char) : Option (Document × List Char) := do
  let (whole, rest) := Text.spanDigits text
  if whole.isEmpty ∨ (whole.head? = some '0' ∧ 1 < whole.length) then none
  let (fraction, rest) ← match rest with
    | '.' :: rest =>
      let (fraction, rest) := Text.spanDigits rest
      if fraction.isEmpty then none else some (some fraction, rest)
    | rest => some (none, rest)
  let (exponent, rest) ← match rest with
    | 'e' :: rest | 'E' :: rest => (readExponent rest).map fun (e, rest) => (some e, rest)
    | rest => some (none, rest)
  if fraction.isNone ∧ exponent.isNone then return (ofOption? (integerValue? negative whole), rest)
  let decimal := Decimal.ofDigits negative whole (fraction.getD []) (exponent.getD 0)
  return (ofOption? (decimal.toDouble?.map .double), rest)

/-- The members of an object, if every key of them is readable. -/
def object? (members : List (Option (List Char) × Document)) : Document :=
  match members.mapM fun (key, d) => key.map fun k => (String.ofList k, d) with
  | some members => .object members
  | none => .unreadable

/-- A container nested in `room` more, which has no value once
there is no room. -/
def within (room : Nat) (container : Document) : Document :=
  if room = 0 then .unreadable else container

mutual

/-- Reads one value. Containers may nest `room` deep and have no
value below that. -/
def readDocument : Nat → Nat → List Char → Option (Document × List Char)
  | 0, _, _ => none
  | fuel + 1, room, text => match text with
    | '"' :: rest => do
      let (text, rest) ← readString fuel rest
      return (ofOption? (text.map fun t => .string (String.ofList t)), rest)
    | '[' :: rest =>
      match skipSpace rest with
      | ']' :: rest => some (within room (.array []), rest)
      | rest => do
        let (items, rest) ← readItems fuel (room - 1) rest
        return (within room (.array items), rest)
    | '\x7b' :: rest =>
      match skipSpace rest with
      | '\x7d' :: rest => some (within room (.object []), rest)
      | rest => do
        let (members, rest) ← readMembers fuel (room - 1) rest
        return (within room (object? members), rest)
    | 'n' :: 'u' :: 'l' :: 'l' :: rest => some (.atom .null, rest)
    | 't' :: 'r' :: 'u' :: 'e' :: rest => some (.atom (.bool true), rest)
    | 'f' :: 'a' :: 'l' :: 's' :: 'e' :: rest => some (.atom (.bool false), rest)
    | '-' :: rest => readNumber true rest
    | text => readNumber false text

/-- Reads the items of an array up to its closing bracket. -/
def readItems : Nat → Nat → List Char → Option (List Document × List Char)
  | 0, _, _ => none
  | fuel + 1, room, text => do
    let (item, rest) ← readDocument fuel room (skipSpace text)
    match skipSpace rest with
    | ',' :: rest =>
      let (items, rest) ← readItems fuel room rest
      return (item :: items, rest)
    | ']' :: rest => return ([item], rest)
    | _ => none

/-- Reads the members of an object up to its closing brace. -/
def readMembers : Nat → Nat → List Char → Option (List (Option (List Char) × Document) × List Char)
  | 0, _, _ => none
  | fuel + 1, room, text => do
    let '"' :: rest := skipSpace text | none
    let (key, rest) ← readString fuel rest
    let ':' :: rest := skipSpace rest | none
    let (item, rest) ← readDocument fuel room (skipSpace rest)
    match skipSpace rest with
    | ',' :: rest =>
      let (members, rest) ← readMembers fuel room rest
      return ((key, item) :: members, rest)
    | '\x7d' :: rest => return ([(key, item)], rest)
    | _ => none

end

/-- How deep the containers of a text may nest. -/
def nestingLimit : Nat := 127

/-- Reads a whole text. -/
def Document.parse? (text : String) : Option Document := do
  let text := text.toList
  let (document, rest) ← readDocument (2 * text.length + 2) nestingLimit (skipSpace text)
  if (skipSpace rest).isEmpty then some document else none

end SelectionEngine.Json

namespace SelectionEngine.Value

/-- Reads a JSON text. -/
def ofJson? (text : String) : Option Value := (Json.Document.parse? text).bind Json.Document.toValue?

end SelectionEngine.Value
