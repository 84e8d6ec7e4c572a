import SelectionEngine.Value

namespace SelectionEngine.Json

/-- Four hexadecimal digits in lower case. -/
def hex4 (n : Nat) : List Char :=
  [n / 4096 % 16, n / 256 % 16, n / 16 % 16, n % 16].map Nat.digitChar

/-- A character inside a string literal. Only quotes, backslashes and control
characters are escaped. -/
def escape (c : Char) : List Char :=
  if c = '"' then ['\\', '"']
  else if c = '\\' then ['\\', '\\']
  else if c = '\n' then ['\\', 'n']
  else if c = '\r' then ['\\', 'r']
  else if c = '\t' then ['\\', 't']
  else if c = '\x08' then ['\\', 'b']
  else if c = '\x0c' then ['\\', 'f']
  else if c.toNat < 0x20 then '\\' :: 'u' :: hex4 c.toNat
  else [c]

def quote (text : List Char) : List Char := '"' :: text.flatMap escape ++ ['"']

def quoteString (s : String) : List Char := quote s.toList

mutual

/-- The text of a value without any blanks. -/
def compact : Value → List Char
  | .null => "null".toList
  | .bool true => "true".toList
  | .bool false => "false".toList
  | .int n => (toString n).toList
  | .double d => d.text
  | .string s => quoteString s
  | .list [] => ['[', ']']
  | .list (v :: vs) => '[' :: compact v ++ compactItems vs ++ [']']
  | .object [] => ['\x7b', '\x7d']
  | .object ((k, v) :: es) =>
    '\x7b' :: quoteString k ++ ':' :: compact v ++ compactEntries es ++ ['\x7d']

/-- Further items, each after a comma. -/
def compactItems : List Value → List Char
  | [] => []
  | v :: vs => ',' :: compact v ++ compactItems vs

def compactEntries : List (String × Value) → List Char
  | [] => []
  | (k, v) :: es => ',' :: quoteString k ++ ':' :: compact v ++ compactEntries es

end

/-- A new line indented by two blanks for each level. -/
def newline (level : Nat) : List Char := '\n' :: List.replicate (2 * level) ' '

mutual

/-- The text of a value with one item or entry to a line. -/
def indented (level : Nat) : Value → List Char
  | .list (v :: vs) =>
    '[' :: newline (level + 1) ++ indented (level + 1) v ++ indentedItems (level + 1) vs ++
      newline level ++ [']']
  | .object ((k, v) :: es) =>
    '\x7b' :: newline (level + 1) ++ quoteString k ++ ':' :: ' ' :: indented (level + 1) v ++
      indentedEntries (level + 1) es ++ newline level ++ ['\x7d']
  | v => compact v

def indentedItems (level : Nat) : List Value → List Char
  | [] => []
  | v :: vs => ',' :: newline level ++ indented level v ++ indentedItems level vs

def indentedEntries (level : Nat) : List (String × Value) → List Char
  | [] => []
  | (k, v) :: es =>
    ',' :: newline level ++ quoteString k ++ ':' :: ' ' :: indented level v ++ indentedEntries level es

end

end SelectionEngine.Json

namespace SelectionEngine.Value

/-- The compact JSON text of a value. -/
def toJson (v : Value) : String := String.ofList (Json.compact v)

/-- The JSON text of a value over several lines. -/
def toIndentedJson (v : Value) : String := String.ofList (Json.indented 0 v)

end SelectionEngine.Value
