import SelectionEngine.Double.Decimal
import SelectionEngine.Definitions.Token
import SelectionEngine.Schema.Error

namespace SelectionEngine.Definitions

/-- A constant as a text gives it. -/
inductive Literal where
  | null
  | bool (b : Bool)
  /-- An integer or a fractional number, by its digits. -/
  | int (digits : List Char)
  | float (digits : List Char)
  | string (text : String)
  | list (items : List Literal)
  /-- An object, whose fields may lack their values. -/
  | object (fields : List (String × Option Literal))
deriving Inhabited

/-- The text that the body of a string stands for. An escape that names no
character stays as it is. -/
def unescape : List Char → List Char
  | [] => []
  | '\\' :: 'u' :: a :: b :: c :: d :: rest =>
    match (Text.natural? 16 [a, b, c, d]).bind Text.character? with
    | some character => character :: unescape rest
    | none => '\\' :: 'u' :: a :: b :: c :: d :: unescape rest
  | '\\' :: 'u' :: rest => '\\' :: 'u' :: rest
  | '\\' :: 'n' :: rest => '\n' :: unescape rest
  | '\\' :: 't' :: rest => '\t' :: unescape rest
  | '\\' :: 'r' :: rest => '\r' :: unescape rest
  | '\\' :: 'b' :: rest => '\x08' :: unescape rest
  | '\\' :: 'f' :: rest => '\x0c' :: unescape rest
  | '\\' :: c :: rest => c :: unescape rest
  | c :: rest => c :: unescape rest

/-- The text of a block string before its ends are trimmed. -/
def unescapeBlock : List Char → List Char
  | [] => []
  | '\\' :: '"' :: '"' :: '"' :: rest => '"' :: '"' :: '"' :: unescapeBlock rest
  | c :: rest => c :: unescapeBlock rest

namespace Literal

mutual

/-- The value of a constant. Numbers beyond the doubles are null and
integers have to fit 64 bits. -/
def toValue : Literal → Except DefinitionFault Value
  | null => .ok .null
  | bool b => .ok (.bool b)
  | int digits => match Text.int64? digits with
    | some n => .ok (.int n)
    | none => .error (.invalidDefault (String.ofList digits))
  | float digits => match (Decimal.read? digits).bind Decimal.toDouble? with
    | some d => .ok (.double d)
    | none => .ok .null
  | string text => .ok (.string text)
  | list items => (itemValues items).map .list
  | object fields => (fieldValues fields).map fun entries => .object (Entries.ofList entries)

def itemValues : List Literal → Except DefinitionFault (List Value)
  | [] => .ok []
  | item :: items => do return (← toValue item) :: (← itemValues items)

def fieldValues : List (String × Option Literal) → Except DefinitionFault (List (String × Value))
  | [] => .ok []
  | (name, none) :: _ => .error (.invalidDefault name)
  | (name, some item) :: rest => do return (name, ← toValue item) :: (← fieldValues rest)

end

end Literal

end SelectionEngine.Definitions
