import SelectionEngine.Json.Document

namespace SelectionEngine

/-- One step into a response: the key of an object or the index of a list. -/
inductive PathElement where
  | index (n : Nat)
  | key (name : String)
deriving DecidableEq

/-- A place in a response, from the root of its data. -/
abbrev Path := List PathElement

namespace PathElement

def text : PathElement → String
  | index n => toString n
  | key name => name

def toValue : PathElement → Value
  | index n => .int n
  | key name => .string name

/-- The step spelled by a segment. Numerals of 64 bits are indices
and all else are keys. -/
def ofSegment (segment : List Char) : PathElement :=
  match Text.word64? segment with
  | some n => index n
  | none => key (String.ofList segment)

/-- Decodes a string as a key and an unsigned 64-bit integer as an index. -/
def ofDocument? : Json.Document → Option PathElement
  | .atom (.string name) => some (key name)
  | .atom (.int n) => if 0 ≤ n ∧ n < UInt64.size then some (index n.toNat) else none
  | _ => none

end PathElement

namespace Path

/-- The stretches of a text between its slashes, empty ones included. -/
def segments : List Char → List (List Char)
  | [] => [[]]
  | c :: rest =>
    if c = '/' then [] :: segments rest
    else match segments rest with
      | [] => [[c]]
      | first :: others => (c :: first) :: others

/-- Reads a text whose nonempty segments are the steps. -/
def ofText (text : String) : Path :=
  ((segments text.toList).filter (! ·.isEmpty)).map PathElement.ofSegment

/-- The steps with a slash between each two. -/
def text (path : Path) : String := "/".intercalate (path.map PathElement.text)

def join (path : Path) (element : PathElement) : Path := path ++ [element]

def toValue (path : Path) : Value := .list (path.map PathElement.toValue)

def ofDocument? : Json.Document → Option Path
  | .array items => items.mapM PathElement.ofDocument?
  | _ => none

end Path

end SelectionEngine
