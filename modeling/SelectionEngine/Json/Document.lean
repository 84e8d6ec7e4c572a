import SelectionEngine.Value

namespace SelectionEngine.Json

/-- A JSON text as it is written. Members that repeat a key are all kept, and a
part that is well formed but has no value, such as a number beyond the doubles
or a lone surrogate, is kept as unreadable. -/
inductive Document where
  | unreadable
  | atom (value : Value)
  | array (items : List Document)
  | object (members : List (String × Document))
deriving Inhabited

namespace Document

mutual

/-- The value of a document. Of members with one key the last counts, at
the place of the first. -/
def toValue? : Document → Option Value
  | unreadable => none
  | atom v => some v
  | array items => (itemValues? items).map .list
  | object members => (memberValues? members).map fun pairs => .object (Entries.ofList pairs)

def itemValues? : List Document → Option (List Value)
  | [] => some []
  | d :: ds => do some ((← toValue? d) :: (← itemValues? ds))

def memberValues? : List (String × Document) → Option (List (String × Value))
  | [] => some []
  | (k, d) :: ms => do some ((k, ← toValue? d) :: (← memberValues? ms))

end

mutual

/-- The document that holds just this value. -/
def ofValue : Value → Document
  | .list items => array (ofItems items)
  | .object entries => object (ofEntries entries)
  | v => atom v

def ofItems : List Value → List Document
  | [] => []
  | v :: vs => ofValue v :: ofItems vs

def ofEntries : List (String × Value) → List (String × Document)
  | [] => []
  | (k, v) :: es => (k, ofValue v) :: ofEntries es

end

end Document

end SelectionEngine.Json
