namespace SelectionEngine.Pattern

/-- How many layers a pattern may have. -/
def nestingLimit : Nat := 250

/-- A row of parts of a pattern. -/
structure Row where
  count : Nat := 0
  /-- The layers of the deepest part. -/
  layers : Nat := 0

namespace Row

def push (row : Row) (layers : Nat) : Row := ⟨row.count + 1, max row.layers layers⟩

/-- The layers of a row. Several parts are a layer of their own. -/
def depth (row : Row) : Nat := if row.count < 2 then row.layers else row.layers + 1

end Row

end SelectionEngine.Pattern
