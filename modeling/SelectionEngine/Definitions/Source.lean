import SelectionEngine.Definitions.ForeignGrammar

namespace SelectionEngine.Definitions

/-- Reads a definition of any kind. No comma follows its description. -/
def anyDefinition : Reader Definition := fun lexemes =>
  if Reader.next Reader.isDescription lexemes && Reader.nextFollowsComma (lexemes.drop 1) then none
  else match definition lexemes with
  | some read => some read
  | none => (Foreign.definition lexemes).map fun (_, rest) =>
    (.foreign (Lexeme.excerpt (lexemes.take (lexemes.length - rest.length))), rest)

/-- Reads definitions up to the end of the text, of which there
is at least one. -/
def definitions? (lexemes : List Lexeme) : Option (List Definition) := do
  let (all, rest) ← Reader.some1 (fun _ => true) anyDefinition lexemes
  if rest.isEmpty then some all else none

/-- The definitions of a text that follows the grammar. -/
def Definition.ofText? (text : String) : Option (List Definition) :=
  (Lexeme.ofText? text.toList).bind definitions?

end SelectionEngine.Definitions
