import SelectionEngine.Pattern.Token

namespace SelectionEngine.Pattern

/-- A group whose end is still to come. -/
structure OpenGroup where
  /-- The layers of the deepest branch before the last bar. -/
  earlier : Option Nat := none
  row : Row := {}
  /-- The layers of what may be repeated next. -/
  last : Option Nat := none

namespace OpenGroup

def push (group : OpenGroup) (layers : Nat) : OpenGroup :=
  { group with row := group.row.push layers, last := some layers }

/-- Goes on after a change of the mode, which cannot be repeated. -/
def pushSwitch (group : OpenGroup) : OpenGroup := { group with row := group.row.push 0, last := none }

/-- Repeats the last part, which gets a layer. -/
def repeat? (group : OpenGroup) : Option OpenGroup :=
  group.last.map fun layers =>
    { group with row := { group.row with layers := max group.row.layers (layers + 1) }, last := some (layers + 1) }

/-- Goes on with the next branch. -/
def branch (group : OpenGroup) : OpenGroup := { earlier := some (max (group.earlier.getD 0) group.row.depth) }

/-- The layers of what was read of a group. Several branches are
a layer of their own. -/
def depth (group : OpenGroup) : Nat :=
  match group.earlier with
  | none => group.row.depth
  | some earlier => max earlier group.row.depth + 1

end OpenGroup

/-- The layers of a pattern from the tokens that are left of it. Its groups end,
and only what matches is repeated. -/
def depth? : OpenGroup → List OpenGroup → List Token → Option Nat
  | group, [], [] => some group.depth
  | _, _ :: _, [] => none
  | group, outer, token :: tokens =>
    match token with
    | .atom layers => depth? (group.push layers) outer tokens
    | .switch => depth? group.pushSwitch outer tokens
    | .repetition => do depth? (← group.repeat?) outer tokens
    | .bar => depth? group.branch outer tokens
    | .opening _ => depth? {} (group :: outer) tokens
    | .closing => match outer with
      | [] => none
      | parent :: outer => depth? (parent.push (group.depth + 1)) outer tokens

/-- Whether a text is a pattern. Its groups have different names. -/
def isPattern (text : List Char) : Bool :=
  match tokens? text with
  | none => false
  | some tokens => decide (tokens.filterMap Token.name?).Nodup && (depth? {} [] tokens).any (· ≤ nestingLimit)

end SelectionEngine.Pattern
