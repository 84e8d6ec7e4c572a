import SelectionEngine.Pattern.Atom
import SelectionEngine.Pattern.Nesting

namespace SelectionEngine.Pattern

/-- A set in brackets whose end is still to come. -/
structure OpenSet where
  /-- The layers of what stands before the last operator. -/
  left : Option Nat := none
  row : Row := {}
  /-- Whether there was nothing but dashes yet. -/
  atStart : Bool := true

namespace OpenSet

def push (set : OpenSet) (layers : Nat) : OpenSet := { set with row := set.row.push layers, atStart := false }

/-- The layers of what was read of a set. An operator is a layer
above its two sides. -/
def depth (set : OpenSet) : Nat :=
  match set.left with
  | none => set.row.depth
  | some left => max left set.row.depth + 1

/-- Goes on after an operator. -/
def operate (set : OpenSet) : OpenSet := { left := some set.depth, atStart := false }

/-- Whether a character has no other meaning than itself at the start of a set.
A set is never empty there. -/
def takesLiterally (set : OpenSet) (c : Char) : Bool :=
  set.atStart && (c == '-' || (c == ']' && set.row.count == 0))

end OpenSet

/-- The names of the sets of ASCII characters. -/
def setNames : List String :=
  ["alnum", "alpha", "ascii", "blank", "cntrl", "digit", "graph", "lower", "print", "punct", "space", "upper",
   "word", "xdigit"]

/-- Reads the rest of a set such as `[:alpha:]` after its bracket, and tells
whether it is negated. -/
def namedSet? : List Char → Option (Bool × List Char)
  | ':' :: text =>
    let (isNegated, text) := match text with
      | '^' :: rest => (true, rest)
      | _ => (false, text)
    let (name, rest) := text.span (· != ':')
    match rest with
    | ':' :: ']' :: rest => if setNames.contains (String.ofList name) then some (isNegated, rest) else none
    | _ => none
  | _ => none

/-- Whether a set with a name can be matched. -/
def isKnownSet (mode : Mode) (isNegated : Bool) : Bool := if mode.unicode then !mode.ignoresCase else !isNegated

/-- Reads a member of a set. -/
def member? (mode : Mode) : List Char → Option (Atom × List Char)
  | [] => none
  | '\\' :: rest => escape? mode rest
  | c :: rest => some (.literal c false, rest)

/-- Passes over a member of a set or a range of members. A dash makes no range
if the set may end or an operator may stand there. -/
def skipMembers? (mode : Mode) (text : List Char) : Option (List Char) := do
  let (first, text) ← member? mode text
  let single (rest : List Char) : Option (List Char) := if first.isMember mode then some rest else none
  match mode.skip text with
  | '-' :: rest =>
    if (mode.peek? rest).any fun c => c = ']' ∨ c = '-' then single ('-' :: rest)
    else do
      let (last, rest) ← member? mode (mode.skip rest)
      if first.areRange mode last then some rest else none
  | rest => single rest

/-- Reads the start of a set after its bracket. The negation of a set of bytes
holds bytes that are no character. -/
def openSet? (mode : Mode) (text : List Char) : Option (OpenSet × List Char) :=
  match mode.skip text with
  | '^' :: rest => if mode.unicode then some ({}, rest) else none
  | rest => some ({}, rest)

/-- Reads the rest of a set and of those around it in at most `fuel` steps, and
gives the layers of them all. -/
def closeSets? (mode : Mode) : Nat → OpenSet → List OpenSet → List Char → Option (Nat × List Char)
  | 0, _, _, _ => none
  | fuel + 1, set, outer, text =>
    match mode.skip text with
    | [] => none
    | c :: rest =>
      if set.takesLiterally c then
        if Atom.isMember mode (.literal c false) then
          closeSets? mode fuel { set.push 0 with atStart := c == '-' } outer rest
        else none
      else if c = ']' then match outer with
        | [] => some (set.depth + 1, rest)
        | parent :: outer => closeSets? mode fuel (parent.push (set.depth + 1)) outer rest
      else if c = '[' then match namedSet? rest with
        | some (isNegated, rest) =>
          if isKnownSet mode isNegated then closeSets? mode fuel (set.push 0) outer rest else none
        | none => do
          let (inner, rest) ← openSet? mode rest
          closeSets? mode fuel inner (set :: outer) rest
      else if (c = '&' ∨ c = '-' ∨ c = '~') ∧ rest.head? = some c then
        closeSets? mode fuel set.operate outer (rest.drop 1)
      else do closeSets? mode fuel (set.push 0) outer (← skipMembers? mode (c :: rest))

/-- Reads a set after its bracket, and gives its layers. -/
def set? (mode : Mode) (text : List Char) : Option (Nat × List Char) := do
  let (set, rest) ← openSet? mode text
  closeSets? mode (rest.length + 1) set [] rest

end SelectionEngine.Pattern
