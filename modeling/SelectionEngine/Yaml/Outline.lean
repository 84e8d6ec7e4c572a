import SelectionEngine.Yaml.Scalar
import SelectionEngine.Yaml.Token

namespace SelectionEngine.Yaml

/-- The start of a node that is a key if a colon follows on its line. -/
structure PossibleKey where
  /-- The number of tokens before it. -/
  position : Nat
  place : Place
  /-- Whether the node has to be a key. -/
  required : Bool
deriving DecidableEq

/-- Whether a colon at a place comes too late for a key. -/
def PossibleKey.isPast (key : PossibleKey) (place : Place) : Bool :=
  key.place.line < place.line || key.place.index + 1024 < place.index

/-- What is known of a text after a part of it. -/
structure Outline where
  /-- The tokens, the last one first. -/
  tokens : List Token := []
  /-- The columns of the open blocks, the innermost first. -/
  blocks : List Nat := []
  /-- The possible key of the innermost brackets or braces, or of the
  block if none are open. -/
  key : Option PossibleKey := none
  /-- The possible keys around the open brackets and braces, the
  innermost first. -/
  around : List (Option PossibleKey) := []
  keyAllowed : Bool := true
  /-- The index at which a quoted scalar has ended. A colon there
  needs no blank after it. -/
  adjacent : Option Nat := none

namespace Outline

open Cursor

/-- Whether brackets or braces are open, in which indentation says nothing. -/
def inFlow (outline : Outline) : Bool := !outline.around.isEmpty

/-- The first column to the right of the innermost block. -/
def floor (outline : Outline) : Nat := outline.blocks.head?.elim 0 (· + 1)

/-- Puts a token after the first tokens. -/
def insert (outline : Outline) (position : Nat) (token : Token) : Outline :=
  let later := outline.tokens.length - position
  { outline with tokens := outline.tokens.take later ++ token :: outline.tokens.drop later }

def push (outline : Outline) (token : Token) : Outline := { outline with tokens := token :: outline.tokens }

/-- Opens a block at a column, unless one is open there already. -/
def openBlock (outline : Outline) (column position : Nat) (start : Token) : Outline :=
  if outline.inFlow ∨ column < outline.floor then outline
  else { outline.insert position start with blocks := column :: outline.blocks }

/-- Closes the inner blocks with the given columns. -/
def closeBlocks (outline : Outline) (closes : Nat → Bool) : Outline :=
  if outline.inFlow then outline
  else
    { outline with
      tokens := (outline.blocks.takeWhile closes).map (fun _ => .blockEnd) ++ outline.tokens
      blocks := outline.blocks.dropWhile closes }

/-- Gives up the possible key. -/
def dropKey? (outline : Outline) : Option Outline :=
  if outline.key.any PossibleKey.required then none else some { outline with key := none }

/-- Gives up the possible keys that are too far before a place. -/
def dropPastKeys? (outline : Outline) (place : Place) : Option Outline :=
  let isPast (key : PossibleKey) : Bool := key.isPast place
  if (outline.key :: outline.around).any fun key => (key.filter isPast).any PossibleKey.required then none
  else
    let kept (key : Option PossibleKey) : Option PossibleKey := key.filter fun key => !isPast key
    some { outline with key := kept outline.key, around := outline.around.map kept }

/-- Takes the node at a place for a possible key where one may stand. -/
def saveKey? (outline : Outline) (place : Place) : Option Outline :=
  if !outline.keyAllowed then some outline
  else do
    let outline ← outline.dropKey?
    let required := outline.inFlow && outline.blocks.head? == some place.column
    return { outline with key := some { position := outline.tokens.length, place, required } }

/-- Adds the mark between documents. -/
def documentMark? (outline : Outline) (token : Token) : Option Outline := do
  let outline ← (outline.closeBlocks fun _ => true).dropKey?
  return { outline with keyAllowed := false }.push token

/-- Adds an opening bracket or brace. -/
def openFlow? (outline : Outline) (place : Place) (token : Token) : Option Outline := do
  let outline ← outline.saveKey? place
  return { outline with key := none, around := outline.key :: outline.around, keyAllowed := true }.push token

/-- Adds a closing bracket or brace. -/
def closeFlow? (outline : Outline) (token : Token) : Option Outline := do
  let outline ← outline.dropKey?
  let outline := match outline.around with
    | [] => outline
    | key :: around => { outline with key, around }
  return { outline with keyAllowed := false }.push token

/-- Adds a comma. -/
def comma? (outline : Outline) : Option Outline := do
  return { ← outline.dropKey? with keyAllowed := true }.push .comma

/-- Adds the dash before an item of a block. -/
def item? (outline : Outline) (place : Place) : Option Outline :=
  if outline.inFlow ∨ !outline.keyAllowed then none
  else do
    let outline ← (outline.openBlock place.column outline.tokens.length .blockSequence).dropKey?
    return { outline with keyAllowed := true }.push .item

/-- Adds the question mark before a key. -/
def key? (outline : Outline) (place : Place) : Option Outline :=
  if !outline.inFlow ∧ !outline.keyAllowed then none
  else do
    let outline ← (outline.openBlock place.column outline.tokens.length .blockMapping).dropKey?
    return { outline with keyAllowed := !outline.inFlow }.push .key

/-- Adds a colon, before which the possible key becomes one. -/
def value? (outline : Outline) (place : Place) : Option Outline :=
  match outline.key with
  | some key =>
    let outline := (outline.insert key.position .key).openBlock key.place.column key.position .blockMapping
    some ({ outline with key := none, keyAllowed := false }.push .value)
  | none =>
    if !outline.inFlow ∧ !outline.keyAllowed then none
    else
      let outline := outline.openBlock place.column outline.tokens.length .blockMapping
      some ({ outline with keyAllowed := !outline.inFlow }.push .value)

/-- Reads a scalar in quotes, after the first of them. -/
def quoted? (outline : Outline) (place : Place) (quote : Char) (cursor : Cursor) : Option (Outline × Cursor) := do
  let outline ← outline.saveKey? place
  let (text, rest) ← quotedText? quote (.gap .none) cursor
  let adjacent := rest.head?.map fun c => c.2.index
  return ({ outline with keyAllowed := false, adjacent }.push (.scalar (.quoted (String.ofList text))), rest)

/-- Reads a plain scalar. -/
def plain? (outline : Outline) (place : Place) (cursor : Cursor) : Option (Outline × Cursor) := do
  let outline ← outline.saveKey? place
  let ((text, spansLines), rest) ← plainText? outline.inFlow outline.floor .none cursor
  return ({ outline with keyAllowed := spansLines }.push (.scalar (.plain (String.ofList text))), rest)

/-- Whether a plain scalar cannot start with the character. -/
def isReserved (outline : Outline) (c : Char) : Bool :=
  ['&', '*', '!', '%', '@', '\x60'].contains c || (!outline.inFlow && (c == '|' || c == '>'))

/-- Reads the token with which a text starts. -/
def token? (outline : Outline) : Cursor → Option (Outline × Cursor)
  | [] => none
  | (c, place) :: rest =>
    let cursor := (c, place) :: rest
    let followedBy (outline : Option Outline) : Option (Outline × Cursor) := outline.map (·, rest)
    let endsKey := separates outline.inFlow rest || (outline.inFlow && outline.adjacent == some place.index)
    if atRuler '-' cursor then (outline.documentMark? .documentStart).map (·, cursor.drop 3)
    else if atRuler '.' cursor then (outline.documentMark? .documentEnd).map (·, cursor.drop 3)
    else if c = '[' then followedBy (outline.openFlow? place .openSequence)
    else if c = '\x7b' then followedBy (outline.openFlow? place .openMapping)
    else if c = ']' then followedBy (outline.closeFlow? .closeSequence)
    else if c = '\x7d' then followedBy (outline.closeFlow? .closeMapping)
    else if c = ',' then followedBy outline.comma?
    else if c = '-' ∧ atGap rest then followedBy (outline.item? place)
    else if c = '?' ∧ atGap rest then followedBy (outline.key? place)
    else if c = ':' ∧ endsKey then followedBy (outline.value? place)
    else if c = '"' ∨ c = '\x27' then outline.quoted? place c rest
    else if outline.isReserved c then none
    else outline.plain? place cursor

/-- Passes over blanks, line ends and comments. Where a key may
start a tab is no blank. -/
def skip (outline : Outline) (inComment : Bool) : Cursor → Outline × Cursor
  | [] => (outline, [])
  | (c, place) :: rest =>
    if isLineEnd c then skip { outline with keyAllowed := outline.keyAllowed || !outline.inFlow } false rest
    else if inComment || c == '#' then skip outline true rest
    else if c = ' ' ∨ (c = '\t' ∧ (outline.inFlow ∨ !outline.keyAllowed)) then skip outline false rest
    else (outline, (c, place) :: rest)

/-- The tokens of a text that ends here. -/
def finish? (outline : Outline) : Option (List Token) :=
  (outline.closeBlocks fun _ => true).dropKey?.map fun outline => outline.tokens.reverse

/-- The tokens of a text, as far as the fuel lasts. -/
def run? : Nat → Outline → Cursor → Option (List Token)
  | 0, _, _ => none
  | fuel + 1, outline, cursor =>
    match outline.skip false cursor with
    | (outline, []) => outline.finish?
    | (outline, (c, place) :: rest) => do
      let outline ← outline.dropPastKeys? place
      let (outline, rest) ← (outline.closeBlocks fun column => place.column < column).token? ((c, place) :: rest)
      run? fuel outline rest

end Outline

/-- The tokens of a text. Each takes one character at least. -/
def Token.ofText? (text : String) : Option (List Token) :=
  let cursor := Cursor.ofText text
  Outline.run? (cursor.length + 1) {} cursor

end SelectionEngine.Yaml
