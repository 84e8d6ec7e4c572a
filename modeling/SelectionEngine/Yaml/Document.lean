import SelectionEngine.Yaml.Outline

namespace SelectionEngine.Yaml

/-- Reads a node, which is absent where the text ends or one of
the marks follows. -/
def orAbsent (marks : List Token) (read : List Token → Option (Node × List Token)) (tokens : List Token) :
    Option (Node × List Token) :=
  if tokens.head?.all marks.contains then some (.absent, tokens) else read tokens

/-- Reads the value after a key. There need not be a colon. -/
def valueOf (marks : List Token) (read : List Token → Option (Node × List Token)) :
    List Token → Option (Node × List Token)
  | .value :: rest => orAbsent marks read rest
  | tokens => some (.absent, tokens)

mutual

/-- Reads a node. The items of a sequence may be in the block of
the key before them. -/
def readNode : Nat → List Token → Option (Node × List Token)
  | 0, _ => none
  | fuel + 1, tokens => match tokens with
    | .scalar scalar :: rest => some (.scalar scalar, rest)
    | .openSequence :: rest => (readFlowItems fuel rest).map fun (items, rest) => (.sequence items, rest)
    | .openMapping :: rest => (readFlowEntries fuel rest).map fun (entries, rest) => (.mapping entries, rest)
    | .blockSequence :: rest => (readItems fuel rest).map fun (items, rest) => (.sequence items, rest)
    | .blockMapping :: rest => (readEntries fuel rest).map fun (entries, rest) => (.mapping entries, rest)
    | .item :: _ => (readBareItems fuel tokens).map fun (items, rest) => (.sequence items, rest)
    | _ => none

/-- Reads the items of a sequence up to the end of its block. -/
def readItems : Nat → List Token → Option (List Node × List Token)
  | 0, _ => none
  | fuel + 1, tokens => match tokens with
    | .item :: rest => do
      let (item, rest) ← orAbsent [.item, .blockEnd] (readNode fuel) rest
      let (items, rest) ← readItems fuel rest
      return (item :: items, rest)
    | .blockEnd :: rest => some ([], rest)
    | _ => none

/-- Reads the items of a sequence without a block of its own. -/
def readBareItems : Nat → List Token → Option (List Node × List Token)
  | 0, _ => none
  | fuel + 1, tokens => match tokens with
    | .item :: rest => do
      let (item, rest) ← orAbsent [.item, .key, .value, .blockEnd] (readNode fuel) rest
      let (items, rest) ← readBareItems fuel rest
      return (item :: items, rest)
    | _ => some ([], tokens)

/-- Reads the entries of a mapping up to the end of its block. -/
def readEntries : Nat → List Token → Option (List (Node × Node) × List Token)
  | 0, _ => none
  | fuel + 1, tokens => do
    let marks := [.key, .value, .blockEnd]
    if let .blockEnd :: rest := tokens then return ([], rest)
    let (key, rest) ← match tokens with
      | .key :: rest => orAbsent marks (readNode fuel) rest
      | .value :: _ => some (.absent, tokens)
      | _ => none
    let (value, rest) ← valueOf marks (readNode fuel) rest
    let (entries, rest) ← readEntries fuel rest
    return ((key, value) :: entries, rest)

/-- Reads the items of a sequence up to its closing bracket. An item may be a
single entry of a mapping. -/
def readFlowItems : Nat → List Token → Option (List Node × List Token)
  | 0, _ => none
  | fuel + 1, tokens => do
    if let .closeSequence :: rest := tokens then return ([], rest)
    let (item, rest) ← match tokens with
      | .key :: rest => do
        let (key, rest) ← orAbsent [.value, .comma, .closeSequence] (readNode fuel) rest
        let (value, rest) ← valueOf [.comma, .closeSequence] (readNode fuel) rest
        some (.mapping [(key, value)], rest)
      | _ => readNode fuel tokens
    match rest with
    | .comma :: rest =>
      let (items, rest) ← readFlowItems fuel rest
      return (item :: items, rest)
    | .closeSequence :: rest => return ([item], rest)
    | _ => none

/-- Reads the entries of a mapping up to its closing brace. Only
a key has a value. -/
def readFlowEntries : Nat → List Token → Option (List (Node × Node) × List Token)
  | 0, _ => none
  | fuel + 1, tokens => do
    if let .closeMapping :: rest := tokens then return ([], rest)
    let (entry, rest) ← match tokens with
      | .key :: rest => do
        let (key, rest) ← orAbsent [.value, .comma, .closeMapping] (readNode fuel) rest
        let (value, rest) ← valueOf [.comma, .closeMapping] (readNode fuel) rest
        some ((key, value), rest)
      | .value :: _ => do
        let (value, rest) ← valueOf [.comma, .closeMapping] (readNode fuel) tokens
        some ((.absent, value), rest)
      | _ => (readNode fuel tokens).map fun (key, rest) => ((key, .absent), rest)
    match rest with
    | .comma :: rest =>
      let (entries, rest) ← readFlowEntries fuel rest
      return (entry :: entries, rest)
    | .closeMapping :: rest => return ([entry], rest)
    | _ => none

end

/-- The root of the one document of a text. -/
def Node.ofText? (text : String) : Option Node := do
  let tokens ← Token.ofText? text
  let fuel := 2 * tokens.length + 2
  let (root, rest) ← match tokens with
    | .documentStart :: rest => orAbsent [.documentStart, .documentEnd] (readNode fuel) rest
    | _ => readNode fuel tokens
  if rest.all (· = .documentEnd) then some root else none

end SelectionEngine.Yaml
