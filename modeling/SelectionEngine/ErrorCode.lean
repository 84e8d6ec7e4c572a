namespace SelectionEngine.ErrorCode

/-- Cuts a word where a lower-case letter is followed by an upper-case one, and
before the last of several upper-case letters that is followed by a lower-case
one. Digits have the case before them. -/
def humps (previous : Option Bool) (current : List Char) : List Char → List (List Char)
  | [] => [current.reverse]
  | [c] => [(c :: current).reverse]
  | c :: next :: rest =>
    let isUpper := if c.isLower then some false else if c.isUpper then some true else previous
    if isUpper = some false ∧ next.isUpper then
      (c :: current).reverse :: humps none [] (next :: rest)
    else if previous = some true ∧ c.isUpper ∧ next.isLower then
      current.reverse :: humps none [c] (next :: rest)
    else humps isUpper (c :: current) (next :: rest)

/-- The stretches of letters and digits of a text. -/
def words (text : List Char) : List (List Char) :=
  (text.splitBy fun a b => a.isAlphanum == b.isAlphanum).filter fun word => word.head?.any Char.isAlphanum

/-- The code of a kind of error: the words of its name in upper case,
joined by underscores. -/
def ofName (name : String) : String :=
  "_".intercalate (((words name.toList).flatMap (humps none [])).map fun word =>
    String.ofList (word.map Char.toUpper))

end SelectionEngine.ErrorCode
