import SelectionEngine.Json.Document

namespace SelectionEngine.Json.Document

/-- The members of a record with the given names. A record is written as an
object, in which none of the names is repeated and others are passed over, or as
the array of its leading members. -/
def members? (names : List String) : Document → Option (List (Option Document))
  | object members =>
    if names.all fun name => members.countP (fun member => member.1 = name) ≤ 1 then
      some (names.map fun name => Entries.get? name members)
    else none
  | array items =>
    if items.length ≤ names.length then
      some ((items.map some) ++ List.replicate (names.length - items.length) none)
    else none
  | _ => none

def string? : Document → Option String
  | atom (.string s) => some s
  | _ => none

def object? (document : Document) : Option Object := document.toValue?.bind Value.asObject?

/-- A member that may be left out. -/
def withDefault {α : Type} (default : α) (decode : Document → Option α) : Option Document → Option α
  | none => some default
  | some document => decode document

/-- A member that may be null. -/
def nullable {α : Type} (decode : Document → Option α) : Document → Option (Option α)
  | atom .null => some none
  | document => (decode document).map some

end SelectionEngine.Json.Document
