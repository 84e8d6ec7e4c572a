import SelectionEngine.Proofs.Execution.ResolutionPaths
import SelectionEngine.Proofs.Execution.Responses

namespace SelectionEngine

namespace Value

/-- The part of a value that one step leads to. -/
def child? : Value → PathElement → Option Value
  | .object entries, .key name => Entries.get? name entries
  | .list items, .index n => items[n]?
  | _, _ => none

/-- The part of a value at a path. -/
def at? : Value → Path → Option Value
  | value, [] => some value
  | value, element :: rest => (value.child? element).bind fun part => part.at? rest

end Value

/-- A place of a response before it is completed: its declared type, what is
selected on its objects, and the value that was found for it, if any. -/
structure Position where
  type : TypeRef
  selections : List Selection
  raw? : Option Value

namespace Position

variable {ρ : Type}

/-- The place of an item of a list. -/
def item? (position : Position) (n : Nat) : Option Position :=
  match position.type.nullable, position.raw? with
  | .list inner, some (.list items) => items[n]?.map fun item => ⟨inner, position.selections, some item⟩
  | _, _ => none

/-- The place of a field of an object at a path. -/
def field? (schema : Schema ρ) (resolutions : List Resolution) (path : Path) (position : Position)
    (key : String) : Option Position :=
  match position.type.nullable, position.raw? with
  | .named name, some value => match schema.concreteType? name value path with
    | .ok (some type) =>
      ((schema.fieldGroups type position.selections).find? fun group => group.key = key).bind fun group =>
        if group.lead.call.name = typenameField then none
        else (type.field? group.lead.call.name).map fun field =>
          ⟨field.type, group.selections, Resolution.valueAt? resolutions (path.join (.key key))⟩
    | _ => none
  | _, _ => none

def step? (schema : Schema ρ) (resolutions : List Resolution) (path : Path) (position : Position) :
    PathElement → Option Position
  | .index n => position.item? n
  | .key key => position.field? schema resolutions path key

/-- The place that further steps lead to from a place at a path. -/
def walk? (schema : Schema ρ) (resolutions : List Resolution) : Position → Path → Path → Option Position
  | position, _, [] => some position
  | position, path, element :: rest =>
    (position.step? schema resolutions path element).bind fun next =>
      next.walk? schema resolutions (path.join element) rest

theorem walk?_join (schema : Schema ρ) (resolutions : List Resolution) (position : Position) (path rest : Path)
    (element : PathElement) :
    position.walk? schema resolutions path (rest.join element) =
      (position.walk? schema resolutions path rest).bind fun last =>
        last.step? schema resolutions (path ++ rest) element := by
  induction rest generalizing position path with
  | nil =>
    simp only [Path.join, List.nil_append, List.append_nil, walk?, Option.bind_some]
    cases position.step? schema resolutions path element <;> rfl
  | cons first rest ih =>
    simp only [Path.join, List.cons_append, walk?] at ih ⊢
    cases position.step? schema resolutions path first with
    | none => rfl
    | some next => simpa using ih next (path ++ [first])

end Position

/-- The place of a response at a path, as far as the schema, the selections and
the values that fields were resolved to give it a type. -/
def Schema.position? {σ : Type} (schema : Schema σ) (settings : ExecutionSettings) (request : Request)
    (root : Value) (state : σ) (path : Path) : Option Position :=
  let position : Position := ⟨.named (schema.rootTypeName request.operation), request.selectionSet, some root⟩
  position.walk? schema (schema.resolutions settings request root state) [] path

section

variable (position? : Path → Option Position)

/-- The root and the places of a type that admits null. -/
def MayBeNull (path : Path) : Prop :=
  path = [] ∨ ∃ position, position? path = some position ∧ position.type.isNonNull = false

def MustNotBeNull (path : Path) : Prop :=
  ∃ position, position? path = some position ∧ position.type.isNonNull = true

/-- Every place below `upper` on the way to `lower` must not be null. -/
def StrictBetween (upper lower : Path) : Prop :=
  ∀ path, upper <+: path → path ≠ upper → path <+: lower → MustNotBeNull position? path

/-- The first place that may be null on the way up from a path. -/
structure NearestNullable (place path : Path) : Prop where
  above : place <+: path
  mayBeNull : MayBeNull position? place
  strict : StrictBetween position? place path

/-- The place is the one to become null because of one of the errors. -/
def Blamed (errors : List Report) (place : Path) : Prop :=
  ∃ error ∈ errors, ∃ path, error.path = some path ∧ NearestNullable position? place path

/-- The place may be null and a null was found for it, and no error
lies at it or below it. -/
def GenuineNull (errors : List Report) (place : Path) : Prop :=
  (∃ position, position? place = some position ∧ position.type.isNonNull = false ∧
    position.raw? = some .null) ∧
  ∀ error ∈ errors, ∀ path, error.path = some path → ¬ place <+: path

/-- The path leads into a value of a registered scalar, which has
no places of its own. -/
def InsideScalar {ρ : Type} (schema : Schema ρ) (path : Path) : Prop :=
  ∃ place position name scalar, place <+: path ∧ place ≠ path ∧ position? place = some position ∧
    position.type.nullable = .named name ∧ schema.lookup? name = some (.scalar scalar)

end

end SelectionEngine
