import SelectionEngine.Schema.Basic
import SelectionEngine.Selection

namespace SelectionEngine

/-- A field as it is selected on an object. -/
structure SelectedField where
  call : FieldCall
  selections : List Selection

/-- The fields selected under one response key. The first one names the field
and gives the arguments. -/
structure FieldGroup where
  key : String
  lead : SelectedField
  others : List SelectedField := []

namespace FieldGroup

def fields (group : FieldGroup) : List SelectedField := group.lead :: group.others

/-- What is selected below the fields of the group. -/
def selections (group : FieldGroup) : List Selection := group.fields.flatMap SelectedField.selections

/-- Adds a field to the group of its response key, or opens that
group at the end. -/
def addTo (field : SelectedField) : List FieldGroup → List FieldGroup
  | [] => [⟨field.call.responseKey, field, []⟩]
  | group :: groups =>
    if group.key = field.call.responseKey then
      { group with others := group.others ++ [field] } :: groups
    else group :: addTo field groups

end FieldGroup

namespace Schema

variable {σ : Type}

/-- Whether a fragment with this type condition is for the objects of a type. -/
def applies (schema : Schema σ) (type : ObjectType σ) : Option String → Bool
  | none => true
  | some condition => schema.isSubtype condition type.name

mutual

/-- Adds the fields of a selection on the objects of a type to the groups
collected so far. Fields that the type does not declare and fragments that do
not apply are skipped. -/
def collect (schema : Schema σ) (type : ObjectType σ) : Selection → List FieldGroup → List FieldGroup
  | .field call selections, groups =>
    if call.name = typenameField ∨ (type.field? call.name).isSome then
      FieldGroup.addTo ⟨call, selections⟩ groups
    else groups
  | .fragment condition selections, groups =>
    if schema.applies type condition then collectAll schema type selections groups else groups

def collectAll (schema : Schema σ) (type : ObjectType σ) :
    List Selection → List FieldGroup → List FieldGroup
  | [], groups => groups
  | selection :: rest, groups => collectAll schema type rest (collect schema type selection groups)

end

/-- The fields selected on the objects of a type, grouped by response key. -/
def fieldGroups (schema : Schema σ) (type : ObjectType σ) (selections : List Selection) : List FieldGroup :=
  schema.collectAll type selections []

end Schema

end SelectionEngine
