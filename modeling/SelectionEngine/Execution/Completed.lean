import SelectionEngine.Report
import SelectionEngine.TypeRef

namespace SelectionEngine

/-- Why a resolved value is not of the type declared for it. -/
inductive CompletionError where
  | nullField (parentType field : String)
  | nullElement (elementType : TypeRef) (index : Nat)
  | invalidLeaf (type : BuiltIn) (value : Value)
  | expectedList (parentType field : String) (found : Value)
  | expectedObject (typeName : String) (found : Value)
  | notAnOutputType (typeName : String)
deriving DecidableEq

instance : Reportable CompletionError where
  message
    | .nullField parentType field => s!"Cannot return null for non-nullable field {parentType}.{field}"
    | .nullElement elementType index =>
      s!"Cannot return null for non-nullable array element of type {elementType.text} at index {index}"
    | .invalidLeaf type value => s!"{type.name} cannot represent value: {value.toJson}"
    | .expectedList parentType field found =>
      s!"expected a list for field {parentType}.{field}, got {found.typeName}"
    | .expectedObject typeName found => s!"expected an object of type {typeName}, got {found.typeName}"
    | .notAnOutputType typeName => s!"type '{typeName}' is not an output type"
  code
    | .nullField _ _ | .nullElement _ _ => "NON_NULL_VIOLATION"
    | .invalidLeaf _ _ => "INVALID_LEAF_VALUE"
    | .expectedList _ _ _ => "EXPECTED_LIST"
    | .expectedObject _ _ => "EXPECTED_OBJECT"
    | .notAnOutputType _ => "INVALID_OUTPUT_TYPE"

/-- A completed part of a response with the errors below it. Where the value is
missing the failure goes up to the nearest place that may be null. -/
structure Completed (α : Type) where
  value? : Option α
  errors : List Report := []

namespace Completed

variable {α β : Type}

def ok (a : α) : Completed α := ⟨some a, []⟩

def failed (error : Report) : Completed α := ⟨none, [error]⟩

def map (f : α → β) (c : Completed α) : Completed β := ⟨c.value?.map f, c.errors⟩

/-- At a place that may be null, a failure becomes null. -/
def absorb (c : Completed Value) : Completed Value := ⟨some (c.value?.getD .null), c.errors⟩

/-- At a place that may not be null, null becomes a failure,
which is reported here. -/
def refuseNull (error : Report) (c : Completed Value) : Completed Value :=
  match c.value? with
  | some .null => ⟨none, c.errors ++ [error]⟩
  | _ => c

/-- All the parts, if none of them is missing. -/
def all (parts : List (Completed α)) : Completed (List α) :=
  ⟨parts.mapM Completed.value?, parts.flatMap Completed.errors⟩

end Completed

/-- A value as an output of a built-in scalar. -/
def BuiltIn.complete? : BuiltIn → Value → Option Value
  | .string, .string s => some (.string s)
  | .boolean, .bool b => some (.bool b)
  | .int, v => v.asInt32?.map .int
  | .float, v => v.asDouble?.map .double
  | .id, .string s => some (.string s)
  | .id, .int n => some (.string (toString n))
  | _, _ => none

end SelectionEngine
