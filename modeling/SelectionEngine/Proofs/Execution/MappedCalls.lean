import Mathlib.Logic.Function.Basic
import SelectionEngine.Proofs.Execution.FieldGroups

namespace SelectionEngine

variable {σ : Type} (change : FieldCall → FieldCall)

namespace Selection

mutual

/-- A selection with all its fields asked for in another way. -/
def mapCalls : Selection → Selection
  | field call selections => field (change call) (mapCallsAll selections)
  | fragment condition selections => fragment condition (mapCallsAll selections)

def mapCallsAll : List Selection → List Selection
  | [] => []
  | selection :: rest => mapCalls selection :: mapCallsAll rest

end

theorem mapCallsAll_eq_map (selections : List Selection) :
    mapCallsAll change selections = selections.map (mapCalls change) := by
  induction selections with
  | nil => rfl
  | cons selection rest ih => rw [mapCallsAll, ih, List.map_cons]

mutual

theorem depth_mapCalls : (selection : Selection) → (selection.mapCalls change).depth = selection.depth
  | field call selections => by simp only [mapCalls, depth, depthOfAll_mapCallsAll selections]
  | fragment condition selections => by simp only [mapCalls, depth, depthOfAll_mapCallsAll selections]

theorem depthOfAll_mapCallsAll : (selections : List Selection) →
    depthOfAll (mapCallsAll change selections) = depthOfAll selections
  | [] => rfl
  | selection :: rest => by
    simp only [mapCallsAll, depthOfAll, depth_mapCalls selection, depthOfAll_mapCallsAll rest]

end

end Selection

def SelectedField.mapCalls (field : SelectedField) : SelectedField where
  call := change field.call
  selections := Selection.mapCallsAll change field.selections

variable {change}

/-- Fields keep their names, and keys that are different stay so. -/
structure FieldCall.Rekeys (change : FieldCall → FieldCall) (rekey : String → String) : Prop where
  name : ∀ call, (change call).name = call.name
  responseKey : ∀ call, (change call).responseKey = rekey call.responseKey
  injective : Function.Injective rekey

variable {rekey : String → String}

namespace FieldGroup

def mapCalls (change : FieldCall → FieldCall) (rekey : String → String) (group : FieldGroup) : FieldGroup where
  key := rekey group.key
  lead := group.lead.mapCalls change
  others := group.others.map (SelectedField.mapCalls change)

theorem fields_mapCalls (group : FieldGroup) :
    (group.mapCalls change rekey).fields = group.fields.map (SelectedField.mapCalls change) := rfl

theorem selections_mapCalls (group : FieldGroup) :
    (group.mapCalls change rekey).selections = Selection.mapCallsAll change group.selections := by
  simp only [selections, fields_mapCalls, SelectedField.mapCalls, Selection.mapCallsAll_eq_map, List.flatMap_map,
    List.map_flatMap]

theorem addTo_mapCalls (rekeys : FieldCall.Rekeys change rekey) (field : SelectedField) (groups : List FieldGroup) :
    addTo (field.mapCalls change) (groups.map (mapCalls change rekey)) =
      (addTo field groups).map (mapCalls change rekey) := by
  have key : (field.mapCalls change).call.responseKey = rekey field.call.responseKey := rekeys.responseKey _
  induction groups with
  | nil =>
    rw [List.map_nil, addTo, key]
    rfl
  | cons group groups ih =>
    rw [List.map_cons, addTo, addTo, key]
    by_cases same : group.key = field.call.responseKey
    · have here : (group.mapCalls change rekey).key = rekey field.call.responseKey := congrArg rekey same
      rw [if_pos same, if_pos here, List.map_cons]
      simp only [mapCalls, List.map_append, List.map_cons, List.map_nil]
    · have other : ¬ (group.mapCalls change rekey).key = rekey field.call.responseKey :=
        fun same' => same (rekeys.injective same')
      rw [if_neg same, if_neg other, ih, List.map_cons]

theorem addAll_mapCalls (rekeys : FieldCall.Rekeys change rekey) (fields : List SelectedField)
    (groups : List FieldGroup) :
    addAll (fields.map (SelectedField.mapCalls change)) (groups.map (mapCalls change rekey)) =
      (addAll fields groups).map (mapCalls change rekey) := by
  induction fields generalizing groups with
  | nil => rfl
  | cons field fields ih => rw [List.map_cons, addAll_cons, addTo_mapCalls rekeys, ih, addAll_cons]

end FieldGroup

namespace Schema

variable (schema : Schema σ) (type : ObjectType σ)

mutual

theorem selectedFields_mapCalls (name : ∀ call, (change call).name = call.name) : (selection : Selection) →
    schema.selectedFields type (selection.mapCalls change) =
      (schema.selectedFields type selection).map (SelectedField.mapCalls change)
  | .field call selections => by
    simp only [Selection.mapCalls, selectedFields, name]
    split <;> rfl
  | .fragment condition selections => by
    simp only [Selection.mapCalls, selectedFields, selectedFieldsOfAll_mapCalls name selections]
    split <;> rfl

theorem selectedFieldsOfAll_mapCalls (name : ∀ call, (change call).name = call.name) :
    (selections : List Selection) →
    schema.selectedFieldsOfAll type (Selection.mapCallsAll change selections) =
      (schema.selectedFieldsOfAll type selections).map (SelectedField.mapCalls change)
  | [] => rfl
  | selection :: rest => by
    simp only [Selection.mapCallsAll, selectedFieldsOfAll, selectedFields_mapCalls name selection,
      selectedFieldsOfAll_mapCalls name rest, List.map_append]

end

/-- Fields are grouped alike however they are asked for, as long as their
keys tell them apart. -/
theorem fieldGroups_mapCalls (rekeys : FieldCall.Rekeys change rekey) (selections : List Selection) :
    schema.fieldGroups type (Selection.mapCallsAll change selections) =
      (schema.fieldGroups type selections).map (FieldGroup.mapCalls change rekey) := by
  rw [fieldGroups_eq_addAll, fieldGroups_eq_addAll, selectedFieldsOfAll_mapCalls schema type rekeys.name]
  exact FieldGroup.addAll_mapCalls rekeys _ []

end Schema

end SelectionEngine
