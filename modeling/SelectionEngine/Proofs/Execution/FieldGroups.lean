import Mathlib.Data.List.Nodup
import SelectionEngine.Execution.FieldGroup

namespace SelectionEngine

namespace FieldGroup

/-- Adds fields one after another to the groups of their response keys. -/
def addAll (fields : List SelectedField) (groups : List FieldGroup) : List FieldGroup :=
  fields.foldl (fun groups field => addTo field groups) groups

@[simp] theorem addAll_nil (groups : List FieldGroup) : addAll [] groups = groups := rfl

@[simp] theorem addAll_cons (field : SelectedField) (fields : List SelectedField) (groups : List FieldGroup) :
    addAll (field :: fields) groups = addAll fields (addTo field groups) := rfl

theorem addAll_append (front back : List SelectedField) (groups : List FieldGroup) :
    addAll (front ++ back) groups = addAll back (addAll front groups) :=
  List.foldl_append

theorem keys_addTo (field : SelectedField) (groups : List FieldGroup) :
    (addTo field groups).map key =
      if field.call.responseKey ∈ groups.map key then groups.map key
      else groups.map key ++ [field.call.responseKey] := by
  induction groups with
  | nil => rfl
  | cons group groups ih =>
    simp only [addTo]
    by_cases same : group.key = field.call.responseKey
    · simp [same]
    · simp only [if_neg same, List.map_cons, ih, List.mem_cons, Ne.symm same, false_or]
      split <;> rfl

theorem nodup_keys_addTo {groups : List FieldGroup} (distinct : (groups.map key).Nodup)
    (field : SelectedField) : ((addTo field groups).map key).Nodup := by
  rw [keys_addTo]
  split
  · exact distinct
  · next absent => exact List.nodup_append.mpr ⟨distinct, List.nodup_singleton _, by simpa using absent⟩

theorem nodup_keys_addAll (fields : List SelectedField) {groups : List FieldGroup}
    (distinct : (groups.map key).Nodup) : ((addAll fields groups).map key).Nodup := by
  induction fields generalizing groups with
  | nil => exact distinct
  | cons field fields ih => exact ih (nodup_keys_addTo distinct field)

theorem mem_keys_addAll {fields : List SelectedField} {groups : List FieldGroup} {name : String} :
    name ∈ (addAll fields groups).map key ↔
      name ∈ groups.map key ∨ ∃ field ∈ fields, field.call.responseKey = name := by
  induction fields generalizing groups with
  | nil => simp
  | cons field fields ih =>
    rw [addAll_cons, ih, keys_addTo]
    split
    · next present =>
      constructor
      · rintro (old | ⟨other, member, rfl⟩)
        · exact .inl old
        · exact .inr ⟨other, .tail _ member, rfl⟩
      · rintro (old | ⟨other, member, rfl⟩)
        · exact .inl old
        · rcases List.mem_cons.mp member with rfl | later
          · exact .inl present
          · exact .inr ⟨other, later, rfl⟩
    · simp only [List.mem_append, List.mem_singleton, List.exists_mem_cons_iff, or_assoc, @eq_comm _ name]

/-- Every field of a group was added to it. -/
theorem mem_of_mem_addTo {field other : SelectedField} {groups : List FieldGroup} {group : FieldGroup}
    (member : group ∈ addTo field groups) (inside : other ∈ group.fields) :
    other = field ∨ ∃ group ∈ groups, other ∈ group.fields := by
  induction groups with
  | nil =>
    obtain rfl : group = ⟨field.call.responseKey, field, []⟩ := by simpa [addTo] using member
    exact .inl (by simpa [fields] using inside)
  | cons first groups ih =>
    simp only [addTo] at member
    split at member
    · rcases List.mem_cons.mp member with rfl | later
      · simp only [fields, List.mem_cons, List.mem_append, List.not_mem_nil, or_false] at inside
        rcases inside with rfl | old | rfl
        · exact .inr ⟨first, .head _, .head _⟩
        · exact .inr ⟨first, .head _, .tail _ old⟩
        · exact .inl rfl
      · exact .inr ⟨group, .tail _ later, inside⟩
    · rcases List.mem_cons.mp member with rfl | later
      · exact .inr ⟨group, .head _, inside⟩
      · rcases ih later with same | ⟨group, old, inside⟩
        · exact .inl same
        · exact .inr ⟨group, .tail _ old, inside⟩

theorem mem_of_mem_addAll {fields : List SelectedField} {other : SelectedField} {groups : List FieldGroup}
    {group : FieldGroup} (member : group ∈ addAll fields groups) (inside : other ∈ group.fields) :
    other ∈ fields ∨ ∃ group ∈ groups, other ∈ group.fields := by
  induction fields generalizing groups with
  | nil => exact .inr ⟨group, member, inside⟩
  | cons field fields ih =>
    rcases ih member with added | ⟨group, earlier, inside⟩
    · exact .inl (.tail _ added)
    · rcases mem_of_mem_addTo earlier inside with rfl | old
      · exact .inl (.head _)
      · exact .inr old

/-- What is added is in a group, and what was in one before still is. -/
theorem mem_addTo {field other : SelectedField} {groups : List FieldGroup}
    (given : other = field ∨ ∃ group ∈ groups, other ∈ group.fields) :
    ∃ group ∈ addTo field groups, other ∈ group.fields := by
  induction groups with
  | nil =>
    have new : other = field := given.resolve_right (by simp)
    exact ⟨_, .head _, new ▸ .head _⟩
  | cons first groups ih =>
    rw [addTo]
    split
    · rcases given with rfl | ⟨group, member, inside⟩
      · exact ⟨_, .head _, by simp [fields]⟩
      · rcases List.mem_cons.mp member with rfl | later
        · have kept : other ∈ group.lead :: group.others := inside
          exact ⟨_, .head _, by simpa [fields] using (List.mem_cons.mp kept).imp_right .inl⟩
        · exact ⟨group, .tail _ later, inside⟩
    · rcases given with new | ⟨group, member, inside⟩
      · obtain ⟨group, member, inside⟩ := ih (.inl new)
        exact ⟨group, .tail _ member, inside⟩
      · rcases List.mem_cons.mp member with rfl | later
        · exact ⟨_, .head _, inside⟩
        · obtain ⟨group, member, inside⟩ := ih (.inr ⟨group, later, inside⟩)
          exact ⟨group, .tail _ member, inside⟩

theorem mem_addAll {fields : List SelectedField} {other : SelectedField} {groups : List FieldGroup}
    (given : other ∈ fields ∨ ∃ group ∈ groups, other ∈ group.fields) :
    ∃ group ∈ addAll fields groups, other ∈ group.fields := by
  induction fields generalizing groups with
  | nil => exact given.resolve_left (by simp)
  | cons field fields ih =>
    rcases given with member | earlier
    · rcases List.mem_cons.mp member with rfl | later
      · exact ih (.inr (mem_addTo (.inl rfl)))
      · exact ih (.inl later)
    · exact ih (.inr (mem_addTo (.inr earlier)))

theorem lead_of_mem_addTo {field : SelectedField} {groups : List FieldGroup} {group : FieldGroup}
    (member : group ∈ addTo field groups) :
    (∃ old ∈ groups, old.key = group.key ∧ old.lead = group.lead) ∨
      group.key ∉ groups.map key ∧ group.key = field.call.responseKey ∧ group.lead = field := by
  induction groups with
  | nil =>
    obtain rfl := List.mem_singleton.mp member
    exact .inr ⟨List.not_mem_nil, rfl, rfl⟩
  | cons first groups ih =>
    rw [addTo] at member
    split at member
    · rcases List.mem_cons.mp member with rfl | later
      · exact .inl ⟨first, .head _, rfl, rfl⟩
      · exact .inl ⟨group, .tail _ later, rfl, rfl⟩
    · next other =>
      rcases List.mem_cons.mp member with rfl | later
      · exact .inl ⟨group, .head _, rfl, rfl⟩
      · rcases ih later with ⟨old, earlier, same⟩ | ⟨absent, named, lead⟩
        · exact .inl ⟨old, .tail _ earlier, same⟩
        · refine .inr ⟨?_, named, lead⟩
          rw [List.map_cons, List.mem_cons, not_or]
          exact ⟨fun same => other (same.symm.trans named), absent⟩

/-- The first field of a new group is the first one that was
added under its key. -/
theorem lead_of_mem_addAll {fields : List SelectedField} {groups : List FieldGroup} {group : FieldGroup}
    (member : group ∈ addAll fields groups) :
    (∃ old ∈ groups, old.key = group.key ∧ old.lead = group.lead) ∨
      group.key ∉ groups.map key ∧ fields.find? (·.call.responseKey = group.key) = some group.lead := by
  induction fields generalizing groups with
  | nil => exact .inl ⟨group, member, rfl, rfl⟩
  | cons field fields ih =>
    rcases ih member with ⟨added, earlier, sameKey, sameLead⟩ | ⟨absent, found⟩
    · rcases lead_of_mem_addTo earlier with ⟨old, there, oldKey, oldLead⟩ | ⟨absent, named, lead⟩
      · exact .inl ⟨old, there, oldKey.trans sameKey, oldLead.trans sameLead⟩
      · rw [sameKey] at absent named
        refine .inr ⟨absent, ?_⟩
        rw [List.find?_cons_of_pos (by simpa using named.symm), ← sameLead, lead]
    · rw [keys_addTo] at absent
      split at absent
      · next present =>
        refine .inr ⟨absent, ?_⟩
        rwa [List.find?_cons_of_neg]
        simp only [decide_eq_true_eq]
        rintro same
        exact absent (same ▸ present)
      · rw [List.mem_append, List.mem_singleton, not_or] at absent
        refine .inr ⟨absent.1, ?_⟩
        rwa [List.find?_cons_of_neg (by simpa using Ne.symm absent.2)]

theorem addTo_append {field : SelectedField} {front : List FieldGroup} (back : List FieldGroup)
    (absent : field.call.responseKey ∉ front.map key) :
    addTo field (front ++ back) = front ++ addTo field back := by
  induction front with
  | nil => rfl
  | cons group front ih =>
    obtain ⟨other, later⟩ : field.call.responseKey ≠ group.key ∧ field.call.responseKey ∉ front.map key := by
      simpa using absent
    simp only [List.cons_append, addTo, if_neg (Ne.symm other), ih later]

/-- Fields of other keys leave the groups before them as they are. -/
theorem addAll_append_of_disjoint {fields : List SelectedField} {front : List FieldGroup}
    (back : List FieldGroup) (absent : ∀ field ∈ fields, field.call.responseKey ∉ front.map key) :
    addAll fields (front ++ back) = front ++ addAll fields back := by
  induction fields generalizing back with
  | nil => rfl
  | cons field fields ih =>
    rw [addAll_cons, addTo_append back (absent field (.head _)), addAll_cons,
      ih _ fun field member => absent field (.tail _ member)]

end FieldGroup

namespace Selection

theorem depthOfAll_append (front back : List Selection) :
    depthOfAll (front ++ back) = max (depthOfAll front) (depthOfAll back) := by
  induction front with
  | nil => simp [depthOfAll]
  | cons selection front ih => simp only [List.cons_append, depthOfAll, ih, Nat.max_assoc]

theorem depthOfAll_flatMap_le {α : Type} {items : List α} {below : α → List Selection} {depth : Nat}
    (bounded : ∀ item ∈ items, depthOfAll (below item) ≤ depth) : depthOfAll (items.flatMap below) ≤ depth := by
  induction items with
  | nil => simp [depthOfAll]
  | cons item items ih =>
    rw [List.flatMap_cons, depthOfAll_append]
    exact Nat.max_le.mpr ⟨bounded item (.head _), ih fun item member => bounded item (.tail _ member)⟩

end Selection

namespace Schema

variable {σ : Type} (schema : Schema σ) (type : ObjectType σ)

mutual

/-- The fields of a selection that apply to the objects of a type, in
the order of the text. -/
def selectedFields : Selection → List SelectedField
  | .field call selections =>
    if call.name = typenameField ∨ (type.field? call.name).isSome then [⟨call, selections⟩] else []
  | .fragment condition selections =>
    if schema.applies type condition then selectedFieldsOfAll selections else []

def selectedFieldsOfAll : List Selection → List SelectedField
  | [] => []
  | selection :: rest => selectedFields selection ++ selectedFieldsOfAll rest

end

mutual

theorem collect_eq_addAll : (selection : Selection) → (groups : List FieldGroup) →
    schema.collect type selection groups = FieldGroup.addAll (schema.selectedFields type selection) groups
  | .field call selections, groups => by
    simp only [collect, selectedFields]
    split <;> rfl
  | .fragment condition selections, groups => by
    simp only [collect, selectedFields]
    split
    · exact collectAll_eq_addAll selections groups
    · rfl

theorem collectAll_eq_addAll : (selections : List Selection) → (groups : List FieldGroup) →
    schema.collectAll type selections groups =
      FieldGroup.addAll (schema.selectedFieldsOfAll type selections) groups
  | [], _ => rfl
  | selection :: rest, groups => by
    simp only [collectAll, selectedFieldsOfAll, FieldGroup.addAll_append, collect_eq_addAll selection groups,
      collectAll_eq_addAll rest]

end

theorem fieldGroups_eq_addAll (selections : List Selection) :
    schema.fieldGroups type selections = FieldGroup.addAll (schema.selectedFieldsOfAll type selections) [] :=
  schema.collectAll_eq_addAll type selections []

theorem selectedFieldsOfAll_append (front back : List Selection) :
    schema.selectedFieldsOfAll type (front ++ back) =
      schema.selectedFieldsOfAll type front ++ schema.selectedFieldsOfAll type back := by
  induction front with
  | nil => rfl
  | cons selection front ih => simp only [List.cons_append, selectedFieldsOfAll, ih, List.append_assoc]

theorem collectAll_append (front back : List Selection) (groups : List FieldGroup) :
    schema.collectAll type (front ++ back) groups =
      schema.collectAll type back (schema.collectAll type front groups) := by
  rw [collectAll_eq_addAll, collectAll_eq_addAll, collectAll_eq_addAll, selectedFieldsOfAll_append,
    FieldGroup.addAll_append]

mutual

/-- A field that is selected is one the type has, and it nests less
deep than the selection. -/
theorem mem_selectedFields {field : SelectedField} : {selection : Selection} →
    field ∈ schema.selectedFields type selection →
      (field.call.name = typenameField ∨ (type.field? field.call.name).isSome) ∧
        Selection.depthOfAll field.selections < selection.depth
  | .field call selections, member => by
    simp only [selectedFields] at member
    split at member
    · next declared =>
      obtain rfl := List.mem_singleton.mp member
      exact ⟨declared, by simp only [Selection.depth]; omega⟩
    · simp at member
  | .fragment condition selections, member => by
    simp only [selectedFields] at member
    split at member
    · exact mem_selectedFieldsOfAll member
    · simp at member

theorem mem_selectedFieldsOfAll {field : SelectedField} : {selections : List Selection} →
    field ∈ schema.selectedFieldsOfAll type selections →
      (field.call.name = typenameField ∨ (type.field? field.call.name).isSome) ∧
        Selection.depthOfAll field.selections < Selection.depthOfAll selections
  | [], member => by simp [selectedFieldsOfAll] at member
  | selection :: rest, member => by
    simp only [selectedFieldsOfAll, List.mem_append] at member
    simp only [Selection.depthOfAll]
    rcases member with first | later
    · exact (mem_selectedFields first).imp_right fun less => Nat.lt_of_lt_of_le less (Nat.le_max_left ..)
    · exact (mem_selectedFieldsOfAll later).imp_right fun less => Nat.lt_of_lt_of_le less (Nat.le_max_right ..)

end

theorem nodup_fieldGroups (selections : List Selection) :
    ((schema.fieldGroups type selections).map FieldGroup.key).Nodup := by
  rw [fieldGroups_eq_addAll]
  exact FieldGroup.nodup_keys_addAll _ List.nodup_nil

variable {schema type} {selections : List Selection} {group : FieldGroup}

theorem mem_fields_of_mem_fieldGroups (member : group ∈ schema.fieldGroups type selections)
    {field : SelectedField} (inside : field ∈ group.fields) :
    field ∈ schema.selectedFieldsOfAll type selections := by
  rw [fieldGroups_eq_addAll] at member
  simpa using FieldGroup.mem_of_mem_addAll member inside

/-- Every field that is selected is in a group. -/
theorem exists_mem_fieldGroups {field : SelectedField}
    (member : field ∈ schema.selectedFieldsOfAll type selections) :
    ∃ group ∈ schema.fieldGroups type selections, field ∈ group.fields := by
  rw [fieldGroups_eq_addAll]
  exact FieldGroup.mem_addAll (.inl member)

/-- The first field of a group is one the type has. -/
theorem lead_of_mem_fieldGroups (member : group ∈ schema.fieldGroups type selections) :
    group.lead.call.name = typenameField ∨ (type.field? group.lead.call.name).isSome :=
  (schema.mem_selectedFieldsOfAll type (mem_fields_of_mem_fieldGroups member (.head _))).1

/-- The first field of a group is the first one that is selected under its key. -/
theorem find?_of_mem_fieldGroups (member : group ∈ schema.fieldGroups type selections) :
    (schema.selectedFieldsOfAll type selections).find? (·.call.responseKey = group.key) = some group.lead := by
  rw [fieldGroups_eq_addAll] at member
  rcases FieldGroup.lead_of_mem_addAll member with ⟨_, none, _⟩ | ⟨_, found⟩
  · cases none
  · exact found

/-- What is selected below a group nests less deep than the selections
it was collected from. -/
theorem depth_of_mem_fieldGroups (member : group ∈ schema.fieldGroups type selections) :
    Selection.depthOfAll group.selections < Selection.depthOfAll selections := by
  have deeper (field : SelectedField) (inside : field ∈ group.fields) :=
    (schema.mem_selectedFieldsOfAll type (mem_fields_of_mem_fieldGroups member inside)).2
  have positive := Nat.zero_lt_of_lt (deeper group.lead (.head _))
  have bounded : Selection.depthOfAll group.selections ≤ Selection.depthOfAll selections - 1 :=
    Selection.depthOfAll_flatMap_le fun field inside => Nat.le_sub_one_of_lt (deeper field inside)
  omega

theorem fieldGroups_eq_nil (flat : Selection.depthOfAll selections = 0) :
    schema.fieldGroups type selections = [] :=
  List.eq_nil_iff_forall_not_mem.mpr fun _ member => absurd (depth_of_mem_fieldGroups member) (by omega)

/-- Selections whose response keys are different are grouped independently. -/
theorem fieldGroups_append {front back : List Selection}
    (disjoint : ∀ one ∈ schema.fieldGroups type front, ∀ two ∈ schema.fieldGroups type back,
      one.key ≠ two.key) :
    schema.fieldGroups type (front ++ back) =
      schema.fieldGroups type front ++ schema.fieldGroups type back := by
  have absent (field : SelectedField) (member : field ∈ schema.selectedFieldsOfAll type back) :
      field.call.responseKey ∉ (schema.fieldGroups type front).map FieldGroup.key := by
    intro present
    obtain ⟨one, inFront, key⟩ := List.mem_map.mp present
    have inBack : field.call.responseKey ∈ (schema.fieldGroups type back).map FieldGroup.key := by
      rw [fieldGroups_eq_addAll]
      exact FieldGroup.mem_keys_addAll.mpr (.inr ⟨field, member, rfl⟩)
    obtain ⟨two, inBack, same⟩ := List.mem_map.mp inBack
    exact disjoint one inFront two inBack (key.trans same.symm)
  rw [schema.fieldGroups_eq_addAll type (front ++ back), selectedFieldsOfAll_append, FieldGroup.addAll_append,
    ← fieldGroups_eq_addAll, schema.fieldGroups_eq_addAll type back]
  simpa using FieldGroup.addAll_append_of_disjoint [] absent

end Schema

end SelectionEngine
