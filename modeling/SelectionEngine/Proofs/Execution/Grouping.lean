import SelectionEngine.Proofs.Execution.FieldGroups
import SelectionEngine.Proofs.Schema.Coherence

namespace SelectionEngine

variable {σ : Type}

namespace ObjectType

/-- Whether fragments with this type condition are for the objects of a
type: they have none, or it is the name of the type or of an interface
that the type declares. -/
def Admits (type : ObjectType σ) : Option String → Prop
  | none => True
  | some condition => condition = type.name ∨ condition ∈ type.interfaces

instance (type : ObjectType σ) : (condition : Option String) → Decidable (type.Admits condition)
  | none => inferInstanceAs (Decidable True)
  | some condition => inferInstanceAs (Decidable (condition = type.name ∨ condition ∈ type.interfaces))

/-- Whether a name is that of the meta field or of a field that
the type declares. -/
def Selects (type : ObjectType σ) (name : String) : Prop :=
  name = typenameField ∨ name ∈ type.fields.map FieldDef.name

instance (type : ObjectType σ) (name : String) : Decidable (type.Selects name) :=
  inferInstanceAs (Decidable (name = typenameField ∨ name ∈ type.fields.map FieldDef.name))

mutual

/-- The fields of a selection on the objects of a type, depth first. -/
def flatten (type : ObjectType σ) : Selection → List SelectedField
  | .field call selections => if type.Selects call.name then [⟨call, selections⟩] else []
  | .fragment condition selections => if type.Admits condition then flattenAll type selections else []

def flattenAll (type : ObjectType σ) : List Selection → List SelectedField
  | [] => []
  | selection :: rest => flatten type selection ++ flattenAll type rest

end

theorem isSome_field?_iff {type : ObjectType σ} {name : String} :
    (type.field? name).isSome ↔ name ∈ type.fields.map FieldDef.name := by
  simp [field?, List.find?_isSome]

end ObjectType

/-- Fields under their response keys. Keys are in the order in which they occur
first, and the fields of each in theirs. -/
def SelectedField.grouped (fields : List SelectedField) : List (String × List SelectedField) :=
  (fields.map (·.call.responseKey)).eraseDups.map fun key => (key, fields.filter (·.call.responseKey = key))

namespace FieldGroup

theorem addAll_concat (fields : List SelectedField) (field : SelectedField) (groups : List FieldGroup) :
    addAll (fields ++ [field]) groups = addTo field (addAll fields groups) :=
  addAll_append fields [field] groups

/-- Keys are in the order in which they occur first. -/
theorem keys_addAll (fields : List SelectedField) :
    (addAll fields []).map key = (fields.map (·.call.responseKey)).eraseDups := by
  induction fields using List.reverseRecOn with
  | nil => rfl
  | append_singleton fields field ih =>
    rw [addAll_concat, keys_addTo, ih, List.map_append, List.eraseDups_append, List.map_singleton]
    split
    · next present =>
      have gone : [field.call.responseKey].removeAll (fields.map (·.call.responseKey)) = [] := by
        simpa [List.removeAll] using List.mem_eraseDups.mp present
      rw [gone, List.eraseDups_nil, List.append_nil]
    · next absent =>
      have kept : [field.call.responseKey].removeAll (fields.map (·.call.responseKey)) =
          [field.call.responseKey] := by
        simpa [List.removeAll] using fun present => absent (List.mem_eraseDups.mpr present)
      rw [kept, List.eraseDups_cons]
      rfl

/-- A group holds what was added to it, or it is new. -/
theorem fields_of_mem_addTo {field : SelectedField} {groups : List FieldGroup} (distinct : (groups.map key).Nodup)
    {group : FieldGroup} (member : group ∈ addTo field groups) :
    (∃ old ∈ groups, old.key = group.key ∧
        group.fields = old.fields ++ if field.call.responseKey = group.key then [field] else []) ∨
      group.key ∉ groups.map key ∧ group = ⟨field.call.responseKey, field, []⟩ := by
  induction groups with
  | nil => exact .inr ⟨List.not_mem_nil, List.mem_singleton.mp member⟩
  | cons first groups ih =>
    obtain ⟨absent, others⟩ := List.nodup_cons.mp distinct
    rw [addTo] at member
    split at member
    · next same =>
      rcases List.mem_cons.mp member with rfl | later
      · exact .inl ⟨first, .head _, rfl, by simp [fields, same]⟩
      · refine .inl ⟨group, .tail _ later, rfl, ?_⟩
        have other : field.call.responseKey ≠ group.key := by
          intro here
          exact absent (List.mem_map.mpr ⟨group, later, (same.trans here).symm⟩)
        rw [if_neg other, List.append_nil]
    · next other =>
      rcases List.mem_cons.mp member with rfl | later
      · exact .inl ⟨group, .head _, rfl, by rw [if_neg (Ne.symm other), List.append_nil]⟩
      · rcases ih others later with ⟨old, earlier, same⟩ | ⟨fresh, rfl⟩
        · exact .inl ⟨old, .tail _ earlier, same⟩
        · refine .inr ⟨?_, rfl⟩
          rw [List.map_cons, List.mem_cons, not_or]
          exact ⟨Ne.symm other, fresh⟩

/-- A group holds all fields of its key, in their order. -/
theorem fields_of_mem_addAll {fields : List SelectedField} {group : FieldGroup}
    (member : group ∈ addAll fields []) :
    group.fields = fields.filter (·.call.responseKey = group.key) := by
  induction fields using List.reverseRecOn generalizing group with
  | nil => cases member
  | append_singleton fields field ih =>
    rw [addAll_concat] at member
    have distinct : ((addAll fields []).map key).Nodup := nodup_keys_addAll fields List.nodup_nil
    rw [List.filter_append]
    rcases fields_of_mem_addTo distinct member with ⟨old, earlier, sameKey, held⟩ | ⟨fresh, rfl⟩
    · have last : [field].filter (·.call.responseKey = group.key) =
          if field.call.responseKey = group.key then [field] else [] := by
        split <;> simp [*]
      rw [held, ih earlier, sameKey, last]
    · have none : fields.filter (·.call.responseKey = field.call.responseKey) = [] := by
        refine List.filter_eq_nil_iff.mpr fun other added same => fresh ?_
        exact mem_keys_addAll.mpr (.inr ⟨other, added, of_decide_eq_true same⟩)
      simp [none, FieldGroup.fields]

theorem perm_addTo (field : SelectedField) (groups : List FieldGroup) :
    ((addTo field groups).flatMap fields).Perm (groups.flatMap fields ++ [field]) := by
  induction groups with
  | nil => exact .refl _
  | cons group groups ih =>
    rw [addTo]
    split
    · have moved : (group.fields ++ ([field] ++ groups.flatMap fields)).Perm
          (group.fields ++ (groups.flatMap fields ++ [field])) := List.perm_append_comm.append_left _
      simpa [fields] using moved
    · rw [List.flatMap_cons, List.flatMap_cons, List.append_assoc]
      exact ih.append_left _

/-- No field is lost, and none is there more often than it was added. -/
theorem perm_addAll (fields : List SelectedField) : ((addAll fields []).flatMap FieldGroup.fields).Perm fields := by
  induction fields using List.reverseRecOn with
  | nil => exact .refl _
  | append_singleton fields field ih =>
    rw [addAll_concat]
    exact (perm_addTo field _).trans (ih.append_right _)

theorem addAll_eq_grouped (fields : List SelectedField) :
    (addAll fields []).map (fun group => (group.key, group.fields)) = SelectedField.grouped fields := by
  have held : (addAll fields []).map (fun group => (group.key, group.fields)) =
      (addAll fields []).map fun group => (group.key, fields.filter (·.call.responseKey = group.key)) :=
    List.map_congr_left fun group member => by rw [fields_of_mem_addAll member]
  rw [held, SelectedField.grouped, ← keys_addAll, List.map_map]
  rfl

end FieldGroup

namespace Schema

variable {schema : Schema σ} {type : ObjectType σ}

/-- A fragment applies exactly if its condition is met by the
declaration of the type. -/
theorem applies_iff (registered : schema.Registered) (found : schema.lookup? type.name = some (.object type))
    (condition : Option String) : schema.applies type condition ↔ type.Admits condition := by
  cases condition with
  | none => exact iff_of_true rfl trivial
  | some condition =>
    rw [applies, isSubtype, decide_eq_true_iff, registered.mem_implementorsOf_iff found]
    rfl

mutual

theorem selectedFields_eq (registered : schema.Registered)
    (found : schema.lookup? type.name = some (.object type)) :
    (selection : Selection) → schema.selectedFields type selection = type.flatten selection
  | .field call selections => by
    rw [selectedFields, ObjectType.flatten]
    exact if_congr (or_congr_right ObjectType.isSome_field?_iff) rfl rfl
  | .fragment condition selections => by
    rw [selectedFields, ObjectType.flatten, selectedFieldsOfAll_eq registered found selections]
    exact if_congr (applies_iff registered found condition) rfl rfl

theorem selectedFieldsOfAll_eq (registered : schema.Registered)
    (found : schema.lookup? type.name = some (.object type)) :
    (selections : List Selection) → schema.selectedFieldsOfAll type selections = type.flattenAll selections
  | [] => rfl
  | selection :: rest => by
    rw [selectedFieldsOfAll, ObjectType.flattenAll, selectedFields_eq registered found selection,
      selectedFieldsOfAll_eq registered found rest]

end

variable (schema type)

theorem selectedFieldsOfAll_flatten (sets : List (List Selection)) :
    schema.selectedFieldsOfAll type sets.flatten = sets.flatMap (schema.selectedFieldsOfAll type) := by
  induction sets with
  | nil => rfl
  | cons selections sets ih => rw [List.flatten_cons, selectedFieldsOfAll_append, ih, List.flatMap_cons]

/-- The groups after the fields of several selection sets are
collected in turn. -/
def collectSets (sets : List (List Selection)) : List FieldGroup :=
  sets.foldl (fun groups selections => schema.collectAll type selections groups) []

/-- Collecting from set after set is collecting from all selections. -/
theorem collectSets_eq_fieldGroups (sets : List (List Selection)) :
    schema.collectSets type sets = schema.fieldGroups type sets.flatten := by
  induction sets using List.reverseRecOn with
  | nil => rfl
  | append_singleton sets selections ih =>
    rw [collectSets, List.foldl_append, ← collectSets, ih, List.flatten_concat, fieldGroups, fieldGroups,
      collectAll_append]
    rfl

variable {schema type}

/-- Fields are collected as the walk through the selection sets finds them,
grouped by response key. -/
theorem collected_as_grouped (registered : schema.Registered)
    (found : schema.lookup? type.name = some (.object type)) (sets : List (List Selection)) :
    (schema.collectSets type sets).map (fun group => (group.key, group.fields)) =
        SelectedField.grouped (sets.flatMap type.flattenAll) ∧
      ((schema.collectSets type sets).flatMap FieldGroup.fields).Perm (sets.flatMap type.flattenAll) := by
  have walked : schema.selectedFieldsOfAll type sets.flatten = sets.flatMap type.flattenAll := by
    rw [selectedFieldsOfAll_flatten, funext (selectedFieldsOfAll_eq registered found)]
  rw [collectSets_eq_fieldGroups, fieldGroups_eq_addAll, walked]
  exact ⟨FieldGroup.addAll_eq_grouped _, FieldGroup.perm_addAll _⟩

def writer : ObjectType Unit where
  name := "Writer"
  interfaces := ["Named"]
  fields := [
    { name := "name", type := .builtIn .string },
    { name := "books", type := .list (.builtIn .string) }]

/-- A writer is named, and has nothing to do with the other interface. -/
def writerTypes : List (TypeDef Unit) := [
  .interface { name := "Named", fields := [{ name := "name", type := .builtIn .string }] },
  .interface { name := "Aged", fields := [{ name := "age", type := .builtIn .int }] },
  .object writer]

def writerSchema : Schema Unit := writerTypes.foldl .insert .empty

theorem collected_as_grouped_writer : writerSchema.Registered ∧
    writerSchema.lookup? "Writer" = some (.object writer) ∧
    (writerSchema.collectSets writer [
        [.field { name := "books" } [], .fragment (some "Named") [
          .field { name := "name", label := some "who" } [],
          .fragment none [.field { name := "__typename" } [], .field { name := "age" } []],
          .fragment (some "Aged") [.field { name := "books" } []]]],
        [.fragment (some "Writer") [.fragment (some "Named") [.field { name := "books", label := some "who" } []]],
          .field { name := "books", arguments := [("first", .value (.int 2))] } []]]).map
        (fun group => (group.key, group.fields)) = [
      ("books", [⟨{ name := "books" }, []⟩,
        ⟨{ name := "books", arguments := [("first", .value (.int 2))] }, []⟩]),
      ("who", [⟨{ name := "name", label := some "who" }, []⟩, ⟨{ name := "books", label := some "who" }, []⟩]),
      ("__typename", [⟨{ name := "__typename" }, []⟩])] := by
  have registered : writerSchema.Registered :=
    Registered.empty.registerAll (show empty.registerAll writerTypes = .ok writerSchema from rfl)
  exact ⟨registered, rfl, (collected_as_grouped registered rfl _).1.trans rfl⟩

end Schema

end SelectionEngine
