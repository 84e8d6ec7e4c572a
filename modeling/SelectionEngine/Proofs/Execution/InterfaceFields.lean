import SelectionEngine.Proofs.Execution.TypedObjects
import SelectionEngine.Proofs.Schema.Coherence

namespace SelectionEngine

/-- The fields that are selected on every object of an interface: directly, or
in fragments that are for all objects or for those of the interface. -/
inductive SelectedFor (interface : String) : List Selection → SelectedField → Prop
  | field {call below selections} : .field call below ∈ selections → SelectedFor interface selections ⟨call, below⟩
  | fragment {condition inside selections field} : .fragment condition inside ∈ selections →
      condition = none ∨ condition = some interface → SelectedFor interface inside field →
      SelectedFor interface selections field

namespace Schema

variable {σ : Type} {schema : Schema σ} {type : ObjectType σ} {name : String} {selections : List Selection}

theorem selectedFieldsOfAll_eq_flatMap (schema : Schema σ) (type : ObjectType σ) (selections : List Selection) :
    schema.selectedFieldsOfAll type selections = selections.flatMap (schema.selectedFields type) := by
  induction selections with
  | nil => rfl
  | cons selection rest ih => rw [selectedFieldsOfAll, ih, List.flatMap_cons]

/-- What is selected for an interface is selected on the objects of a type that
it is a condition for, as far as the type has the fields. -/
theorem mem_selectedFieldsOfAll_of_selectedFor (applies : schema.applies type (some name) = true)
    {field : SelectedField} (declared : (type.field? field.call.name).isSome)
    (selected : SelectedFor name selections field) : field ∈ schema.selectedFieldsOfAll type selections := by
  induction selected with
  | field member =>
    rw [selectedFieldsOfAll_eq_flatMap]
    refine List.mem_flatMap.mpr ⟨_, member, ?_⟩
    rw [selectedFields, if_pos (.inr declared)]
    exact .head _
  | fragment member condition _ ih =>
    rw [selectedFieldsOfAll_eq_flatMap]
    refine List.mem_flatMap.mpr ⟨_, member, ?_⟩
    rw [selectedFields]
    rcases condition with rfl | rfl
    · exact ih declared
    · rw [if_pos applies]
      exact ih declared

theorem key_of_selected {field : SelectedField} (member : field ∈ schema.selectedFieldsOfAll type selections) :
    field.call.responseKey ∈ (schema.fieldGroups type selections).map FieldGroup.key := by
  rw [fieldGroups_eq_addAll]
  exact FieldGroup.mem_keys_addAll.mpr (.inr ⟨field, member, rfl⟩)

/-- If no earlier field of the same key has another name, the group of a field
calls for the field of its name. -/
theorem lead_name_of_first {group : FieldGroup} (member : group ∈ schema.fieldGroups type selections)
    {field : SelectedField} {before after : List SelectedField}
    (split : schema.selectedFieldsOfAll type selections = before ++ field :: after)
    (key : group.key = field.call.responseKey)
    (alike : ∀ earlier ∈ before, earlier.call.responseKey = field.call.responseKey →
      earlier.call.name = field.call.name) : group.lead.call.name = field.call.name := by
  have first := find?_of_mem_fieldGroups member
  rw [split, List.find?_append, Option.or_eq_some_iff] at first
  rcases first with earlier | ⟨_, here⟩
  · have same : group.lead.call.responseKey = group.key := by simpa using List.find?_some earlier
    exact alike _ (List.mem_of_find?_eq_some earlier) (same.trans key)
  · rw [List.find?_cons_of_pos (by simpa using key.symm)] at here
    rw [← Option.some.inj here]

/-- An object type that a value of an interface was found to be of has the fields
of the interface with their types, and the interface is a condition for it. -/
theorem Registered.implements_of_concreteType? {schema : Schema σ} (registered : schema.Registered)
    {interface : InterfaceType σ} (found : schema.lookup? name = some (.interface interface))
    {value : Value} {path : Path} (concrete : schema.concreteType? name value path = .ok (some type)) :
    schema.applies type (some name) = true ∧
      ∀ expected ∈ interface.fields, ∃ field, type.field? expected.name = some field ∧
        field.type = expected.type := by
  rcases registered.declares_of_concreteType? concrete with own | ⟨_, _, registeredAs, declared⟩
  · rw [found] at own
    cases own
  · refine ⟨(registered.coherent.subtype registeredAs name).mpr (.inr declared), ?_⟩
    obtain ⟨other, known, fields⟩ := implementationFault?_eq_none.mp (registered.implements registeredAs declared)
    rw [found] at known
    cases known
    exact fields

/-- A field of an interface that is selected at a place is collected on the
object there, has its key in it, and its value is of the type that the interface
declares if no earlier field under the key has another name. -/
structure KeepsField (schema : Schema σ) (position? : Path → Option Position) (path : Path) (type : ObjectType σ)
    (selections : List Selection) (entries : Object) (expected : FieldDef σ) (field : SelectedField) : Prop where
  collected : ∃ group ∈ schema.fieldGroups type selections, field ∈ group.fields
  present : Entries.contains entries field.call.responseKey
  typed : ∀ before after, schema.selectedFieldsOfAll type selections = before ++ field :: after →
    (∀ earlier ∈ before, earlier.call.responseKey = field.call.responseKey → earlier.call.name = field.call.name) →
    ∃ place value, position? (path.join (.key field.call.responseKey)) = some place ∧ place.type = expected.type ∧
      Entries.get? field.call.responseKey entries = some value ∧
      Conforms schema expected.type place.selections value

variable {settings : ExecutionSettings} {request : Request} {root data : Value} {state : σ} {path : Path}
  {position : Position} {interface : InterfaceType σ} {entries : Object}

theorem ne_nil_of_interface (answered : (schema.execute settings request root state).1.data = some data)
    (atPath : schema.position? settings request root state path = some position)
    (named : position.type.nullable = .named name) (found : schema.lookup? name = some (.interface interface)) :
    path ≠ [] := by
  rintro rfl
  obtain ⟨type, _, rooted, _⟩ := account_of_data answered
  cases atPath
  cases named
  rw [rootType?_eq_some.mp rooted] at found
  cases found

/-- No field of an interface is lost on the object types that implement it. -/
theorem interface_fields_kept (registered : schema.Registered)
    (answered : (schema.execute settings request root state).1.data = some data)
    (atPath : schema.position? settings request root state path = some position)
    (named : position.type.nullable = .named name) (found : schema.lookup? name = some (.interface interface))
    (present : data.at? path = some (.object entries)) :
    ∃ raw type, position.raw? = some raw ∧ schema.concreteType? name raw path = .ok (some type) ∧
      (∀ inside groups, schema.collect type (.fragment (some name) inside) groups =
        schema.collectAll type inside groups) ∧
      ∀ expected ∈ interface.fields, ∀ field, SelectedFor name position.selections field →
        field.call.name ≠ typenameField → field.call.name = expected.name →
        schema.KeepsField (schema.position? settings request root state) path type position.selections entries
          expected field := by
  have placed : ObjectTyped schema (schema.position? settings request root state) path entries := by
    cases path with
    | nil => exact absurd rfl (ne_nil_of_interface answered atPath named found)
    | cons element rest => exact objectsTyped_of_data registered answered element rest entries present
  obtain ⟨raw, type, held, concrete, conforms⟩ := placed position name atPath named fun scalar other => by
    rw [found] at other
    cases other
  obtain ⟨applies, implements⟩ := registered.implements_of_concreteType? found concrete
  refine ⟨raw, type, held, concrete, fun inside groups => by rw [collect, if_pos applies],
    fun expected member field selected notTypename sameName => ?_⟩
  obtain ⟨declared, declaredAs, sameType⟩ := implements expected member
  rw [← sameName] at declaredAs
  have selectedHere : field ∈ schema.selectedFieldsOfAll type position.selections :=
    mem_selectedFieldsOfAll_of_selectedFor applies (by simp [declaredAs]) selected
  obtain ⟨group, collected, key⟩ := List.mem_map.mp (key_of_selected selectedHere)
  cases conforms with
  | fields keys distinct each =>
    have listed : field.call.responseKey ∈ Entries.keys entries := keys ▸ key_of_selected selectedHere
    obtain ⟨⟨_, value⟩, inside, rfl⟩ := List.mem_map.mp listed
    have atKey : Entries.get? field.call.responseKey entries = some value :=
      (Entries.get?_eq_some_iff distinct).mpr inside
    refine ⟨exists_mem_fieldGroups selectedHere, by simp [Entries.contains, atKey],
      fun before after split alike => ?_⟩
    have lead := lead_name_of_first collected split key alike
    have place := placed_fields position?_join atPath named held concrete group collected
      (lead ▸ notTypename) declared (lead ▸ declaredAs)
    rw [key] at place
    refine ⟨_, value, place, sameType, atKey, ?_⟩
    cases each group collected value (key ▸ inside) with
    | typename isTypename => exact absurd (lead.symm.trans isTypename) notTypename
    | field _ own conforms =>
      rw [lead, declaredAs] at own
      cases own
      exact sameType ▸ conforms

/-- An interface with two object types, which declare its fields in another
order and have fields of their own. -/
def petTypes : List (TypeDef Unit) := [
  .interface { name := "Pet", fields := [
    { name := "name", type := .nonNull (.builtIn .string) },
    { name := "age", type := .builtIn .int }] },
  .object { name := "Cat", interfaces := ["Pet"], fields := [
    { name := "lives", type := .builtIn .int },
    { name := "name", type := .nonNull (.builtIn .string) },
    { name := "age", type := .builtIn .int }] },
  .object { name := "Dog", interfaces := ["Pet"], fields := [
    { name := "age", type := .builtIn .int },
    { name := "name", type := .nonNull (.builtIn .string) }] },
  .object { name := "Query", fields := [{ name := "pets", type := .list (.named "Pet") }] }]

def petSchema : Schema Unit := petTypes.foldl .insert .empty

/-- One field in a fragment for the interface, and one under a key that a cat
has for another field. -/
def petSelections : List Selection := [
  .fragment (some "Cat") [.field { name := "lives", label := some "age" } []],
  .fragment (some "Pet") [.field { name := "age" } [], .fragment none [.field { name := "name" } []]]]

def petRequest : Request where
  selectionSet := [.field { name := "pets" } petSelections]

def petRoot : Value := .object [("pets", .list [
  .object [("__typename", .string "Cat"), ("name", .string "Tom"), ("lives", .int 7)],
  .object [("__typename", .string "Dog"), ("name", .string "Rex"), ("age", .int 3)]])]

def petData : Value := .object [("pets", .list [
  .object [("age", .int 7), ("name", .string "Tom")],
  .object [("age", .int 3), ("name", .string "Rex")]])]

theorem registered_petSchema : petSchema.Registered :=
  Registered.empty.registerAll (show empty.registerAll petTypes = .ok petSchema from rfl)

theorem interface_fields_kept_pets : petSchema.Registered ∧
    (petSchema.execute {} petRequest petRoot ()).1.data = some petData ∧
    SelectedFor "Pet" petSelections ⟨{ name := "name" }, []⟩ ∧
    ∀ n : Nat, ∀ entries, petData.at? [.key "pets", .index n] = some (.object entries) →
      ∃ type, petSchema.KeepsField (petSchema.position? {} petRequest petRoot ()) [.key "pets", .index n] type
        petSelections entries { name := "name", type := .nonNull (.builtIn .string) } ⟨{ name := "name" }, []⟩ := by
  have answered : (petSchema.execute {} petRequest petRoot ()).1.data = some petData := rfl
  have selected : SelectedFor "Pet" petSelections ⟨{ name := "name" }, []⟩ :=
    .fragment (.tail _ (.head _)) (.inr rfl) (.fragment (.tail _ (.head _)) (.inl rfl) (.field (.head _)))
  refine ⟨registered_petSchema, answered, selected, fun n entries present => ?_⟩
  match n, present with
  | 0, present | 1, present =>
    obtain ⟨_, type, _, _, _, kept⟩ := interface_fields_kept registered_petSchema answered
      (show _ = some (⟨.named "Pet", petSelections, _⟩ : Position) from rfl) rfl rfl present
    exact ⟨type, kept _ (.head _) _ selected (by decide) rfl⟩
  | _ + 2, present => cases present

end Schema

end SelectionEngine
