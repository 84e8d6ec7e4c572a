import SelectionEngine.Coercion
import SelectionEngine.Proofs.Entries

namespace SelectionEngine

theorem Value.list_ne_null (items : List Value) : list items ≠ null := by simp

theorem Value.object_ne_null (entries : Object) : object entries ≠ null := by simp

/-- What holds of a list or an object as soon as it holds of its
parts holds of all values. -/
@[elab_as_elim]
theorem Value.byParts {motive : Value → Prop}
    (plain : ∀ value, (∀ items, value ≠ .list items) → (∀ entries, value ≠ .object entries) → motive value)
    (list : ∀ items, (∀ item ∈ items, motive item) → motive (.list items))
    (object : ∀ entries : Object, (∀ key value, (key, value) ∈ entries → motive value) → motive (.object entries)) :
    (value : Value) → motive value
  | .null => plain _ (by simp) (by simp)
  | .bool _ => plain _ (by simp) (by simp)
  | .int _ => plain _ (by simp) (by simp)
  | .double _ => plain _ (by simp) (by simp)
  | .string _ => plain _ (by simp) (by simp)
  | .list items => list items fun item _member => byParts plain list object item
  | .object entries => object entries fun key value _member => byParts plain list object value
termination_by value => sizeOf value
decreasing_by
  · have smaller := List.sizeOf_lt_of_mem _member
    simp only [Value.list.sizeOf_spec]
    omega
  · have smaller := List.sizeOf_lt_of_mem _member
    simp only [Value.object.sizeOf_spec, Prod.mk.sizeOf_spec] at smaller ⊢
    omega

theorem TypeRef.isNonNull_nullable (type : TypeRef) : type.nullable.isNonNull = false := by
  induction type with
  | nonNull inner ih => exact ih
  | _ => rfl

namespace Schema

variable {σ : Type} (schema : Schema σ) (substitute : ArgumentDef → String → Except ArgumentError (Option Value))

theorem coerceGiven_null (type : TypeRef) (path : String) :
    schema.coerceGiven substitute .null type path =
      if type.isNonNull then .error (.missing path) else .ok .null := by
  rw [coerceGiven]

/-- A value that is not null is coerced to the type without its marker. -/
theorem coerceGiven_nonNull {value : Value} (present : value ≠ .null) (inner : TypeRef) (path : String) :
    schema.coerceGiven substitute value (.nonNull inner) path = schema.coerceGiven substitute value inner path := by
  cases value with
  | null => exact absurd rfl present
  | _ => simp only [coerceGiven, TypeRef.nullable]

theorem coerceItems_eq_mapM (items : List Value) (inner : TypeRef) (path : String) (start : Nat) :
    schema.coerceItems substitute items inner path start =
      (items.zipIdx start).mapM fun entry =>
        schema.coerceGiven substitute entry.1 inner s!"{path}[{entry.2}]" := by
  induction items generalizing start with
  | nil => simp only [coerceItems, List.zipIdx_nil, List.mapM_nil]; rfl
  | cons item items ih => simp only [coerceItems, List.zipIdx_cons, List.mapM_cons, ih]

/-- The items of a list are coerced one after another, each at its index. -/
theorem coerceGiven_items {type inner : TypeRef} (list : type.nullable = .list inner) (items : List Value)
    (path : String) :
    schema.coerceGiven substitute (.list items) type path =
      (items.zipIdx.mapM fun entry =>
        schema.coerceGiven substitute entry.1 inner s!"{path}[{entry.2}]").map .list := by
  simp only [coerceGiven, list, coerceItems_eq_mapM]

/-- An input object is coerced field by field. -/
theorem coerceGiven_fields {type : TypeRef} {name : String} {input : InputObjectType}
    (named : type.nullable = .named name) (found : schema.lookup? name = some (.inputObject input))
    (entries : Object) (path : String) :
    schema.coerceGiven substitute (.object entries) type path =
      (coerceFields (fun field path => schema.coerceEntry substitute field path entries) input.fields
        path).map .object := by
  simp only [coerceGiven, named, found]

/-- The entries of the fields that come to a value. -/
def entriesOf (fields : List ArgumentDef) (outcomes : List (Option Value)) : Object :=
  (fields.zip outcomes).foldl (fun coerced entry =>
    entry.2.elim coerced fun value => Entries.set entry.1.name value coerced) []

/-- Fields are coerced one after another, each at its name, and
not by what came before. -/
theorem coerceFields_eq_mapM (coerceField : ArgumentDef → String → Except ArgumentError (Option Value))
    (fields : List ArgumentDef) (path : String) :
    coerceFields coerceField fields path =
      (fields.mapM fun field => coerceField field (path ++ "." ++ field.name)).map (entriesOf fields) := by
  unfold coerceFields entriesOf
  generalize ([] : Object) = coerced
  induction fields generalizing coerced with
  | nil => rfl
  | cons field fields ih =>
    rw [List.foldlM_cons, List.mapM_cons]
    rcases coerceField field (path ++ "." ++ field.name) with error | (_ | value)
    · rfl
    · refine (ih coerced).trans ?_
      rcases fields.mapM fun field => coerceField field (path ++ "." ++ field.name) with _ | outcomes <;> rfl
    · refine (ih (Entries.set field.name value coerced)).trans ?_
      rcases fields.mapM fun field => coerceField field (path ++ "." ++ field.name) with _ | outcomes <;> rfl

/-- Whether no parts of a value are coerced by themselves. -/
def IsWhole (type : TypeRef) (value : Value) : Prop :=
  (∀ inner items, type.nullable = .list inner → value ≠ .list items) ∧
    ∀ name input entries, type.nullable = .named name → schema.lookup? name = some (.inputObject input) →
      value ≠ .object entries

theorem coerceGiven_whole {type : TypeRef} {value : Value} (present : value ≠ .null)
    (whole : schema.IsWhole type value) (path : String) :
    schema.coerceGiven substitute value type path = schema.coerceWhole type.nullable value path := by
  cases value with
  | null => exact absurd rfl present
  | list items =>
    simp only [coerceGiven]
    split
    · next inner list => exact absurd rfl (whole.1 inner items list)
    · rfl
  | object entries =>
    simp only [coerceGiven]
    split
    · next name named =>
      split
      · next input found => exact absurd rfl (whole.2 name input entries named found)
      · rw [named]
    · rfl
  | _ => simp only [coerceGiven]

/-- What a field comes to. One outcome is for a value that is absent, or null
where there must be none. -/
def fieldOutcome (absent : Except ArgumentError (Option Value)) (coerce : Value → Except ArgumentError Value)
    (type : TypeRef) : Option Value → Except ArgumentError (Option Value)
  | none => absent
  | some value =>
    if value.isNull then if type.isNonNull then absent else .ok (some .null) else (coerce value).map some

section

variable {absent : Except ArgumentError (Option Value)} {coerce other : Value → Except ArgumentError Value}
  {type : TypeRef}

theorem fieldOutcome_null :
    fieldOutcome absent coerce type (some .null) = if type.isNonNull then absent else .ok (some .null) := rfl

theorem fieldOutcome_present {value : Value} (present : value ≠ .null) :
    fieldOutcome absent coerce type (some value) = (coerce value).map some := by
  cases value with
  | null => exact absurd rfl present
  | _ => rfl

theorem fieldOutcome_congr {given? : Option Value}
    (values : ∀ value, given? = some value → coerce value = other value) :
    fieldOutcome absent coerce type given? = fieldOutcome absent other type given? := by
  cases given? with
  | none => rfl
  | some value => simp only [fieldOutcome, values value rfl]

end

/-- Of an object it only counts for a field what is found under its name. -/
theorem coerceEntry_eq (field : ArgumentDef) (path : String) (entries : Object) :
    schema.coerceEntry substitute field path entries =
      fieldOutcome (substitute field path) (fun value => schema.coerceGiven substitute value field.type path)
        field.type (Entries.get? field.name entries) := by
  induction entries with
  | nil => rfl
  | cons entry rest ih =>
    obtain ⟨key, value⟩ := entry
    rw [coerceEntry, Entries.get?]
    split
    · rfl
    · exact ih

/-- Values by the way in which they are coerced: nulls, what is coerced as a
whole, lists item by item and input objects field by field. -/
@[elab_as_elim]
theorem byCoercion {motive : TypeRef → Value → Prop}
    (null : ∀ type, motive type .null)
    (whole : ∀ type value, value ≠ .null → schema.IsWhole type value → motive type value)
    (items : ∀ type inner items, type.nullable = .list inner → (∀ item ∈ items, motive inner item) →
      motive type (.list items))
    (fields : ∀ type name input entries, type.nullable = .named name →
      schema.lookup? name = some (.inputObject input) →
      (∀ field ∈ input.fields, ∀ value, Entries.get? field.name entries = some value → motive field.type value) →
      motive type (.object entries))
    (type : TypeRef) (value : Value) : motive type value := by
  induction value using Value.byParts generalizing type with
  | plain value noList noObject =>
    by_cases absent : value = .null
    · exact absent ▸ null type
    · exact whole type value absent ⟨fun _ items _ => noList items, fun _ _ entries _ _ => noObject entries⟩
  | list values ih =>
    by_cases list : ∃ inner, type.nullable = .list inner
    · obtain ⟨inner, list⟩ := list
      exact items type inner values list fun item member => ih item member inner
    · exact whole type _ (Value.list_ne_null _) ⟨fun inner _ known => absurd ⟨inner, known⟩ list, by simp⟩
  | object entries ih =>
    by_cases input : ∃ name input, type.nullable = .named name ∧ schema.lookup? name = some (.inputObject input)
    · obtain ⟨name, input, named, found⟩ := input
      exact fields type name input entries named found fun field _ value given =>
        ih field.name value (Entries.mem_of_get? given) field.type
    · exact whole type _ (Value.object_ne_null _)
        ⟨by simp, fun name _ _ named found => absurd ⟨name, _, named, found⟩ input⟩

end Schema

end SelectionEngine
