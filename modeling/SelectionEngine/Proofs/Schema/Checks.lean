import SelectionEngine.Proofs.Outcomes
import SelectionEngine.Proofs.Schema.Registration

namespace SelectionEngine

variable {σ : Type}

theorem BuiltIn.ofName?_name (scalar : BuiltIn) : ofName? scalar.name = some scalar := by
  cases scalar <;> rfl

theorem BuiltIn.name_of_ofName? {name : String} {scalar : BuiltIn} (found : ofName? name = some scalar) :
    scalar.name = name := by
  simpa using List.find?_some found

theorem repeated?_eq_none {seen names : List String} :
    repeated? seen names = none ↔ names.Nodup ∧ ∀ name ∈ names, name ∉ seen := by
  induction names generalizing seen with
  | nil => simp [repeated?]
  | cons name names ih =>
    simp only [repeated?]
    split
    · next old => simp [old]
    · next new =>
      rw [ih]
      simp only [List.nodup_cons, List.forall_mem_cons, List.mem_append, List.mem_singleton, not_or]
      constructor
      · rintro ⟨distinct, fresh⟩
        exact ⟨⟨fun member => (fresh name member).2 rfl, distinct⟩, new, fun other member => (fresh other member).1⟩
      · rintro ⟨⟨absent, distinct⟩, _, fresh⟩
        refine ⟨distinct, fun other member => ⟨fresh other member, ?_⟩⟩
        rintro rfl
        exact absent member

/-- What has to hold of a field of an object or interface type, whatever
other types there are. -/
structure FieldDef.WellFormed (field : FieldDef σ) : Prop where
  type : field.type.nestedWrapper? = none
  arguments : (field.arguments.map ArgumentDef.name).Nodup
  argumentTypes : ∀ argument ∈ field.arguments, argument.type.nestedWrapper? = none

/-- What has to hold of a type, whatever other types there are. -/
structure TypeDef.WellFormed (type : TypeDef σ) : Prop where
  fields : (type.fields.map FieldDef.name).Nodup
  each : ∀ field ∈ type.fields, field.WellFormed
  inputs : ∀ input, type = .inputObject input → (input.fields.map ArgumentDef.name).Nodup ∧
    ∀ field ∈ input.fields, field.type.nestedWrapper? = none

namespace Schema

theorem checkUnique_eq_ok {typeName : String} {names : List String} :
    checkUnique typeName names = .ok () ↔ names.Nodup := by
  have distinct : repeated? [] names = none ↔ names.Nodup := by simp [repeated?_eq_none]
  rw [← distinct, checkUnique]
  cases repeated? [] names <;> simp

theorem checkType_eq_ok {type : TypeRef} : checkType type = .ok () ↔ type.nestedWrapper? = none := by
  rw [checkType]
  cases type.nestedWrapper? <;> simp

theorem checkField_eq_ok {typeName : String} {field : FieldDef σ} :
    checkField typeName field = .ok () ↔ field.WellFormed := by
  simp only [checkField, check_bind_eq_ok, checkType_eq_ok, checkUnique_eq_ok, forM_eq_ok]
  exact ⟨fun ⟨type, distinct, types⟩ => ⟨type, distinct, types⟩,
    fun formed => ⟨formed.type, formed.arguments, formed.argumentTypes⟩⟩

theorem checkFields_eq_ok {typeName : String} {fields : List (FieldDef σ)} :
    checkFields typeName fields = .ok () ↔
      (fields.map FieldDef.name).Nodup ∧ ∀ field ∈ fields, field.WellFormed := by
  simp only [checkFields, check_bind_eq_ok, checkUnique_eq_ok, forM_eq_ok, checkField_eq_ok]

theorem checkImplementation_eq_ok {schema : Schema σ} {object : ObjectType σ} {interface : String} :
    schema.checkImplementation object interface = .ok () ↔
      schema.implementationFault? object interface = none := by
  rw [checkImplementation]
  cases schema.implementationFault? object interface <;> simp

theorem missingField?_eq_none {object : ObjectType σ} {fields : List (FieldDef σ)} :
    missingField? object fields = none ↔
      ∀ expected ∈ fields, ∃ field, object.field? expected.name = some field ∧ field.type = expected.type := by
  rw [missingField?, List.findSome?_eq_none_iff]
  refine forall₂_congr fun expected _ => ?_
  cases object.field? expected.name with
  | none => simp
  | some field => simp

/-- An object type implements an interface if it has the fields of the
interface with the same types. -/
theorem implementationFault?_eq_none {schema : Schema σ} {object : ObjectType σ} {interface : String} :
    schema.implementationFault? object interface = none ↔
      ∃ type, schema.lookup? interface = some (.interface type) ∧
        ∀ expected ∈ type.fields, ∃ field, object.field? expected.name = some field ∧
          field.type = expected.type := by
  rw [implementationFault?]
  cases schema.lookup? interface with
  | none => simp
  | some target => cases target <;> simp [missingField?_eq_none]

/-- A type passes the checks if it is well formed, and an object type if it
implements its interfaces. -/
theorem check_eq_ok {schema : Schema σ} {type : TypeDef σ} :
    schema.check type = .ok () ↔ type.WellFormed ∧ ∀ object, type = .object object →
      ∀ interface ∈ object.interfaces, schema.implementationFault? object interface = none := by
  cases type with
  | scalar name => exact ⟨fun _ => ⟨⟨.nil, nofun, nofun⟩, nofun⟩, fun _ => rfl⟩
  | object object =>
    simp only [check, check_bind_eq_ok, checkFields_eq_ok, forM_eq_ok, checkImplementation_eq_ok]
    constructor
    · rintro ⟨⟨distinct, each⟩, implements⟩
      refine ⟨⟨distinct, each, nofun⟩, ?_⟩
      rintro _ ⟨⟩
      exact implements
    · rintro ⟨formed, implements⟩
      exact ⟨⟨formed.fields, formed.each⟩, implements object rfl⟩
  | interface type =>
    simp only [check, checkFields_eq_ok]
    exact ⟨fun ⟨distinct, each⟩ => ⟨⟨distinct, each, nofun⟩, nofun⟩,
      fun ⟨formed, _⟩ => ⟨formed.fields, formed.each⟩⟩
  | inputObject input =>
    simp only [check, check_bind_eq_ok, checkUnique_eq_ok, forM_eq_ok, checkType_eq_ok]
    constructor
    · rintro ⟨distinct, types⟩
      refine ⟨⟨.nil, nofun, ?_⟩, nofun⟩
      rintro _ ⟨⟩
      exact ⟨distinct, types⟩
    · exact fun ⟨formed, _⟩ => formed.inputs input rfl

/-- The types that are found in a schema are well formed. -/
theorem Registered.wellFormed {schema : Schema σ} (registered : schema.Registered) {name : String}
    {type : TypeDef σ} (found : schema.lookup? name = some type) : type.WellFormed := by
  induction registered with
  | empty =>
    obtain ⟨scalar, _, same⟩ := List.mem_map.mp (Entries.mem_of_get? found)
    cases same
    exact ⟨.nil, nofun, nofun⟩
  | register _ accepted ih =>
    obtain ⟨_, checked, rfl⟩ := register_eq_ok accepted
    rw [lookup?_insert] at found
    split at found
    · cases found
      exact (check_eq_ok.mp checked).1
    · exact ih found
  | setRootType kind root _ ih => exact ih (by rwa [lookup?_setRootType] at found)

end Schema

end SelectionEngine
