import SelectionEngine.Proofs.Schema.Listing
import SelectionEngine.Proofs.Schema.Validity

namespace SelectionEngine

variable {σ : Type}

namespace TypeRef

/-- The parts of a reference: itself, and what stands in its lists and markers. -/
inductive Part : TypeRef → TypeRef → Prop
  | self {type} : Part type type
  | list {part inner} : Part part inner → Part part (.list inner)
  | nonNull {part inner} : Part part inner → Part part (.nonNull inner)

/-- Whether a marker stands directly in a marker, or a list directly in
a list, at any depth. -/
def Nests (type : TypeRef) : Prop :=
  ∃ inner, Part (.nonNull (.nonNull inner)) type ∨ Part (.list (.list inner)) type

theorem nests_list {inner : TypeRef} : (list inner).Nests ↔ inner.isList ∨ inner.Nests := by
  constructor
  · rintro ⟨part, marker | list⟩
    · cases marker with
      | list marker => exact .inr ⟨part, .inl marker⟩
    · cases list with
      | self => exact .inl rfl
      | list list => exact .inr ⟨part, .inr list⟩
  · rintro (list | ⟨part, nested⟩)
    · cases inner with
      | list inner => exact ⟨inner, .inr .self⟩
      | _ => cases list
    · exact ⟨part, nested.imp .list .list⟩

theorem nests_nonNull {inner : TypeRef} : (nonNull inner).Nests ↔ inner.isNonNull ∨ inner.Nests := by
  constructor
  · rintro ⟨part, marker | list⟩
    · cases marker with
      | self => exact .inl rfl
      | nonNull marker => exact .inr ⟨part, .inl marker⟩
    · cases list with
      | nonNull list => exact .inr ⟨part, .inr list⟩
  · rintro (marker | ⟨part, nested⟩)
    · cases inner with
      | nonNull inner => exact ⟨inner, .inl .self⟩
      | _ => cases marker
    · exact ⟨part, nested.imp .nonNull .nonNull⟩

theorem nestedWrapper?_eq_none {type : TypeRef} : type.nestedWrapper? = none ↔ ¬ type.Nests := by
  induction type with
  | list inner ih =>
    rw [nests_list, nestedWrapper?]
    cases inner.isList <;> simp [ih]
  | nonNull inner ih =>
    rw [nests_nonNull, nestedWrapper?]
    cases inner.isNonNull <;> simp [ih]
  | _ =>
    refine ⟨fun _ => ?_, fun _ => rfl⟩
    rintro ⟨part, marker | list⟩
    · cases marker
    · cases list

end TypeRef

namespace Schema

/-- What a type has to be like so that it can be registered. -/
structure Registrable (schema : Schema σ) (type : TypeDef σ) : Prop where
  fresh : schema.lookup? type.name = none
  fields : (type.fields.map FieldDef.name).Nodup
  arguments : ∀ field ∈ type.fields, (field.arguments.map ArgumentDef.name).Nodup
  inputFields : ∀ input, type = .inputObject input → (input.fields.map ArgumentDef.name).Nodup
  references : ∀ reference ∈ type.references, ¬ reference.Nests
  implements : ∀ object, type = .object object → ∀ interface ∈ object.interfaces, ∃ known,
    schema.lookup? interface = some (.interface known) ∧ ∀ expected ∈ known.fields, ∃ field ∈ object.fields,
      field.name = expected.name ∧ field.type = expected.type

end Schema

theorem TypeDef.wellFormed_iff {type : TypeDef σ} : type.WellFormed ↔
    (type.fields.map FieldDef.name).Nodup ∧
      (∀ field ∈ type.fields, (field.arguments.map ArgumentDef.name).Nodup) ∧
      (∀ input, type = .inputObject input → (input.fields.map ArgumentDef.name).Nodup) ∧
      ∀ reference ∈ type.references, ¬ reference.Nests := by
  have references : (∀ reference ∈ type.references, ¬ reference.Nests) ↔
      (∀ field ∈ type.fields, field.type.nestedWrapper? = none) ∧
        ∀ input ∈ type.inputs, input.type.nestedWrapper? = none := by
    simp only [TypeDef.references, List.forall_mem_append, List.forall_mem_map, TypeRef.nestedWrapper?_eq_none]
  rw [references]
  constructor
  · intro formed
    refine ⟨formed.fields, fun field member => (formed.each field member).arguments,
      fun input same => (formed.inputs input same).1, fun field member => (formed.each field member).type, ?_⟩
    cases type with
    | scalar name => exact nofun
    | inputObject input => exact (formed.inputs input rfl).2
    | _ =>
      intro argument member
      obtain ⟨field, listed, member⟩ := List.mem_flatMap.mp member
      exact (formed.each field listed).argumentTypes argument member
  · rintro ⟨fields, arguments, inputs, types, inputTypes⟩
    refine ⟨fields, fun field member => ⟨types field member, arguments field member, fun argument inside => ?_⟩, ?_⟩
    · cases type with
      | object type => exact inputTypes argument (List.mem_flatMap.mpr ⟨field, member, inside⟩)
      | interface type => exact inputTypes argument (List.mem_flatMap.mpr ⟨field, member, inside⟩)
      | _ => cases member
    · rintro input rfl
      exact ⟨inputs input rfl, inputTypes⟩

/-- Where field names are distinct, a field is found under its name. -/
theorem ObjectType.field?_eq_some_iff {object : ObjectType σ} (distinct : (object.fields.map FieldDef.name).Nodup)
    {name : String} {field : FieldDef σ} :
    object.field? name = some field ↔ field ∈ object.fields ∧ field.name = name := by
  constructor
  · intro found
    exact ⟨List.mem_of_find?_eq_some found, by simpa using List.find?_some found⟩
  · rintro ⟨member, rfl⟩
    exact find?_eq_some_of_nodup distinct member

namespace Schema

variable {schema : Schema σ}

theorem check_eq_ok_iff {type : TypeDef σ} (fresh : schema.lookup? type.name = none) :
    schema.check type = .ok () ↔ schema.Registrable type := by
  have implements (object : ObjectType σ) (distinct : (object.fields.map FieldDef.name).Nodup)
      (interface : String) :
      schema.implementationFault? object interface = none ↔ ∃ known,
        schema.lookup? interface = some (.interface known) ∧ ∀ expected ∈ known.fields, ∃ field ∈ object.fields,
          field.name = expected.name ∧ field.type = expected.type := by
    simp only [implementationFault?_eq_none, ObjectType.field?_eq_some_iff distinct, and_assoc]
  rw [check_eq_ok, TypeDef.wellFormed_iff]
  constructor
  · rintro ⟨⟨fields, arguments, inputFields, references⟩, implemented⟩
    refine ⟨fresh, fields, arguments, inputFields, references, ?_⟩
    rintro object rfl interface declared
    exact (implements object fields interface).mp (implemented object rfl interface declared)
  · intro registrable
    refine ⟨⟨registrable.fields, registrable.arguments, registrable.inputFields, registrable.references⟩, ?_⟩
    rintro object rfl interface declared
    exact (implements object registrable.fields interface).mpr
      (registrable.implements object rfl interface declared)

theorem register_of_fresh {type : TypeDef σ} (fresh : schema.lookup? type.name = none) :
    schema.register type = (schema.check type).map fun _ => schema.insert type := by
  rw [register, if_neg (by simpa [Entries.contains, lookup?] using fresh)]

/-- A type is registered exactly if it can be. -/
theorem exists_register_iff {type : TypeDef σ} :
    (∃ extended, schema.register type = .ok extended) ↔ schema.Registrable type := by
  constructor
  · rintro ⟨extended, accepted⟩
    obtain ⟨fresh, checked, _⟩ := register_eq_ok accepted
    exact (check_eq_ok_iff fresh).mp checked
  · intro registrable
    refine ⟨schema.insert type, ?_⟩
    rw [register_of_fresh registrable.fresh, (check_eq_ok_iff registrable.fresh).mpr registrable]
    rfl

/-- Attempts leave the schema that the accepted types alone make. -/
theorem registerAll_accepted (attempted : List (TypeDef σ)) :
    schema.registerAll (schema.accepted attempted) = .ok (schema.attemptAll attempted) := by
  induction attempted generalizing schema with
  | nil => rfl
  | cons type types ih =>
    rw [accepted, attemptAll, List.foldl_cons, ← attemptAll]
    cases tried : schema.register type with
    | error fault => rw [attempt_of_error tried, ih]
    | ok extended =>
      rw [attempt_of_ok tried, registerAll, List.foldlM_cons, tried]
      exact ih

end Schema

end SelectionEngine
