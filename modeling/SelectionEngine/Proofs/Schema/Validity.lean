import SelectionEngine.Proofs.Outcomes
import SelectionEngine.Schema.Validation

namespace SelectionEngine

variable {σ : Type}

theorem TypeRef.innerName_nullable (type : TypeRef) : type.nullable.innerName = type.innerName := by
  induction type with
  | nonNull inner ih => exact ih
  | _ => rfl

theorem TypeRef.innerName_of_nullable {type inner : TypeRef} (list : type.nullable = .list inner) :
    inner.innerName = type.innerName := by
  rw [← innerName_nullable type, list]
  rfl

/-- The arguments of all fields, or the fields of an input object type. -/
def TypeDef.inputs : TypeDef σ → List ArgumentDef
  | scalar _ => []
  | object type => type.fields.flatMap FieldDef.arguments
  | interface type => type.fields.flatMap FieldDef.arguments
  | inputObject type => type.fields

/-- The types that a type refers to. -/
def TypeDef.references (type : TypeDef σ) : List TypeRef :=
  type.fields.map FieldDef.type ++ type.inputs.map ArgumentDef.type

namespace Schema

variable (schema : Schema σ)

/-- Whether a reference is to a registered type that values can be coerced to. -/
def IsInput (type : TypeRef) : Prop :=
  ∃ target, schema.lookup? type.innerName = some target ∧ target.isInput = true

/-- Whether a reference is to a registered type that values can
be completed as. -/
def IsOutput (type : TypeRef) : Prop :=
  ∃ target, schema.lookup? type.innerName = some target ∧ target.isOutput = true

/-- What validation finds out about an argument or an input field. -/
structure InputValid (input : ArgumentDef) : Prop where
  type : schema.IsInput input.type
  default : ∀ value, input.default = some value →
    ∃ coordinate result, schema.coerceValue value input.type coordinate = .ok result

/-- What validation finds out about a field of an object or interface type. -/
structure FieldValid (field : FieldDef σ) : Prop where
  type : schema.IsOutput field.type
  arguments : ∀ argument ∈ field.arguments, schema.InputValid argument

variable {schema}

theorem exists_of_lookup {name : String} {target : TypeDef σ} (found : schema.lookup name = .ok target) :
    schema.lookup? name = some target := by
  rw [lookup] at found
  cases known : schema.lookup? name with
  | none => simp [known] at found
  | some type => simpa [known] using found

theorem inputValid_of_validateInput {coordinate : String} {input : ArgumentDef}
    (valid : schema.validateInput coordinate input = .ok ()) : schema.InputValid input := by
  obtain ⟨target, found, rest⟩ := bind_eq_ok.mp valid
  cases isInput : target.isInput with
  | false => simp [isInput, throw, throwThe, MonadExceptOf.throw, bind, Except.bind] at rest
  | true =>
    simp only [isInput, Bool.not_true, Bool.false_eq_true, if_false] at rest
    refine ⟨⟨target, exists_of_lookup found, isInput⟩, fun value given => ⟨coordinate, ?_⟩⟩
    cases coerced : schema.coerceValue value input.type coordinate with
    | ok result => exact ⟨result, rfl⟩
    | error cause => simp [given, coerced, throw, throwThe, MonadExceptOf.throw] at rest

theorem fieldValid_of_validateField {typeName : String} {field : FieldDef σ}
    (valid : schema.validateField typeName field = .ok ()) : schema.FieldValid field := by
  obtain ⟨target, found, rest⟩ := bind_eq_ok.mp valid
  cases isOutput : target.isOutput with
  | false => simp [isOutput, throw, throwThe, MonadExceptOf.throw, bind, Except.bind] at rest
  | true =>
    simp only [isOutput, Bool.not_true, Bool.false_eq_true, if_false] at rest
    exact ⟨⟨target, exists_of_lookup found, isOutput⟩,
      fun argument member => inputValid_of_validateInput (forM_eq_ok.mp rest argument member)⟩

/-- What a valid schema declares is valid, whatever its type is. -/
theorem valid_of_validate (valid : schema.validate = .ok ()) {type : TypeDef σ}
    (declared : type ∈ Entries.values schema.types) :
    (∀ field ∈ type.fields, schema.FieldValid field) ∧ ∀ input ∈ type.inputs, schema.InputValid input := by
  obtain ⟨checked, rest⟩ := check_bind_eq_ok.mp (forM_eq_ok.mp valid type declared)
  have fields (field : FieldDef σ) (member : field ∈ type.fields) : schema.FieldValid field :=
    fieldValid_of_validateField (forM_eq_ok.mp checked field member)
  have arguments (argument : ArgumentDef) (member : argument ∈ type.fields.flatMap FieldDef.arguments) :
      schema.InputValid argument := by
    obtain ⟨field, listed, member⟩ := List.mem_flatMap.mp member
    exact (fields field listed).arguments argument member
  refine ⟨fields, ?_⟩
  cases type with
  | scalar name => exact nofun
  | object type => exact arguments
  | interface type => exact arguments
  | inputObject input => exact fun field member => inputValid_of_validateInput (forM_eq_ok.mp rest field member)

end Schema

end SelectionEngine
