import SelectionEngine.Proofs.Coercion.Relating
import SelectionEngine.Proofs.Entries

namespace SelectionEngine

variable {σ : Type}

namespace Schema

theorem substituteDefault_related (R : OutcomeRelation) {field : ArgumentDef}
    {coerceDefault otherDefault : Value → TypeRef → String → Except ArgumentError Value} {place other : String}
    (defaults : ∀ value, field.default = some value →
      R.Holds (coerceDefault value field.type place) (otherDefault value field.type other))
    (places : R.Places place other) :
    R.Holds (substituteDefault coerceDefault field place) (substituteDefault otherDefault field other) := by
  unfold substituteDefault
  cases given : field.default with
  | some value => exact R.map (defaults value given) some
  | none =>
    dsimp only
    split
    · exact R.missing places
    · exact R.ok _

theorem substitutesRelated_of_fields (R : OutcomeRelation) {schema : Schema σ}
    {coerceDefault otherDefault : Value → TypeRef → String → Except ArgumentError Value}
    (defaults : ∀ name input, schema.lookup? name = some (.inputObject input) → ∀ field ∈ input.fields,
      ∀ value, field.default = some value → ∀ place other, R.Places place other →
        R.Holds (coerceDefault value field.type place) (otherDefault value field.type other)) :
    SubstitutesRelated schema R (substituteDefault coerceDefault) (substituteDefault otherDefault) :=
  fun name input found field member place other places => substituteDefault_related R
    (fun value given => defaults name input found field member value given place other places) places

/-- What stands in for a field that is not given if the coerced values of all
defaults are known beforehand. -/
def substituteFixed (fixed : Value → TypeRef → Value) :
    ArgumentDef → String → Except ArgumentError (Option Value) :=
  substituteDefault fun value type _ => .ok (fixed value type)

/-- Coerces the arguments of a field with another rule for what stands in for
those that are not given. -/
def coerceArgumentsWith (schema : Schema σ)
    (substitute : ArgumentDef → String → Except ArgumentError (Option Value))
    (arguments : List ArgumentDef) (raw : Entries String InputValue) (variableValues : Object) (field : String) :
    Except ArgumentError Object :=
  match (Entries.keys raw).find? fun name => ¬ arguments.any fun argument => argument.name = name with
  | some name => .error (.unknown name field)
  | none => coerceFields (fun argument path =>
      schema.coerceEntry substitute argument path (givenArguments raw variableValues)) arguments field

theorem coerceArguments_eq (schema : Schema σ) :
    schema.coerceArguments = schema.coerceArgumentsWith (substituteDefault schema.coerceValue) := rfl

/-- A field is not given if there is no value for it, or a null
where there must be none. -/
def NotGiven (field : ArgumentDef) (entries : Object) : Prop :=
  Entries.get? field.name entries = none ∨
    Entries.get? field.name entries = some .null ∧ field.type.isNonNull = true

theorem coerceEntry_of_notGiven (schema : Schema σ)
    {substitute : ArgumentDef → String → Except ArgumentError (Option Value)} {field : ArgumentDef}
    {entries : Object} (notGiven : NotGiven field entries) (path : String) :
    schema.coerceEntry substitute field path entries = substitute field path := by
  rw [coerceEntry_eq]
  rcases notGiven with absent | ⟨null, strict⟩
  · rw [absent, fieldOutcome]
  · simp [null, strict, fieldOutcome, Value.isNull]

theorem coerceEntry_of_get? (schema : Schema σ)
    {substitute : ArgumentDef → String → Except ArgumentError (Option Value)} {field : ArgumentDef}
    {entries : Object} {value : Value} (given : Entries.get? field.name entries = some value)
    (counts : value ≠ .null ∨ field.type.isNonNull = false) (path : String) :
    schema.coerceEntry substitute field path entries =
      if value.isNull then .ok (some .null)
      else (schema.coerceGiven substitute value field.type path).map some := by
  rw [coerceEntry_eq, given]
  cases value with
  | null => simp [fieldOutcome, Value.isNull, counts.resolve_left (absurd rfl)]
  | _ => rfl

section

variable {schema : Schema σ} (valid : schema.validate = .ok ())

include valid

theorem inputValid_of_lookup? {name : String} {type : TypeDef σ} (found : schema.lookup? name = some type)
    {input : ArgumentDef} (member : input ∈ type.inputs) : schema.InputValid input :=
  (valid_of_validate valid (Entries.mem_values_of_get? found)).2 input member

theorem fieldsAreInputs_of_validate : FieldsAreInputs schema := fun _ _ found field member =>
  have fieldValid : schema.InputValid field := inputValid_of_lookup? valid found member
  fieldValid.type

theorem substitutesRelated_of_defaults (R : OutcomeRelation)
    {coerceDefault otherDefault : Value → TypeRef → String → Except ArgumentError Value}
    (defaults : ∀ input, schema.InputValid input → ∀ value, input.default = some value → ∀ place other,
      R.Places place other → R.Holds (coerceDefault value input.type place) (otherDefault value input.type other)) :
    SubstitutesRelated schema R (substituteDefault coerceDefault) (substituteDefault otherDefault) :=
  substitutesRelated_of_fields R fun _ _ found field member =>
    have fieldValid : schema.InputValid field := inputValid_of_lookup? valid found member
    defaults field fieldValid

/-- More room for defaults inside defaults changes no result, and
neither does another place. -/
theorem coerceWithin_mono {budget more : Nat} (enough : budget ≤ more) {value : Value} {type : TypeRef}
    (isInput : schema.IsInput type) (place other : String) :
    OutcomeRelation.keeps.Holds (schema.coerceWithin budget value type place)
      (schema.coerceWithin more value type other) := by
  induction budget generalizing more value type place other with
  | zero => exact nofun -- without a budget nothing succeeds
  | succ budget ih =>
    obtain _ | more := more
    · cases enough
    · have substitutes : SubstitutesRelated schema .keeps (substituteDefault (schema.coerceWithin budget))
          (substituteDefault (schema.coerceWithin more)) :=
        substitutesRelated_of_defaults valid .keeps fun input inputValid _ _ place other _ =>
          ih (Nat.le_of_succ_le_succ enough) inputValid.type place other
      exact coerceGiven_related .keeps (fieldsAreInputs_of_validate valid) substitutes type value isInput trivial

/-- A declared default is coerced to the same value at every place. -/
theorem coerceValue_default {input : ArgumentDef} (inputValid : schema.InputValid input) {value : Value}
    (given : input.default = some value) :
    ∃ result, ∀ path, schema.coerceValue value input.type path = .ok result := by
  obtain ⟨coordinate, result, coerced⟩ := inputValid.default value given
  exact ⟨result, fun path => coerceWithin_mono valid (Nat.le_refl _) inputValid.type coordinate path result coerced⟩

end

/-- The fixed values of all defaults, as far as there are any. -/
def settled (schema : Schema σ) (value : Value) (type : TypeRef) : Value :=
  (schema.coerceValue value type "").toOption.getD .null

section

variable {schema : Schema σ} (valid : schema.validate = .ok ())

include valid

theorem coerceValue_settled {input : ArgumentDef} (inputValid : schema.InputValid input) {value : Value}
    (given : input.default = some value) (path : String) :
    schema.coerceValue value input.type path = .ok (schema.settled value input.type) := by
  obtain ⟨result, coerced⟩ := coerceValue_default valid inputValid given
  rw [settled, coerced, coerced]
  rfl

/-- Inside of a declared default, the defaults of other fields have
their fixed values too. -/
theorem coerceGiven_settled {input : ArgumentDef} (inputValid : schema.InputValid input) {value : Value}
    (given : input.default = some value) (path : String) :
    schema.coerceGiven (substituteFixed schema.settled) value input.type path =
      .ok (schema.settled value input.type) := by
  have substitutes : SubstitutesRelated schema .keeps (substituteDefault (schema.coerceWithin schema.defaultCount))
      (substituteFixed schema.settled) := by
    refine substitutesRelated_of_defaults valid .keeps
      fun field fieldValid value given place other _ result coerced => ?_
    have whole := coerceWithin_mono valid (Nat.le_succ _) fieldValid.type place other result coerced
    exact (coerceValue_settled valid fieldValid given other).symm.trans whole
  have coerced := coerceValue_settled valid inputValid given path
  have places : OutcomeRelation.keeps.Places path path := trivial
  exact coerceGiven_related .keeps (fieldsAreInputs_of_validate valid) substitutes input.type value inputValid.type
    places _ coerced

theorem substituteDefault_settled :
    ∀ input, schema.InputValid input → ∀ place other, OutcomeRelation.agrees.Places place other →
      OutcomeRelation.agrees.Holds (substituteDefault schema.coerceValue input place)
        (substituteFixed schema.settled input other) := by
  intro input inputValid place other places
  refine substituteDefault_related .agrees (fun value given => ?_) places
  rw [coerceValue_settled valid inputValid given]
  exact OutcomeRelation.agrees.ok _

/-- The arguments of a declared field are coerced as if all
defaults were fixed values. -/
theorem coerceArguments_settled {arguments : List ArgumentDef}
    (declared : ∀ argument ∈ arguments, schema.InputValid argument)
    (raw : Entries String InputValue) (variableValues : Object) (label : String) :
    OutcomeRelation.agrees.Holds (schema.coerceArguments arguments raw variableValues label)
      (schema.coerceArgumentsWith (substituteFixed schema.settled) arguments raw variableValues label) := by
  have substitutes : SubstitutesRelated schema .agrees (substituteDefault schema.coerceValue)
      (substituteFixed schema.settled) := by
    intro name type found field member
    have fieldValid : schema.InputValid field := inputValid_of_lookup? valid found member
    exact substituteDefault_settled valid field fieldValid
  rw [coerceArguments_eq, coerceArgumentsWith, coerceArgumentsWith]
  split
  · refine ⟨rfl, ?_⟩
    rintro _ ⟨⟩
    trivial
  · refine OutcomeRelation.agrees.coerceFields rfl fun argument member place other places => ?_
    have argumentValid := declared argument member
    rw [coerceEntry_eq, coerceEntry_eq]
    exact fieldOutcome_related .agrees (substituteDefault_settled valid argument argumentValid place other places)
      fun value _ => coerceGiven_related .agrees (fieldsAreInputs_of_validate valid) substitutes argument.type value
        argumentValid.type places

end

/-- On a valid schema coercion never fails because of what the schema declares.
Every declared default comes to one value, at every place and in every other
default, and wherever its field is not given that value stands in for it. The
arguments of every declared field are coerced as if these values were fixed
beforehand, so no error comes from a default, and none says that something is
not of an input type. -/
theorem defaults_settle {schema : Schema σ} (valid : schema.validate = .ok ()) :
    ∃ fixed : Value → TypeRef → Value, ∀ name type, schema.lookup? name = some type →
      (∀ input ∈ type.inputs, ∀ value, input.default = some value → ∀ path,
        schema.coerceValue value input.type path = .ok (fixed value input.type) ∧
        schema.coerceGiven (substituteFixed fixed) value input.type path = .ok (fixed value input.type) ∧
        ∀ entries, NotGiven input entries →
          schema.coerceEntry (substituteDefault schema.coerceValue) input path entries =
            .ok (some (fixed value input.type))) ∧
      ∀ field ∈ TypeDef.fields type, ∀ raw variableValues label,
        schema.coerceArguments field.arguments raw variableValues label =
          schema.coerceArgumentsWith (substituteFixed fixed) field.arguments raw variableValues label ∧
        (∀ path typeName, schema.coerceArguments field.arguments raw variableValues label ≠
          .error (.notAnInputType path typeName)) ∧
        ∀ path, schema.coerceArguments field.arguments raw variableValues label ≠
          .error (.endlessDefault path) := by
  refine ⟨schema.settled, fun name type found => ⟨fun input member value given path => ?_,
    fun field member raw variableValues label => ?_⟩⟩
  · have inputValid := inputValid_of_lookup? valid found member
    refine ⟨coerceValue_settled valid inputValid given path, coerceGiven_settled valid inputValid given path,
      fun entries notGiven => ?_⟩
    rw [coerceEntry_of_notGiven schema notGiven, substituteDefault, given]
    dsimp only
    rw [coerceValue_settled valid inputValid given]
    rfl
  · have fieldValid := (valid_of_validate valid (Entries.mem_values_of_get? found)).1 field member
    obtain ⟨same, given⟩ := coerceArguments_settled valid fieldValid.arguments raw variableValues label
    exact ⟨same, fun path typeName failed => given _ failed, fun path failed => given _ failed⟩

/-- The default of an argument leaves out a field that must not be null, whose
default leaves out another one. -/
def searchTypes : List (TypeDef Unit) := [
  .inputObject { name := "Range", fields := [
    { name := "from", type := .nonNull (.builtIn .int), default := some (.string " 1 ") },
    { name := "to", type := .builtIn .int }] },
  .inputObject { name := "Filter", fields := [
    { name := "range", type := .nonNull (.named "Range"), default := some (.object [("to", .int 9)]) },
    { name := "tags", type := .list (.builtIn .string), default := some (.list []) }] },
  .object { name := "Query", fields := [
    { name := "search", type := .builtIn .string, arguments := [
      { name := "filter", type := .nonNull (.named "Filter"), default := some (.object [("range", .null)]) }] }] }]

def searchSchema : Schema Unit := searchTypes.foldl .insert .empty

def searchResult : Value :=
  .object [("range", .object [("from", .int 1), ("to", .int 9)]), ("tags", .list [])]

theorem defaults_settle_search : searchSchema.validate = .ok () ∧
    ∃ field ∈ (searchSchema.rootType? .query).toList.flatMap ObjectType.fields, ∃ filter ∈ field.arguments,
      (∀ path entries, NotGiven filter entries →
        searchSchema.coerceEntry (substituteDefault searchSchema.coerceValue) filter path entries =
          .ok (some searchResult)) ∧
      ∀ raw variableValues path typeName, searchSchema.coerceArguments field.arguments raw variableValues "search" ≠
        .error (.notAnInputType path typeName) := by
  have valid : searchSchema.validate = .ok () := rfl
  obtain ⟨fixed, settled⟩ := defaults_settle valid
  obtain ⟨inputs, fields⟩ := settled "Query" _ rfl
  refine ⟨valid, _, .head _, _, .head _, fun path entries notGiven => ?_,
    fun raw variableValues => (fields _ (.head _) raw variableValues "search").2.1⟩
  have filter := inputs _ (.head _) _ rfl
  have coerced : searchSchema.coerceValue (.object [("range", .null)]) (.nonNull (.named "Filter")) "filter" =
      .ok searchResult := rfl
  have value := Except.ok.inj (coerced.symm.trans (filter "filter").1)
  rw [value]
  exact (filter path).2.2 entries notGiven

end Schema

end SelectionEngine
