import SelectionEngine.Proofs.Coercion.Equations
import SelectionEngine.Proofs.Schema.Validity

namespace SelectionEngine

/-- Whether an error is about what was given and not about the
definitions of the schema. -/
def ArgumentError.IsGiven : ArgumentError → Prop
  | missing _ | unknown _ _ | invalidValue _ _ _ => True
  | notAnInputType _ _ | endlessDefault _ => False

/-- A relation between the outcomes of two coercions, each at a
place of its own. -/
structure OutcomeRelation where
  /-- Whether one coercion may be at the first place while the other
  one is at the second. -/
  Places : String → String → Prop
  Holds : {α : Type} → Except ArgumentError α → Except ArgumentError α → Prop
  extend {place other : String} (more : String) (places : Places place other) :
    Places (place ++ more) (other ++ more)
  ok {α : Type} (a : α) : Holds (.ok a) (.ok a)
  bind {α β : Type} {outcome other : Except ArgumentError α} {next otherNext : α → Except ArgumentError β}
    (first : Holds outcome other) (rest : ∀ a, Holds (next a) (otherNext a)) :
    Holds (outcome >>= next) (other >>= otherNext)
  missing {α : Type} {place other : String} (places : Places place other) :
    Holds (.error (.missing place) : Except ArgumentError α) (.error (.missing other))
  invalid {α : Type} {place other : String} (places : Places place other) (type : TypeRef) (value : Value) :
    Holds (.error (.invalidValue place type value) : Except ArgumentError α)
      (.error (.invalidValue other type value))

namespace OutcomeRelation

/-- What succeeds at one place succeeds with the same result at any other one. -/
def keeps : OutcomeRelation where
  Places _ _ := True
  Holds outcome other := ∀ a, outcome = .ok a → other = .ok a
  extend _ _ := trivial
  ok _ _ known := known
  bind first rest b known := by
    obtain ⟨a, knownFirst, knownRest⟩ := bind_eq_ok.mp known
    exact bind_eq_ok.mpr ⟨a, first a knownFirst, rest a b knownRest⟩
  missing _ := nofun
  invalid _ _ _ := nofun

/-- Both coercions come to the same, and if they fail it is
because of what was given. -/
def agrees : OutcomeRelation where
  Places := Eq
  Holds outcome other := outcome = other ∧ ∀ error, outcome = .error error → error.IsGiven
  extend more places := congrArg (· ++ more) places
  ok _ := ⟨rfl, nofun⟩
  bind {α β outcome other next otherNext} first rest := by
    obtain ⟨rfl, given⟩ := first
    cases outcome with
    | error error =>
      refine ⟨rfl, ?_⟩
      rintro _ ⟨⟩
      exact given error rfl
    | ok a => exact rest a
  missing places := ⟨by rw [places], by rintro _ ⟨⟩; trivial⟩
  invalid places _ _ := ⟨by rw [places], by rintro _ ⟨⟩; trivial⟩

variable (R : OutcomeRelation)

theorem map {α β : Type} {outcome other : Except ArgumentError α} (related : R.Holds outcome other) (f : α → β) :
    R.Holds (outcome.map f) (other.map f) := by
  have same (outcome : Except ArgumentError α) : outcome.map f = outcome >>= fun a => .ok (f a) := by
    cases outcome <;> rfl
  rw [same, same]
  exact R.bind related fun a => R.ok (f a)

theorem coerceFields {coerceField otherField : ArgumentDef → String → Except ArgumentError (Option Value)}
    {fields : List ArgumentDef} {place other : String} (places : R.Places place other)
    (each : ∀ field ∈ fields, ∀ place other, R.Places place other →
      R.Holds (coerceField field place) (otherField field other)) :
    R.Holds (Schema.coerceFields coerceField fields place) (Schema.coerceFields otherField fields other) := by
  unfold Schema.coerceFields
  generalize ([] : Object) = coerced
  induction fields generalizing coerced with
  | nil => exact R.ok coerced
  | cons field fields ih =>
    obtain ⟨first, others⟩ := List.forall_mem_cons.mp each
    rw [List.foldlM_cons, List.foldlM_cons]
    refine R.bind (R.bind (first _ _ (R.extend _ (R.extend _ places))) fun value? => ?_) (ih others)
    cases value? <;> exact R.ok _

theorem mapM {α β : Type} {f g : α → Except ArgumentError β} {items : List α}
    (each : ∀ item ∈ items, R.Holds (f item) (g item)) : R.Holds (items.mapM f) (items.mapM g) := by
  induction items with
  | nil => exact R.ok []
  | cons item items ih =>
    obtain ⟨first, others⟩ := List.forall_mem_cons.mp each
    rw [List.mapM_cons, List.mapM_cons]
    exact R.bind first fun b => R.bind (ih others) fun bs => R.ok (b :: bs)

end OutcomeRelation

namespace Schema

variable {σ : Type} {schema : Schema σ} (R : OutcomeRelation)

theorem IsInput.nullable {type : TypeRef} (isInput : schema.IsInput type) : schema.IsInput type.nullable := by
  rwa [IsInput, TypeRef.innerName_nullable]

theorem coerceWhole_related {type : TypeRef} (isInput : schema.IsInput type) (value : Value) {place other : String}
    (places : R.Places place other) :
    R.Holds (schema.coerceWhole type value place) (schema.coerceWhole type value other) := by
  cases type with
  | builtIn scalar =>
    simp only [coerceWhole]
    cases scalar.coerce? value with
    | some result => exact R.ok result
    | none => exact R.invalid places _ _
  | named name =>
    obtain ⟨target, found, isInput⟩ := isInput
    rw [TypeRef.innerName] at found
    simp only [coerceWhole, found]
    cases target with
    | scalar name => exact R.ok value
    | inputObject input => exact R.invalid places _ _
    | object type => cases isInput
    | interface type => cases isInput
  | list inner => exact R.invalid places _ _
  | nonNull inner => exact R.invalid places _ _

variable {substitute otherSubstitute : ArgumentDef → String → Except ArgumentError (Option Value)}

variable (schema substitute otherSubstitute) in
/-- What stands in for the fields of input objects without a value is related,
at all places that are. -/
def SubstitutesRelated : Prop :=
  ∀ name input, schema.lookup? name = some (.inputObject input) → ∀ field ∈ input.fields, ∀ place other,
    R.Places place other → R.Holds (substitute field place) (otherSubstitute field other)

variable (schema) in
/-- The fields of all input objects are of input types. -/
def FieldsAreInputs : Prop :=
  ∀ name input, schema.lookup? name = some (.inputObject input) → ∀ field ∈ input.fields, schema.IsInput field.type

theorem fieldOutcome_related {absent otherAbsent : Except ArgumentError (Option Value)}
    {coerce otherCoerce : Value → Except ArgumentError Value} {type : TypeRef} {given? : Option Value}
    (absents : R.Holds absent otherAbsent)
    (values : ∀ value, given? = some value → R.Holds (coerce value) (otherCoerce value)) :
    R.Holds (fieldOutcome absent coerce type given?) (fieldOutcome otherAbsent otherCoerce type given?) := by
  cases given? with
  | none => exact absents
  | some value =>
    simp only [fieldOutcome]
    split
    · split
      · exact absents
      · exact R.ok _
    · exact R.map (values value rfl) some

/-- Coercions of the same value are related if they treat absent fields alike,
as far as those of all wholes in it are. -/
theorem coerceGiven_related_of_wholes (Fit : TypeRef → Prop)
    (wholes : ∀ type value place other, Fit type → R.Places place other →
      R.Holds (schema.coerceWhole type.nullable value place) (schema.coerceWhole type.nullable value other))
    (items : ∀ type inner, type.nullable = .list inner → Fit type → Fit inner)
    (fields : ∀ name input, schema.lookup? name = some (.inputObject input) →
      ∀ field ∈ input.fields, Fit field.type)
    (related : SubstitutesRelated schema R substitute otherSubstitute) (type : TypeRef) (value : Value)
    (fit : Fit type) {place other : String} (places : R.Places place other) :
    R.Holds (schema.coerceGiven substitute value type place)
      (schema.coerceGiven otherSubstitute value type other) := by
  induction type, value using schema.byCoercion generalizing place other with
  | null type =>
    rw [coerceGiven_null, coerceGiven_null]
    split
    · exact R.missing places
    · exact R.ok _
  | whole type value present whole =>
    rw [coerceGiven_whole _ _ present whole, coerceGiven_whole _ _ present whole]
    exact wholes type value place other fit places
  | items type inner values list ih =>
    rw [coerceGiven_items _ _ list, coerceGiven_items _ _ list]
    refine R.map (R.mapM fun entry member => ?_) Value.list
    exact ih entry.1 (List.fst_mem_of_mem_zipIdx member) (items type inner list fit)
      (R.extend _ (R.extend _ (R.extend _ places)))
  | fields type name input entries named found ih =>
    rw [coerceGiven_fields _ _ named found, coerceGiven_fields _ _ named found]
    refine R.map (R.coerceFields places fun field member place other places => ?_) Value.object
    rw [coerceEntry_eq, coerceEntry_eq]
    exact fieldOutcome_related R (related name input found field member place other places)
      fun value given => ih field member value given (fields name input found field member) places

/-- Coercions of the same value to an input type are related if they are at
related places and treat absent fields alike. -/
theorem coerceGiven_related (inputs : FieldsAreInputs schema)
    (related : SubstitutesRelated schema R substitute otherSubstitute) (type : TypeRef) (value : Value)
    (isInput : schema.IsInput type) {place other : String} (places : R.Places place other) :
    R.Holds (schema.coerceGiven substitute value type place)
      (schema.coerceGiven otherSubstitute value type other) := by
  refine coerceGiven_related_of_wholes R schema.IsInput (fun type value place other isInput places => ?_)
    (fun type inner list => ?_) inputs related type value isInput places
  · exact coerceWhole_related R isInput.nullable value places
  · rw [IsInput, IsInput, TypeRef.innerName_of_nullable list]
    exact id

end Schema

end SelectionEngine
