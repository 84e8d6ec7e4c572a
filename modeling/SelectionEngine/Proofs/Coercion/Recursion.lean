import Mathlib.Data.Finset.Lattice.Fold
import SelectionEngine.Proofs.Coercion.Endless
import SelectionEngine.Proofs.Definitions.Readers

namespace SelectionEngine

variable {σ : Type}

/-- How many lists and markers nest in a type. -/
def TypeRef.nesting : TypeRef → Nat
  | builtIn _ | named _ => 0
  | list inner | nonNull inner => inner.nesting + 1

theorem Value.height_of_mem {item : Value} {items : List Value} (member : item ∈ items) :
    item.height + 1 ≤ (list items).height := by
  rw [height]
  induction member with
  | head items => exact Nat.le_max_left _ _
  | tail _ _ ih => exact ih.trans (Nat.le_max_right _ _)

theorem Value.height_of_get? {key : String} {value : Value} {entries : Object}
    (found : Entries.get? key entries = some value) : value.height + 1 ≤ (object entries).height := by
  rw [height]
  have member := Entries.mem_of_get? found
  clear found
  induction member with
  | head rest => exact Nat.le_max_left _ _
  | tail _ _ ih => exact ih.trans (Nat.le_max_right _ _)

namespace Schema

mutual

/-- Coerces a value to a type by calls that nest at most `depth` deep
and know no other bound. A call that would nest deeper gives the error
for an endless default. -/
def valueCall (schema : Schema σ) : Nat → TypeRef → Value → String → Except ArgumentError Value
  | 0, _, _, path => .error (.endlessDefault path)
  | depth + 1, type, value, path =>
    match type, value with
    | .nonNull inner, value =>
      if value.isNull then .error (.missing path) else valueCall schema depth inner value path
    | _, .null => .ok .null
    | .list inner, .list items => (items.zipIdx.mapM fun entry =>
        valueCall schema depth inner entry.1 s!"{path}[{entry.2}]").map .list
    | .named name, .object entries => match schema.lookup? name with
      | some (.inputObject input) => objectCall schema depth input entries path
      | _ => schema.coerceWhole (.named name) (.object entries) path
    | type, value => schema.coerceWhole type value path

def objectCall (schema : Schema σ) : Nat → InputObjectType → Object → String → Except ArgumentError Value
  | 0, _, _, path => .error (.endlessDefault path)
  | depth + 1, input, entries, path =>
    (coerceFields (fun field path => fieldCall schema depth field (Entries.get? field.name entries) path)
      input.fields path).map .object

def fieldCall (schema : Schema σ) :
    Nat → ArgumentDef → Option Value → String → Except ArgumentError (Option Value)
  | 0, _, _, path => .error (.endlessDefault path)
  | depth + 1, field, given?, path =>
    let substitute := substituteDefault (fun value type path => valueCall schema depth type value path) field path
    match given? with
    | none => substitute
    | some value =>
      if value.isNull then if field.type.isNonNull then substitute else .ok (some .null)
      else (valueCall schema depth field.type value path).map some

end

section

variable {schema : Schema σ}

theorem valueCall_null (depth : Nat) (type : TypeRef) (path : String) :
    schema.valueCall (depth + 1) type .null path =
      if type.isNonNull then .error (.missing path) else .ok .null := by
  cases type <;> simp [valueCall, Value.isNull, TypeRef.isNonNull]

theorem valueCall_nonNull (depth : Nat) {value : Value} (present : value ≠ .null) (inner : TypeRef)
    (path : String) :
    schema.valueCall (depth + 1) (.nonNull inner) value path = schema.valueCall depth inner value path := by
  cases value with
  | null => exact absurd rfl present
  | _ => simp [valueCall, Value.isNull]

/-- Each marker around a type takes one call. -/
theorem valueCall_nullable (depth : Nat) {value : Value} (present : value ≠ .null) (type : TypeRef)
    (path : String) :
    schema.valueCall (depth + type.nesting) type value path =
      schema.valueCall (depth + type.nullable.nesting) type.nullable value path := by
  induction type with
  | nonNull inner ih =>
    rw [TypeRef.nesting, ← Nat.add_assoc, valueCall_nonNull _ present]
    exact ih
  | _ => rfl

theorem valueCall_items (depth : Nat) (inner : TypeRef) (items : List Value) (path : String) :
    schema.valueCall (depth + 1) (.list inner) (.list items) path =
      (items.zipIdx.mapM fun entry => schema.valueCall depth inner entry.1 s!"{path}[{entry.2}]").map .list := by
  simp only [valueCall]

theorem valueCall_fields (depth : Nat) {name : String} {input : InputObjectType}
    (found : schema.lookup? name = some (.inputObject input)) (entries : Object) (path : String) :
    schema.valueCall (depth + 1) (.named name) (.object entries) path =
      schema.objectCall depth input entries path := by
  simp only [valueCall, found]

theorem valueCall_whole (depth : Nat) {type : TypeRef} {value : Value} (present : value ≠ .null)
    (whole : schema.IsWhole type value) (path : String) :
    schema.valueCall (depth + 1) type.nullable value path = schema.coerceWhole type.nullable value path := by
  have noMarker := type.isNonNull_nullable
  obtain ⟨noItems, noFields⟩ := whole
  generalize type.nullable = nullable at noMarker noItems noFields
  cases nullable with
  | builtIn scalar => cases value <;> first | rfl | exact absurd rfl present
  | nonNull inner => cases noMarker
  | list inner =>
    cases value with
    | null => exact absurd rfl present
    | list items => exact absurd rfl (noItems inner items rfl)
    | _ => rfl
  | named name =>
    cases value with
    | null => exact absurd rfl present
    | object entries =>
      simp only [valueCall]
      split
      · next input found => exact absurd rfl (noFields name input entries rfl found)
      · rfl
    | _ => rfl

theorem fieldCall_eq (depth : Nat) (field : ArgumentDef) (given? : Option Value) (path : String) :
    schema.fieldCall (depth + 1) field given? path =
      fieldOutcome (substituteDefault (fun value type path => schema.valueCall depth type value path) field path)
        (fun value => schema.valueCall depth field.type value path) field.type given? := by
  cases given? <;> simp only [fieldCall, fieldOutcome]

end

section

variable {schema : Schema σ} {substitute : ArgumentDef → String → Except ArgumentError (Option Value)}

/-- Calls that end give what coercion gives within a budget of as
many defaults as calls. -/
theorem coerceWithin_of_valueCall {depth budget : Nat} (enough : depth ≤ budget) (type : TypeRef) (value : Value)
    (path : String) : OutcomeComparison.unlessEndless.Holds (schema.valueCall depth type value path)
      (schema.coerceWithin budget value type path) := by
  induction depth using Nat.strong_induction_on generalizing budget type value path with
  | _ depth ih =>
    obtain _ | depth := depth
    · exact fun ends => absurd rfl (ends path)
    obtain _ | budget := budget
    · cases enough
    by_cases absent : value = .null
    · subst absent
      rw [valueCall_null, coerceWithin, coerceGiven_null]
      exact fun _ => rfl
    have whole (notNonNull : type.nullable = type) (whole : schema.IsWhole type value) :
        OutcomeComparison.unlessEndless.Holds (schema.valueCall (depth + 1) type value path)
          (schema.coerceWithin (budget + 1) value type path) := by
      have called := valueCall_whole depth absent whole path
      rw [notNonNull] at called
      rw [called, coerceWithin, coerceGiven_whole _ _ absent whole, notNonNull]
      exact fun _ => rfl
    have below {less : Nat} (deeper : less < depth + 1) (type : TypeRef) (value : Value) (path : String) :=
      ih less deeper (Nat.le_of_lt (Nat.lt_of_lt_of_le deeper enough)) type value path
    cases type with
    | builtIn scalar => exact whole rfl ⟨by rintro _ _ ⟨⟩, by rintro _ _ _ ⟨⟩⟩
    | nonNull inner =>
      rw [valueCall_nonNull _ absent, coerceWithin, coerceGiven_nonNull _ _ absent]
      exact below (Nat.lt_succ_self depth) inner value path
    | list inner =>
      cases value with
      | list items =>
        rw [valueCall_items, coerceWithin, coerceGiven_items _ _ rfl]
        exact OutcomeComparison.unlessEndless.map (OutcomeComparison.unlessEndless.mapM fun entry _ =>
          below (Nat.lt_succ_self depth) inner entry.1 _) Value.list
      | _ => exact whole rfl ⟨by rintro _ _ _ ⟨⟩, by rintro _ _ _ ⟨⟩⟩
    | named name =>
      by_cases input : ∃ input entries, schema.lookup? name = some (.inputObject input) ∧ value = .object entries
      · obtain ⟨input, entries, found, rfl⟩ := input
        rw [valueCall_fields _ found, coerceWithin, coerceGiven_fields _ _ rfl found]
        obtain _ | depth := depth
        · exact fun ends => absurd rfl (ends path)
        rw [objectCall]
        refine OutcomeComparison.unlessEndless.map
          (OutcomeComparison.unlessEndless.coerceFields rfl ?_) Value.object
        rintro field member place _ rfl
        obtain _ | depth := depth
        · exact fun ends => absurd rfl (ends place)
        rw [fieldCall_eq, coerceEntry_eq]
        refine fieldOutcome_related _ ?_ fun value _ => below (by omega) field.type value place
        exact substituteDefault_related _ (fun value _ => ih depth (by omega) (by omega) _ _ _) rfl
      · refine whole rfl ⟨by rintro _ _ ⟨⟩, ?_⟩
        rintro _ input entries ⟨⟩ found rfl
        exact input ⟨_, entries, found, rfl⟩

/-- How deep calls nest: the given value takes `level` calls for each level
of its own and the markers of its type, and from there on a default takes no
more than `own` calls. -/
theorem valueCall_of_coerceGiven {own level : Nat}
    (wide : ∀ name input, schema.lookup? name = some (.inputObject input) → ∀ field ∈ input.fields,
      field.type.nesting + 3 ≤ level)
    (substitutes : ∀ name input, schema.lookup? name = some (.inputObject input) → ∀ field ∈ input.fields,
      ∀ depth, own ≤ depth → ∀ path, OutcomeComparison.unlessEndless.Holds (substitute field path)
        (substituteDefault (fun value type path => schema.valueCall depth type value path) field path))
    (type : TypeRef) (value : Value) {depth : Nat}
    (enough : own + 3 + level * value.height + type.nesting ≤ depth) (path : String) :
    OutcomeComparison.unlessEndless.Holds (schema.coerceGiven substitute value type path)
      (schema.valueCall depth type value path) := by
  obtain ⟨rest, rfl⟩ : ∃ rest, depth = rest + type.nesting := ⟨depth - type.nesting, by omega⟩
  induction type, value using schema.byCoercion generalizing rest path with
  | null type =>
    obtain ⟨depth, same⟩ : ∃ depth, rest + type.nesting = depth + 1 := ⟨rest + type.nesting - 1, by omega⟩
    rw [same, valueCall_null, coerceGiven_null]
    exact fun _ => rfl
  | whole type value present whole =>
    obtain ⟨depth, same⟩ : ∃ depth, rest + type.nullable.nesting = depth + 1 :=
      ⟨rest + type.nullable.nesting - 1, by omega⟩
    rw [valueCall_nullable _ present, same, valueCall_whole _ present whole, coerceGiven_whole _ _ present whole]
    exact fun _ => rfl
  | items type inner items list ih =>
    have present := Value.list_ne_null items
    rw [valueCall_nullable _ present, list, TypeRef.nesting, ← Nat.add_assoc, valueCall_items,
      coerceGiven_items _ _ list]
    refine OutcomeComparison.unlessEndless.map
      (OutcomeComparison.unlessEndless.mapM fun entry member => ?_) Value.list
    have listed := List.fst_mem_of_mem_zipIdx member
    have deeper := Nat.mul_le_mul_left level (Value.height_of_mem listed)
    rw [Nat.mul_succ] at deeper
    exact ih entry.1 listed _ rest (by omega)
  | fields type name input entries named found ih =>
    obtain ⟨depth, rfl⟩ : ∃ depth, rest = depth + 3 := ⟨rest - 3, by omega⟩
    have present := Value.object_ne_null entries
    rw [valueCall_nullable _ present, named, TypeRef.nesting, Nat.add_zero, valueCall_fields _ found, objectCall,
      coerceGiven_fields _ _ named found]
    refine OutcomeComparison.unlessEndless.map (OutcomeComparison.unlessEndless.coerceFields rfl ?_) Value.object
    rintro field member place _ rfl
    rw [fieldCall_eq, coerceEntry_eq]
    refine fieldOutcome_related _ (substitutes name input found field member depth (by omega) place)
      fun value given => ?_
    have deeper := Nat.mul_le_mul_left level (Value.height_of_get? given)
    rw [Nat.mul_succ] at deeper
    have narrow := wide name input found field member
    have room := ih field member value given place (depth - field.type.nesting)
    rw [Nat.sub_add_cancel (by omega)] at room
    exact room (by omega)

end

section

variable (schema : Schema σ)

/-- A number that counts something about a field is bounded over the fields
of all input objects. -/
theorem exists_bound (count : ArgumentDef → Nat) : ∃ bound, ∀ name input,
    schema.lookup? name = some (.inputObject input) → ∀ field ∈ input.fields, count field ≤ bound := by
  refine ⟨((Entries.values schema.types).flatMap TypeDef.inputs).toFinset.sup count, ?_⟩
  intro name input found field member
  have listed : field ∈ (Entries.values schema.types).flatMap TypeDef.inputs :=
    List.mem_flatMap.mpr ⟨_, Entries.mem_values_of_get? found, member⟩
  exact Finset.le_sup (List.mem_toFinset.mpr listed)

variable {schema}

/-- The calls for a default within a budget nest no deeper than a bound. -/
theorem exists_depth {level : Nat} (wide : ∀ name input, schema.lookup? name = some (.inputObject input) →
      ∀ field ∈ input.fields, field.type.nesting + 3 ≤ level) (budget : Nat) :
    ∃ own, ∀ name input, schema.lookup? name = some (.inputObject input) → ∀ field ∈ input.fields,
      ∀ depth, own ≤ depth → ∀ value, field.default = some value → ∀ path,
        OutcomeComparison.unlessEndless.Holds (schema.coerceWithin budget value field.type path)
          (schema.valueCall depth field.type value path) := by
  induction budget with
  | zero => exact ⟨0, fun _ _ _ _ _ _ _ _ _ path ends => absurd rfl (ends path)⟩
  | succ budget ih =>
    obtain ⟨own, covers⟩ := ih
    obtain ⟨bound, bounded⟩ := schema.exists_bound fun field =>
      own + 3 + level * (field.default.map Value.height).getD 0 + field.type.nesting
    refine ⟨bound, fun name input found field member depth enough value given path => ?_⟩
    have needed := bounded name input found field member
    rw [given] at needed
    refine valueCall_of_coerceGiven wide (fun name input found field member depth enough path => ?_)
      field.type value (needed.trans enough) path
    exact substituteDefault_related _
      (fun value given => covers name input found field member depth enough value given path) rfl

end

/-- Coercion comes to an end by calls alone. Wherever calls that nest to some
depth come to an end, what they give is what coercion gives, so that a schema is
valid if all its defaults are coerced by such calls. And on a valid schema there
are two numbers for which the calls for any value and any type come to an end at
a depth of the first one, the second one for each level of the value, and one
for each level of the type. -/
theorem calls_end (schema : Schema σ) :
    (∀ depth type value path, Ends (schema.valueCall depth type value path) →
      schema.coerceValue value type path = schema.valueCall depth type value path) ∧
    (schema.validate = .ok () → ∃ own level : Nat, ∀ type value path depth,
      own + level * value.height + type.nesting ≤ depth →
        Ends (schema.valueCall depth type value path) ∧
        schema.valueCall depth type value path = schema.coerceValue value type path) := by
  constructor
  · intro depth type value path ends
    have within := coerceWithin_of_valueCall (Nat.le_refl depth) type value path ends
    rw [← within] at ends ⊢
    exact coerceValue_eq_of_coerceWithin ends
  · intro valid
    obtain ⟨level, wide⟩ := schema.exists_bound fun field => field.type.nesting + 3
    obtain ⟨own, covers⟩ := exists_depth wide schema.defaultCount
    refine ⟨own + 3, level, fun type value path depth enough => ?_⟩
    have ends := ends_coerceValue valid value type path
    have same := valueCall_of_coerceGiven wide (fun name input found field member depth enough path =>
      substituteDefault_related _
        (fun value given => covers name input found field member depth enough value given path) rfl)
      type value enough path ends
    exact ⟨same ▸ ends, same⟩

/-- Two input object types that refer to themselves and to each other, also by
way of their defaults. -/
def chainTypes : List (TypeDef Unit) := [
  .inputObject { name := "Node", fields := [
    { name := "label", type := .nonNull (.builtIn .string), default := some (.string "none") },
    { name := "next", type := .named "Node" },
    { name := "limits", type := .nonNull (.named "Limits"), default := some (.object []) }] },
  .inputObject { name := "Limits", fields := [
    { name := "depth", type := .builtIn .int, default := some (.string "3") },
    { name := "spare", type := .list (.nonNull (.named "Node")), default := some (.list [
      .object [("limits", .object [("spare", .list [])])]]) }] }]

def chainSchema : Schema Unit := chainTypes.foldl .insert .empty

/-- A node of which only the following one is given. -/
def chainGiven : Value :=
  .object [("next", .object [("label", .string "last"), ("limits", .object [("spare", .null)])])]

def chainResult : Value :=
  .object [("label", .string "none"),
    ("next", .object [("label", .string "last"), ("limits", .object [("depth", .int 3), ("spare", .null)])]),
    ("limits", .object [("depth", .int 3), ("spare", .list [.object [("label", .string "none"),
      ("limits", .object [("depth", .int 3), ("spare", .list [])])]])])]

theorem calls_end_chain : chainSchema.validate = .ok () ∧
    chainSchema.valueCall 18 (.nonNull (.named "Node")) chainGiven "node" = .ok chainResult ∧
    chainSchema.coerceValue chainGiven (.nonNull (.named "Node")) "node" = .ok chainResult ∧
    ∃ enough, ∀ depth, enough ≤ depth →
      chainSchema.valueCall depth (.nonNull (.named "Node")) chainGiven "node" = .ok chainResult := by
  have valid : chainSchema.validate = .ok () := by decide +kernel
  have called : chainSchema.valueCall 18 (.nonNull (.named "Node")) chainGiven "node" = .ok chainResult := by
    decide +kernel
  obtain ⟨ended, bounded⟩ := calls_end chainSchema
  have coerced := (ended 18 _ _ _ (called ▸ ends_ok _)).trans called
  obtain ⟨own, level, bounded⟩ := bounded valid
  exact ⟨valid, called, coerced, _, fun depth enough => (bounded _ _ _ depth enough).2.trans coerced⟩

end Schema

end SelectionEngine
