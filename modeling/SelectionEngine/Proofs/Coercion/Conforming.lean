import SelectionEngine.Proofs.Coercion.WellTyped

namespace SelectionEngine

variable {σ : Type} {schema : Schema σ} {value result : Value}

theorem CoercesTo.of_nonNull {inner : TypeRef} (coerces : CoercesTo schema (.nonNull inner) value result) :
    result ≠ .null ∧ CoercesTo schema inner value result := by
  cases coerces with
  | null nullable => cases nullable
  | nonNull present coerces => exact ⟨present, coerces⟩

theorem CoercesTo.of_builtIn {scalar : BuiltIn} (coerces : CoercesTo schema (.builtIn scalar) value result) :
    result = .null ∨ scalar.Admits result := by
  cases coerces with
  | null => exact .inl rfl
  | builtIn admits => exact .inr admits

/-- What is coerced as an input object is null, or an object of the fields. -/
theorem CoercesTo.of_inputObject {name : String} {input : InputObjectType}
    (found : schema.lookup? name = some (.inputObject input))
    (coerces : CoercesTo schema (.named name) value result) :
    result = .null ∨ ∃ given entries, result = .object entries ∧
      FieldsCoerceTo schema input.fields given entries := by
  cases coerces with
  | null => exact .inl rfl
  | scalar _ registered => simp [found] at registered
  | object registered fields =>
    obtain rfl : _ = input := by simpa using registered.symm.trans found
    exact .inr ⟨_, _, rfl, fields⟩

namespace FieldsCoerceTo

variable {fields : List ArgumentDef} {given results : Object}

theorem distinct (coerces : FieldsCoerceTo schema fields given results) : Entries.Distinct results := by
  cases coerces with
  | fields _ distinct _ _ _ => exact distinct

/-- An entry is that of a field, and of its type. -/
theorem of_get? (coerces : FieldsCoerceTo schema fields given results) {field : ArgumentDef}
    (member : field ∈ fields)
    (found : Entries.get? field.name results = some result) :
    ∃ value, CoercesTo schema field.type value result := by
  cases coerces with
  | fields _ _ _ sources each =>
    have contained : Entries.contains results field.name := by simp [Entries.contains, found]
    obtain ⟨value, source⟩ := Option.isSome_iff_exists.mp (sources field member contained)
    exact ⟨value, each field member value result source found⟩

theorem of_mem (coerces : FieldsCoerceTo schema fields given results) {entry : String × Value}
    (member : entry ∈ results) :
    ∃ field ∈ fields, field.name = entry.1 ∧ ∃ value, CoercesTo schema field.type value entry.2 := by
  have found := (Entries.get?_eq_some_iff coerces.distinct).mpr member
  have declared : entry.1 ∈ fields.map ArgumentDef.name := by
    cases coerces with
    | fields sublist _ _ _ _ => exact sublist.subset (List.mem_map_of_mem member)
  obtain ⟨field, listed, named⟩ := List.mem_map.mp declared
  exact ⟨field, listed, named, coerces.of_get? listed (named ▸ found)⟩

/-- A field that must not be null or has a default has an entry. -/
theorem of_required (coerces : FieldsCoerceTo schema fields given results) {field : ArgumentDef}
    (member : field ∈ fields) (required : field.type.isNonNull ∨ field.default.isSome) :
    ∃ value result, Entries.get? field.name results = some result ∧ CoercesTo schema field.type value result := by
  have contained : Entries.contains results field.name := by
    cases coerces with
    | fields _ _ needed _ _ => exact needed field member required
  obtain ⟨result, found⟩ := Option.isSome_iff_exists.mp contained
  obtain ⟨value, coerced⟩ := coerces.of_get? member found
  exact ⟨value, result, found, coerced⟩

end FieldsCoerceTo

/-- The arguments that a field is called with have the declared types. -/
theorem Schema.fieldsCoerceTo_of_coerceArguments (registered : schema.Registered) {arguments : List ArgumentDef}
    (distinct : (arguments.map ArgumentDef.name).Nodup) {raw : Entries String InputValue} {variableValues : Object}
    {label : String} {results : Object}
    (coerced : schema.coerceArguments arguments raw variableValues label = .ok results) :
    FieldsCoerceTo schema arguments (givenArguments raw variableValues) results := by
  unfold coerceArguments at coerced
  split at coerced
  · cases coerced
  · have substitutes :=
      substitutes_substituteDefault (coercesTo_of_coerceWithin registered (schema.defaultCount + 1))
    exact fieldsCoerceTo_of_coerceFields distinct
      (fieldCoercesTo_of_coerceEntry registered substitutes (givenArguments raw variableValues)) coerced

end SelectionEngine
