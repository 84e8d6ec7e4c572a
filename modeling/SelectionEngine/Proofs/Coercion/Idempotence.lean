import SelectionEngine.Proofs.Coercion.Conforming
import SelectionEngine.Proofs.Coercion.Equations

namespace SelectionEngine

variable {σ : Type} {schema : Schema σ} {type : TypeRef} {value result : Value}

theorem CoercesTo.nullable (coerces : CoercesTo schema type value result) :
    CoercesTo schema type.nullable value result := by
  induction type with
  | nonNull inner ih => exact ih coerces.of_nonNull.2
  | _ => exact coerces

theorem CoercesTo.isNonNull_of_null (coerces : CoercesTo schema type value .null) : type.isNonNull = false := by
  cases type with
  | nonNull inner => exact absurd rfl coerces.of_nonNull.1
  | _ => rfl

theorem BuiltIn.Admits.coerce?_eq {scalar : BuiltIn} (admits : scalar.Admits value) :
    scalar.coerce? value = some value := by
  cases admits with
  | int lower upper => simp [coerce?, Value.intInput?, Value.asInt32?, lower, upper]
  | _ => rfl

theorem FieldsCoerceTo.sublist {fields : List ArgumentDef} {given results : Object}
    (coerces : FieldsCoerceTo schema fields given results) :
    (Entries.keys results).Sublist (fields.map ArgumentDef.name) := by
  cases coerces with
  | fields sublist => exact sublist

/-- A field without an entry is one that may be left out, and has no default. -/
theorem FieldsCoerceTo.get?_eq_none {fields : List ArgumentDef} {given results : Object}
    (coerces : FieldsCoerceTo schema fields given results) {field : ArgumentDef} (member : field ∈ fields)
    (absent : Entries.get? field.name results = none) : field.default = none ∧ field.type.isNonNull = false := by
  have optional : ¬ (field.type.isNonNull ∨ field.default.isSome) := fun required => by
    obtain ⟨_, result, found, _⟩ := coerces.of_required member required
    simp [absent] at found
  simpa [not_or, and_comm] using optional

namespace Schema

theorem coerceFields_eq (coerceField : ArgumentDef → String → Except ArgumentError (Option Value))
    (fields : List ArgumentDef) (path : String) :
    coerceFields coerceField fields path = fields.foldlM (fun coerced field =>
      (coerceField field (path ++ "." ++ field.name)).map fun outcome =>
        outcome.elim coerced fun value => Entries.set field.name value coerced) [] := by
  unfold coerceFields
  congr 1
  funext coerced field
  rcases coerceField field (path ++ "." ++ field.name) with _ | (_ | _) <;> rfl

/-- Fields whose outcomes are the entries of an object in their order are
coerced to that object. -/
theorem coerceFields_eq_ok {coerceField : ArgumentDef → String → Except ArgumentError (Option Value)}
    {fields : List ArgumentDef} {path : String} {results : Object}
    (distinct : (fields.map ArgumentDef.name).Nodup)
    (sublist : (Entries.keys results).Sublist (fields.map ArgumentDef.name))
    (each : ∀ field ∈ fields, coerceField field (path ++ "." ++ field.name) =
      .ok (Entries.get? field.name results)) :
    coerceFields coerceField fields path = .ok results := by
  rw [coerceFields_eq]
  generalize start : ([] : Object) = before
  suffices general : (∀ field ∈ fields, Entries.get? field.name before = none) →
      fields.foldlM (fun coerced field =>
        (coerceField field (path ++ "." ++ field.name)).map fun outcome =>
          outcome.elim coerced fun value => Entries.set field.name value coerced) before =
            .ok (before ++ results) by
    subst start
    exact general fun _ _ => rfl
  clear start
  induction fields generalizing results before with
  | nil =>
    obtain rfl : results = [] := List.map_eq_nil_iff.mp (List.sublist_nil.mp sublist)
    simp [pure, Except.pure]
  | cons field fields ih =>
    intro fresh
    obtain ⟨absent, distinct⟩ := List.nodup_cons.mp distinct
    obtain ⟨outcome, others⟩ := List.forall_mem_cons.mp each
    obtain ⟨new, freshOthers⟩ := List.forall_mem_cons.mp fresh
    rw [List.foldlM_cons, outcome]
    rcases List.sublist_cons_iff.mp sublist with skipped | ⟨keys, present, later⟩
    · rw [Entries.get?_eq_none_of_keys fun member => absent (skipped.subset member)]
      exact ih distinct skipped others before freshOthers
    · obtain ⟨⟨key, value⟩, rest, rfl, rfl, rfl⟩ := List.map_eq_cons_iff.mp present
      have apart {other : ArgumentDef} (member : other ∈ fields) : field.name ≠ other.name := fun same =>
        absent (List.mem_map.mpr ⟨other, member, same.symm⟩)
      have found : Entries.get? field.name ((field.name, value) :: rest) = some value := if_pos rfl
      have step := ih distinct later
        (fun other member => by rw [others other member, Entries.get?, if_neg (apart member)])
        (Entries.set field.name value before) fun other member => by
          rw [Entries.get?_set, if_neg (apart member)]
          exact freshOthers other member
      rw [found]
      refine Eq.trans step ?_
      rw [Entries.set_of_get?_eq_none new, List.append_assoc, List.singleton_append]

theorem coerceWhole_of_admits {scalar : BuiltIn} (admits : scalar.Admits value) (path : String) :
    schema.coerceWhole (.builtIn scalar) value path = .ok value := by
  simp [coerceWhole, admits.coerce?_eq]

theorem coerceWhole_of_scalar {name scalar : String} (found : schema.lookup? name = some (.scalar scalar))
    (value : Value) (path : String) : schema.coerceWhole (.named name) value path = .ok value := by
  simp [coerceWhole, found]

/-- A value with no parts of its own that was coerced is fit for
its type as it is. -/
theorem coerceWhole_of_coercesTo (coerces : CoercesTo schema type value result) (present : result ≠ .null)
    (noList : ∀ items, result ≠ .list items) (noObject : ∀ entries, result ≠ .object entries) (path : String) :
    schema.coerceWhole type.nullable result path = .ok result := by
  have notNonNull := type.isNonNull_nullable
  have coerces := coerces.nullable
  generalize type.nullable = nullable at notNonNull coerces
  cases coerces with
  | null => exact absurd rfl present
  | nonNull => cases notNonNull
  | builtIn admits => exact coerceWhole_of_admits admits path
  | list => exact absurd rfl (noList _)
  | scalar _ found => exact coerceWhole_of_scalar found _ path
  | object => exact absurd rfl (noObject _)

variable {substitute : ArgumentDef → String → Except ArgumentError (Option Value)}

variable (substitute) in
/-- A field that may be left out, and for which nothing else was
declared, is left out. -/
def LeavesOut : Prop :=
  ∀ field path, field.default = none → field.type.isNonNull = false → substitute field path = .ok none

theorem leavesOut_substituteDefault (coerceDefault : Value → TypeRef → String → Except ArgumentError Value) :
    LeavesOut (substituteDefault coerceDefault) := by
  intro field path noDefault optional
  simp [substituteDefault, noDefault, optional]

mutual

/-- What was coerced to a type has that type already, and nothing
in it is missing. -/
theorem coerceGiven_of_coercesTo (registered : schema.Registered) (leavesOut : LeavesOut substitute) :
    (result : Value) → (type : TypeRef) → (value : Value) → CoercesTo schema type value result →
    (path : String) → schema.coerceGiven substitute result type path = .ok result
  | .null, type, value, coerces, path => by
    simp [coerceGiven, coerces.isNonNull_of_null]
  | .bool b, type, value, coerces, path => coerceWhole_of_coercesTo coerces nofun nofun nofun path
  | .int n, type, value, coerces, path => coerceWhole_of_coercesTo coerces nofun nofun nofun path
  | .double d, type, value, coerces, path => coerceWhole_of_coercesTo coerces nofun nofun nofun path
  | .string s, type, value, coerces, path => coerceWhole_of_coercesTo coerces nofun nofun nofun path
  | .list results, type, value, coerces, path => by
    have notNonNull := type.isNonNull_nullable
    have coerces := coerces.nullable
    rw [coerceGiven]
    generalize type.nullable = nullable at notNonNull coerces
    cases coerces with
    | nonNull => cases notNonNull
    | builtIn admits => cases admits
    | scalar _ found => exact coerceWhole_of_scalar found _ path
    | @list inner items _ length each =>
      have items := coerceItems_of_coercesTo registered leavesOut results inner items length each path 0
      simp only [items, Except.map]
  | .object results, type, value, coerces, path => by
    have notNonNull := type.isNonNull_nullable
    have coerces := coerces.nullable
    rw [coerceGiven]
    generalize type.nullable = nullable at notNonNull coerces
    cases coerces with
    | nonNull => cases notNonNull
    | builtIn admits => cases admits
    | scalar _ found =>
      simp only [found]
      exact coerceWhole_of_scalar found _ path
    | @object name input entries _ found fields =>
      have distinct := ((registered.wellFormed found).inputs input rfl).1
      have outcome (field : ArgumentDef) (member : field ∈ input.fields) :
          schema.coerceEntry substitute field (path ++ "." ++ field.name) results =
            .ok (Entries.get? field.name results) := by
        rw [coerceEntry_of_coercesTo registered leavesOut results field fun result => fields.of_get? member]
        cases present : Entries.get? field.name results with
        | some result => rfl
        | none =>
          obtain ⟨noDefault, optional⟩ := fields.get?_eq_none member present
          exact leavesOut field _ noDefault optional
      have same :
          coerceFields (fun field path => schema.coerceEntry substitute field path results) input.fields path =
            .ok results :=
        coerceFields_eq_ok distinct fields.sublist outcome
      simp only [found, same, Except.map]

theorem coerceItems_of_coercesTo (registered : schema.Registered) (leavesOut : LeavesOut substitute) :
    (results : List Value) → (inner : TypeRef) → (items : List Value) → results.length = items.length →
    (∀ (n : Nat) item result, items[n]? = some item → results[n]? = some result →
      CoercesTo schema inner item result) →
    (path : String) → (index : Nat) → coerceItems schema substitute results inner path index = .ok results
  | [], _, _, _, _, _, _ => rfl
  | result :: results, inner, item :: items, length, each, path, index => by
    have first := coerceGiven_of_coercesTo registered leavesOut result inner item (each 0 item result rfl rfl)
    have others := coerceItems_of_coercesTo registered leavesOut results inner items (Nat.succ.inj length)
      (fun n => each (n + 1)) path (index + 1)
    simp [coerceItems, first, others, bind, Except.bind, pure, Except.pure]

theorem coerceEntry_of_coercesTo (registered : schema.Registered) (leavesOut : LeavesOut substitute) :
    (results : List (String × Value)) → (field : ArgumentDef) →
    (∀ result, Entries.get? field.name results = some result → ∃ value, CoercesTo schema field.type value result) →
    {path : String} → schema.coerceEntry substitute field path results =
      match Entries.get? field.name results with
      | some result => .ok (some result)
      | none => substitute field path
  | [], _, _, _ => rfl
  | (key, result) :: rest, field, each, path => by
    rw [coerceEntry]
    by_cases here : key = field.name
    · have found : Entries.get? field.name ((key, result) :: rest) = some result := if_pos here
      obtain ⟨value, coerces⟩ := each result found
      rw [if_pos here, found]
      split
      · next null =>
        obtain rfl : result = .null := by cases result <;> first | rfl | cases null
        simp [coerces.isNonNull_of_null]
      · simp only [coerceGiven_of_coercesTo registered leavesOut result field.type value coerces, Except.map]
    · have later : Entries.get? field.name ((key, result) :: rest) = Entries.get? field.name rest := if_neg here
      rw [if_neg here, later]
      exact coerceEntry_of_coercesTo registered leavesOut rest field fun result found =>
        each result (later.trans found)

end

/-- Coercion does not change what was coerced to the same type already, at
whatever place it is given again. -/
theorem coerceValue_idempotent (registered : schema.Registered) (type : TypeRef) (value result : Value)
    (path other : String) (coerced : schema.coerceValue value type path = .ok result) :
    schema.coerceValue result type other = .ok result :=
  coerceGiven_of_coercesTo registered (leavesOut_substituteDefault _) result type value
    (coercesTo_of_coerceWithin registered _ value type path result coerced) other

/-- Input objects inside of another one, with defaults and a registered scalar. -/
def stayTypes : List (TypeDef Unit) := [
  .scalar "Any",
  .inputObject { name := "Guest", fields := [
    { name := "age", type := .nonNull (.builtIn .int) },
    { name := "weight", type := .builtIn .float, default := some .null },
    { name := "passport", type := .builtIn .id }] },
  .inputObject { name := "Stay", fields := [
    { name := "nights", type := .nonNull (.builtIn .int), default := some (.string " 2 ") },
    { name := "guests", type := .list (.named "Guest") },
    { name := "wishes", type := .named "Any" },
    { name := "code", type := .builtIn .string }] },
  .object { name := "Query", fields := [
    { name := "price", type := .builtIn .float, arguments := [
      { name := "stay", type := .nonNull (.named "Stay") }] }] }]

def staySchema : Schema Unit := stayTypes.foldl .insert .empty

theorem registered_staySchema : staySchema.Registered :=
  Registered.empty.registerAll (show empty.registerAll stayTypes = .ok staySchema from rfl)

/-- A key of no field, numbers given as texts and a text as a
number, and nulls. -/
def stayGiven : Value :=
  .object [("more", .null), ("wishes", .object [("late", .string "1"), ("late", .int 1)]), ("nights", .null),
    ("guests", .list [.object [("passport", .int 7), ("age", .string "40")], .null])]

def stayResult : Value :=
  .object [("nights", .int 2),
    ("guests", .list [.object [("age", .int 40), ("weight", .null), ("passport", .string "7")], .null]),
    ("wishes", .object [("late", .string "1"), ("late", .int 1)])]

theorem coerceValue_idempotent_stay : staySchema.Registered ∧
    staySchema.coerceValue stayGiven (.nonNull (.named "Stay")) "stay" = .ok stayResult ∧
    staySchema.coerceValue stayResult (.nonNull (.named "Stay")) "again" = .ok stayResult := by
  have coerced : staySchema.coerceValue stayGiven (.nonNull (.named "Stay")) "stay" = .ok stayResult := by
    decide +kernel
  exact ⟨registered_staySchema, coerced, coerceValue_idempotent registered_staySchema _ _ _ "stay" "again" coerced⟩

end Schema

end SelectionEngine
