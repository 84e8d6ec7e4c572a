import SelectionEngine.Proofs.Execution.Completion
import SelectionEngine.Proofs.Schema.Checks

namespace SelectionEngine

variable {σ : Type}

/-- The value that counts for a field: the given one, or the default if there is
none or if it is null and must not be. -/
def ArgumentDef.source? (field : ArgumentDef) : Option Value → Option Value
  | some value => if value.isNull ∧ field.type.isNonNull then field.default else some value
  | none => field.default

mutual

/-- The values that a given value may be coerced to as one of a type. -/
inductive CoercesTo (schema : Schema σ) : TypeRef → Value → Value → Prop
  | null {type} : type.isNonNull = false → CoercesTo schema type .null .null
  | nonNull {inner value result} : result ≠ .null → CoercesTo schema inner value result →
      CoercesTo schema (.nonNull inner) value result
  | builtIn {scalar value result} : BuiltIn.Admits scalar result →
      CoercesTo schema (.builtIn scalar) value result
  | list {inner items results} : results.length = items.length →
      (∀ (n : Nat) item result, items[n]? = some item → results[n]? = some result →
        CoercesTo schema inner item result) →
      CoercesTo schema (.list inner) (.list items) (.list results)
  | scalar {name scalar} (value : Value) : schema.lookup? name = some (.scalar scalar) →
      CoercesTo schema (.named name) value value
  | object {name input entries results} : schema.lookup? name = some (.inputObject input) →
      FieldsCoerceTo schema input.fields entries results →
      CoercesTo schema (.named name) (.object entries) (.object results)

/-- The objects that given entries may be coerced to by the fields of an input
object or the arguments of a field: they have entries in the order of
declaration, each from the value that counts for its field, and lack none that
must not be null or has a default. -/
inductive FieldsCoerceTo (schema : Schema σ) : List ArgumentDef → Object → Object → Prop
  | fields {fields entries results} :
      (Entries.keys results).Sublist (fields.map ArgumentDef.name) →
      Entries.Distinct results →
      (∀ field ∈ fields, field.type.isNonNull ∨ field.default.isSome → Entries.contains results field.name) →
      (∀ field ∈ fields, Entries.contains results field.name →
        (field.source? (Entries.get? field.name entries)).isSome) →
      (∀ field ∈ fields, ∀ value result, field.source? (Entries.get? field.name entries) = some value →
        Entries.get? field.name results = some result → CoercesTo schema field.type value result) →
      FieldsCoerceTo schema fields entries results

end

/-- What may become of a field: a value of its type, or nothing
if it may be left out. -/
def FieldCoercesTo (schema : Schema σ) (field : ArgumentDef) (given? : Option Value) : Option Value → Prop
  | some result => ∃ value, field.source? given? = some value ∧ CoercesTo schema field.type value result
  | none => field.source? given? = none ∧ field.type.isNonNull = false

theorem CoercesTo.of_nullable {schema : Schema σ} {type : TypeRef} {value result : Value}
    (present : result ≠ .null) (coerces : CoercesTo schema type.nullable value result) :
    CoercesTo schema type value result := by
  induction type with
  | nonNull inner ih => exact .nonNull present (ih coerces)
  | _ => exact coerces

theorem BuiltIn.Admits.ne_null {scalar : BuiltIn} {value : Value} (admits : scalar.Admits value) :
    value ≠ .null := by
  rintro rfl
  cases admits

theorem Value.bounds_of_intInput? {value : Value} {n : Int} (found : value.intInput? = some n) :
    -0x80000000 ≤ n ∧ n < 0x80000000 := by
  unfold intInput? at found
  split at found
  · simp only [asInt32?] at found
    split at found
    · next bounds =>
      cases found
      exact bounds
    · cases found
  · exact of_decide_eq_true (Option.filter_eq_some_iff.mp found).2
  · cases found

theorem BuiltIn.admits_of_coerce? {scalar : BuiltIn} {value result : Value}
    (coerced : scalar.coerce? value = some result) : scalar.Admits result := by
  unfold coerce? at coerced
  split at coerced
  · cases coerced
    exact .string _
  · cases coerced
    exact .id _
  · cases coerced
    exact .id _
  · obtain ⟨n, found, rfl⟩ := Option.map_eq_some_iff.mp coerced
    obtain ⟨lower, upper⟩ := Value.bounds_of_intInput? found
    exact .int lower upper
  · obtain ⟨d, _, rfl⟩ := Option.map_eq_some_iff.mp coerced
    exact .float d
  · cases coerced
    exact .boolean _
  · cases coerced
    exact .boolean _
  · cases coerced
    exact .boolean _
  · cases coerced

namespace Schema

variable {schema : Schema σ}

/-- What is coerced as a whole is of its type and not null. -/
theorem coercesTo_of_coerceWhole {type : TypeRef} {value result : Value} {path : String}
    (present : value ≠ .null) (coerced : schema.coerceWhole type value path = .ok result) :
    CoercesTo schema type value result ∧ result ≠ .null := by
  unfold coerceWhole at coerced
  split at coerced
  · split at coerced
    · next found =>
      cases coerced
      have admits := BuiltIn.admits_of_coerce? found
      exact ⟨.builtIn admits, admits.ne_null⟩
    · cases coerced
  · split at coerced
    · next found =>
      cases coerced
      exact ⟨.scalar value found, present⟩
    all_goals cases coerced
  all_goals cases coerced

/-- Fields of different names are coerced one by one, and each has its
outcome under its name. -/
theorem outcomes_of_coerceFields {coerceField : ArgumentDef → String → Except ArgumentError (Option Value)}
    {fields : List ArgumentDef} {path : String} {results : Object}
    (distinct : (fields.map ArgumentDef.name).Nodup)
    (coerced : coerceFields coerceField fields path = .ok results) :
    (Entries.keys results).Sublist (fields.map ArgumentDef.name) ∧
      ∀ field ∈ fields, coerceField field (path ++ "." ++ field.name) =
        .ok (Entries.get? field.name results) := by
  -- the entries of earlier fields stay in front, and later ones
  -- do not change them
  suffices general : ∀ before : Object, (∀ field ∈ fields, Entries.get? field.name before = none) →
      ∀ results, fields.foldlM (fun coerced field => do
          match ← coerceField field (path ++ "." ++ field.name) with
          | some value => return Entries.set field.name value coerced
          | none => return coerced) before = .ok results →
        ∃ added : Object, results = before ++ added ∧ (Entries.keys added).Sublist (fields.map ArgumentDef.name) ∧
          ∀ field ∈ fields, coerceField field (path ++ "." ++ field.name) =
            .ok (Entries.get? field.name added) by
    obtain ⟨added, rfl, sublist, each⟩ := general [] (fun _ _ => rfl) results coerced
    exact ⟨sublist, each⟩
  clear coerced results
  induction fields with
  | nil =>
    rintro before _ _ ⟨⟩
    exact ⟨[], (List.append_nil _).symm, .slnil, nofun⟩
  | cons field fields ih =>
    intro before fresh results coerced
    obtain ⟨absent, distinct⟩ := List.nodup_cons.mp distinct
    have others {other : ArgumentDef} (member : other ∈ fields) : field.name ≠ other.name := fun same =>
      absent (List.mem_map.mpr ⟨other, member, same.symm⟩)
    rw [List.foldlM_cons] at coerced
    cases outcome : coerceField field (path ++ "." ++ field.name) with
    | error error => simp [outcome, bind, Except.bind] at coerced
    | ok outcome? =>
      rw [outcome] at coerced
      rcases outcome? with _ | value
      · obtain ⟨added, rfl, sublist, each⟩ :=
          ih distinct before (fun other member => fresh other (.tail _ member)) results coerced
        refine ⟨added, rfl, sublist.cons _, List.forall_mem_cons.mpr ⟨?_, each⟩⟩
        rw [outcome, Entries.get?_eq_none_of_keys fun member => absent (sublist.subset member)]
      · have set : Entries.set field.name value before = before ++ [(field.name, value)] :=
          Entries.set_of_get?_eq_none (fresh field (.head _))
        obtain ⟨added, rfl, sublist, each⟩ := ih distinct (Entries.set field.name value before)
          (fun other member => by
            rw [Entries.get?_set, if_neg (others member)]
            exact fresh other (.tail _ member)) results coerced
        refine ⟨(field.name, value) :: added, by simp [set], sublist.cons_cons _,
          List.forall_mem_cons.mpr ⟨?_, fun other member => ?_⟩⟩
        · rw [outcome, Entries.get?, if_pos rfl]
        · rw [each other member, Entries.get?, if_neg (others member)]

/-- If each field may become its outcome, then together they are an
object of the fields. -/
theorem fieldsCoerceTo_of_coerceFields
    {coerceField : ArgumentDef → String → Except ArgumentError (Option Value)} {fields : List ArgumentDef}
    {path : String} {entries results : Object} (distinct : (fields.map ArgumentDef.name).Nodup)
    (each : ∀ field path outcome, coerceField field path = .ok outcome →
      FieldCoercesTo schema field (Entries.get? field.name entries) outcome)
    (coerced : coerceFields coerceField fields path = .ok results) :
    FieldsCoerceTo schema fields entries results := by
  obtain ⟨sublist, outcomes⟩ := outcomes_of_coerceFields distinct coerced
  have coerces (field : ArgumentDef) (member : field ∈ fields) :
      FieldCoercesTo schema field (Entries.get? field.name entries) (Entries.get? field.name results) :=
    each field _ _ (outcomes field member)
  refine .fields sublist (distinct.sublist sublist) (fun field member required => ?_)
    (fun field member contained => ?_) fun field member value result source found => ?_
  · have fieldCoerces := coerces field member
    rw [Entries.contains]
    cases found : Entries.get? field.name results with
    | some result => rfl
    | none =>
      rw [found] at fieldCoerces
      obtain ⟨source, nullable⟩ := fieldCoerces
      have noDefault : field.default = none := by
        cases given : Entries.get? field.name entries with
        | none => rwa [given] at source
        | some value => simp [given, ArgumentDef.source?, nullable] at source
      simp [nullable, noDefault] at required
  · have fieldCoerces := coerces field member
    obtain ⟨result, found⟩ := Option.isSome_iff_exists.mp contained
    rw [found] at fieldCoerces
    obtain ⟨value, source, _⟩ := fieldCoerces
    rw [source]
    rfl
  · have fieldCoerces := coerces field member
    rw [found] at fieldCoerces
    obtain ⟨other, otherSource, coercesTo⟩ := fieldCoerces
    obtain rfl : other = value := Option.some.inj (otherSource.symm.trans source)
    exact coercesTo

/-- A null that must not be one counts like no value at all. -/
theorem fieldCoercesTo_null {field : ArgumentDef} {outcome : Option Value} (strict : field.type.isNonNull = true)
    (coerces : FieldCoercesTo schema field none outcome) : FieldCoercesTo schema field (some .null) outcome := by
  have same : field.source? (some .null) = field.source? none := by
    simp [ArgumentDef.source?, Value.isNull, strict]
  cases outcome with
  | none => exact ⟨same.trans coerces.1, coerces.2⟩
  | some result =>
    obtain ⟨value, source, coerces⟩ := coerces
    exact ⟨value, same.trans source, coerces⟩

theorem coercesTo_of_whole {type : TypeRef} {value result : Value} {path : String} (present : value ≠ .null)
    (coerced : schema.coerceWhole type.nullable value path = .ok result) :
    CoercesTo schema type value result ∧ (value ≠ .null → result ≠ .null) := by
  obtain ⟨coerces, notNull⟩ := coercesTo_of_coerceWhole present coerced
  exact ⟨coerces.of_nullable notNull, fun _ => notNull⟩

variable {substitute : ArgumentDef → String → Except ArgumentError (Option Value)}

variable (schema substitute) in
/-- What stands in for a field without a value is fit for it. -/
def Substitutes : Prop :=
  ∀ field path outcome, substitute field path = .ok outcome → FieldCoercesTo schema field none outcome

mutual

/-- A coerced value is of its type, and null only where null was given. -/
theorem coercesTo_of_coerceGiven (registered : schema.Registered) (substitutes : Substitutes schema substitute) :
    (value : Value) → (type : TypeRef) → (path : String) → (result : Value) →
    schema.coerceGiven substitute value type path = .ok result →
    CoercesTo schema type value result ∧ (value ≠ .null → result ≠ .null)
  | .null, type, path, result, coerced => by
    simp only [coerceGiven] at coerced
    split at coerced
    · cases coerced
    · next nullable =>
      cases coerced
      exact ⟨.null (by simpa using nullable), fun present => absurd rfl present⟩
  | .bool b, type, path, result, coerced => coercesTo_of_whole (show Value.bool b ≠ .null from nofun) coerced
  | .int n, type, path, result, coerced => coercesTo_of_whole (show Value.int n ≠ .null from nofun) coerced
  | .double d, type, path, result, coerced => coercesTo_of_whole (show Value.double d ≠ .null from nofun) coerced
  | .string s, type, path, result, coerced => coercesTo_of_whole (show Value.string s ≠ .null from nofun) coerced
  | .list items, type, path, result, coerced => by
    simp only [coerceGiven] at coerced
    split at coerced
    · next inner list =>
      obtain ⟨results, outcome, rfl⟩ := map_eq_ok.mp coerced
      obtain ⟨length, each⟩ := coercesTo_of_coerceItems registered substitutes items inner path 0 results outcome
      have coerces : CoercesTo schema type.nullable (.list items) (.list results) := list ▸ .list length each
      exact ⟨coerces.of_nullable nofun, fun _ => nofun⟩
    · exact coercesTo_of_whole nofun coerced
  | .object entries, type, path, result, coerced => by
    simp only [coerceGiven] at coerced
    split at coerced
    · next name named =>
      split at coerced
      · next input found =>
        have distinct := ((registered.wellFormed found).inputs input rfl).1
        obtain ⟨results, outcome, rfl⟩ := map_eq_ok.mp coerced
        have fields : FieldsCoerceTo schema input.fields entries results :=
          fieldsCoerceTo_of_coerceFields distinct
            (fun field path => fieldCoercesTo_of_coerceEntry registered substitutes entries field path) outcome
        have coerces : CoercesTo schema type.nullable (.object entries) (.object results) :=
          named ▸ .object found fields
        exact ⟨coerces.of_nullable nofun, fun _ => nofun⟩
      · exact coercesTo_of_whole nofun (named ▸ coerced)
    · exact coercesTo_of_whole nofun coerced

theorem coercesTo_of_coerceItems (registered : schema.Registered) (substitutes : Substitutes schema substitute) :
    (items : List Value) → (inner : TypeRef) → (path : String) → (index : Nat) →
    (results : List Value) → coerceItems schema substitute items inner path index = .ok results →
    results.length = items.length ∧ ∀ (n : Nat) item result, items[n]? = some item →
      results[n]? = some result → CoercesTo schema inner item result
  | [], inner, path, index, results, coerced => by
    cases coerced
    exact ⟨rfl, by simp⟩
  | item :: items, inner, path, index, results, coerced => by
    simp only [coerceItems] at coerced
    obtain ⟨result, first, rest⟩ := bind_eq_ok.mp coerced
    obtain ⟨others, later, last⟩ := bind_eq_ok.mp rest
    cases last
    obtain ⟨length, each⟩ :=
      coercesTo_of_coerceItems registered substitutes items inner path (index + 1) others later
    refine ⟨by simp [length], ?_⟩
    rintro (_ | n) other coercedOther atItem atResult
    · obtain rfl := Option.some.inj atItem
      obtain rfl := Option.some.inj atResult
      exact (coercesTo_of_coerceGiven registered substitutes item inner _ result first).1
    · exact each n other coercedOther atItem atResult

theorem fieldCoercesTo_of_coerceEntry (registered : schema.Registered)
    (substitutes : Substitutes schema substitute) :
    (entries : List (String × Value)) → (field : ArgumentDef) → (path : String) → (outcome : Option Value) →
    coerceEntry schema substitute field path entries = .ok outcome →
    FieldCoercesTo schema field (Entries.get? field.name entries) outcome
  | [], field, path, outcome, coerced => substitutes field path outcome coerced
  | (key, value) :: rest, field, path, outcome, coerced => by
    simp only [coerceEntry] at coerced
    rw [Entries.get?]
    split at coerced
    · next same =>
      rw [if_pos same]
      split at coerced
      · next null =>
        obtain rfl : value = .null := by cases value <;> first | rfl | cases null
        split at coerced
        · next strict => exact fieldCoercesTo_null strict (substitutes field path outcome coerced)
        · next nullable =>
          cases coerced
          exact ⟨.null, by simp [ArgumentDef.source?, nullable], .null (by simpa using nullable)⟩
      · next present =>
        obtain ⟨result, outcome, rfl⟩ := map_eq_ok.mp coerced
        exact ⟨value, by simp [ArgumentDef.source?, present],
          (coercesTo_of_coerceGiven registered substitutes value field.type path result outcome).1⟩
    · next other =>
      rw [if_neg other]
      exact fieldCoercesTo_of_coerceEntry registered substitutes rest field path outcome coerced

end

/-- The default of a field is coerced as any other value. -/
theorem substitutes_substituteDefault {coerceDefault : Value → TypeRef → String → Except ArgumentError Value}
    (coerces : ∀ value type path result, coerceDefault value type path = .ok result →
      CoercesTo schema type value result) :
    Substitutes schema (substituteDefault coerceDefault) := by
  intro field path outcome substituted
  unfold substituteDefault at substituted
  split at substituted
  · next value given =>
    obtain ⟨result, coerced, rfl⟩ := map_eq_ok.mp substituted
    exact ⟨value, given, coerces value field.type path result coerced⟩
  · next absent =>
    split at substituted
    · cases substituted
    · next nullable =>
      cases substituted
      exact ⟨absent, by simpa using nullable⟩

theorem coercesTo_of_coerceWithin (registered : schema.Registered) (budget : Nat) (value : Value)
    (type : TypeRef) (path : String) (result : Value)
    (coerced : schema.coerceWithin budget value type path = .ok result) : CoercesTo schema type value result := by
  induction budget generalizing value type path result with
  | zero => cases coerced
  | succ budget ih =>
    have substitutes := substitutes_substituteDefault ih
    exact (coercesTo_of_coerceGiven registered substitutes value type path result coerced).1

/-- Coercion gives values of the declared types only: to a value one of its
type, and to the arguments of a field, whose names are always distinct, an
object of the declared ones. -/
theorem coerced_conforms (registered : schema.Registered) :
    (∀ value type path result, schema.coerceValue value type path = .ok result →
      CoercesTo schema type value result) ∧
    (∀ arguments raw variableValues label results, (arguments.map ArgumentDef.name).Nodup →
      schema.coerceArguments arguments raw variableValues label = .ok results →
      FieldsCoerceTo schema arguments (givenArguments raw variableValues) results) ∧
    ∀ name type field, schema.lookup? name = some type → field ∈ TypeDef.fields type →
      (field.arguments.map ArgumentDef.name).Nodup := by
  have values := coercesTo_of_coerceWithin registered (schema.defaultCount + 1)
  refine ⟨values, fun arguments raw variableValues label results distinct coerced => ?_,
    fun name type field found member => ((registered.wellFormed found).each field member).arguments⟩
  unfold coerceArguments at coerced
  split at coerced
  · cases coerced
  · exact fieldsCoerceTo_of_coerceFields distinct (fieldCoercesTo_of_coerceEntry registered
      (substitutes_substituteDefault values) (givenArguments raw variableValues)) coerced

/-- An input object type with a default, and a field with an
argument of that type. -/
def pageTypes : List (TypeDef Unit) := [
  .inputObject { name := "Page", fields := [
    { name := "size", type := .nonNull (.builtIn .int), default := some (.string " 10 ") },
    { name := "after", type := .builtIn .id },
    { name := "marks", type := .list (.builtIn .boolean) }] },
  .object { name := "Query", fields := [
    { name := "feed", type := .builtIn .string, arguments := [
      { name := "page", type := .nonNull (.named "Page") },
      { name := "tags", type := .list (.builtIn .string), default := some (.list []) }] }] }]

def pageSchema : Schema Unit := pageTypes.foldl .insert .empty

theorem registered_pageSchema : pageSchema.Registered :=
  Registered.empty.registerAll (show empty.registerAll pageTypes = .ok pageSchema from rfl)

/-- The size stands in for a null, and the mark is a variable
inside of the argument. -/
def pageArguments : Entries String InputValue :=
  [("page", .object [("size", .value .null), ("marks", .list [.variable "mark", .value .null])])]

def pageResults : Object :=
  [("page", .object [("size", .int 10), ("marks", .list [.bool true, .null])]), ("tags", .list [])]

theorem coerced_conforms_page : pageSchema.Registered ∧
    ∃ field ∈ (pageSchema.rootType? .query).toList.flatMap ObjectType.fields,
      (field.arguments.map ArgumentDef.name).Nodup ∧
      pageSchema.coerceArguments field.arguments pageArguments [("mark", .string "true")] "feed" =
        .ok pageResults ∧
      FieldsCoerceTo pageSchema field.arguments
        (givenArguments pageArguments [("mark", .string "true")]) pageResults := by
  refine ⟨registered_pageSchema, _, .head _, by decide, by decide +kernel, ?_⟩
  exact (coerced_conforms registered_pageSchema).2.1 _ _ _ "feed" _ (by decide) (by decide +kernel)

end Schema

end SelectionEngine
