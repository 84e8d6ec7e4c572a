import SelectionEngine.Proofs.Coercion.WellTyped
import SelectionEngine.Proofs.Execution.Dispatches
import SelectionEngine.Proofs.Execution.OutputTypes

namespace SelectionEngine

variable {ρ : Type}

/-- The value is one that execution can complete as one of the type:
wherever a field of an object gets its value from a property, the property
is of the type of the field. -/
inductive Fits (schema : Schema ρ) : TypeRef → Value → Prop
  | null {type} : TypeRef.isNonNull type = false → Fits schema type .null
  | nonNull {inner value} : value ≠ .null → Fits schema inner value → Fits schema (.nonNull inner) value
  | leaf {scalar value result} : BuiltIn.complete? scalar value = some result → Fits schema (.builtIn scalar) value
  | list {inner items} : (∀ item ∈ items, Fits schema inner item) → Fits schema (.list inner) (.list items)
  | scalar {name scalar value} : schema.lookup? name = some (.scalar scalar) → Fits schema (.named name) value
  | object {name type entries} : (∀ path, schema.concreteType? name (.object entries) path = .ok (some type)) →
      (∀ field ∈ ObjectType.fields type, schema.resolver? type.name field.name = none →
        Fits schema field.type (((Value.object entries).property? field.name).getD .null)) →
      Fits schema (.named name) (.object entries)

/-- The properties of an object fit the fields of the type that no
resolver is bound to. -/
def Schema.FitsProperties (schema : Schema ρ) (type : ObjectType ρ) (parent : Value) : Prop :=
  ∀ field ∈ type.fields, schema.resolver? type.name field.name = none →
    Fits schema field.type ((parent.property? field.name).getD .null)

/-- A field is resolved to a value that fits its type, or fails
with an expected error. -/
def Schema.FitsOutcome (schema : Schema ρ) (Expected : ResolverError → Prop) (type : TypeRef) :
    Except ResolverError Value → Prop
  | .ok value => Fits schema type value
  | .error error => Expected error

/-- On objects with fitting properties, all fields were resolved to fitting
values or failed with expected errors. -/
def Schema.FitsResolutions (schema : Schema ρ) (variableValues : Object) (Expected : ResolverError → Prop)
    (resolutions : List Resolution) : Prop :=
  ∀ own type parent path group field arguments outcome, schema.lookup? own = some (.object type) →
    schema.FitsProperties type parent → FieldGroup.Calls group schema variableValues type field arguments →
    ⟨group.info type field parent path arguments, outcome⟩ ∈ resolutions →
    schema.FitsOutcome Expected field.type outcome

/-- The error is an expected one of a resolver, or is about arguments that are
given in the request. -/
def Report.FromField (Expected : ResolverError → Prop) (report : Report) : Prop :=
  (∃ error path, Expected error ∧ report = Reportable.report error (some path)) ∨
    ∃ (error : ArgumentError) (path : Path), report = Reportable.report error (some path)

variable (schema : Schema ρ) in
/-- Objects are of registered types and have fitting properties, and values fit
the types of their places. -/
def Subject.Fitting : Subject ρ → Prop
  | .object type _ parent | .group type parent _ =>
    (∃ own, schema.lookup? own = some (.object type)) ∧ schema.FitsProperties type parent
  | .place _ type value | .content _ type value => Fits schema type value

variable {schema : Schema ρ} {variableValues : Object} {site : FieldSite} {path : Path} {account : Account}

theorem Fits.of_nonNull {inner : TypeRef} {value : Value} (fits : Fits schema (.nonNull inner) value) :
    value ≠ .null ∧ Fits schema inner value := by
  cases fits with
  | null nullable => cases nullable
  | nonNull present fits => exact ⟨present, fits⟩

theorem Fits.of_int {value : Value} (fits : Fits schema (.builtIn .int) value) (present : value ≠ .null) :
    ∃ n, value = .int n ∧ -0x80000000 ≤ n ∧ n < 0x80000000 := by
  cases fits with
  | null => exact absurd rfl present
  | leaf completed =>
    simp only [BuiltIn.complete?, Option.map_eq_some_iff] at completed
    obtain ⟨n, found, _⟩ := completed
    cases value with
    | int m =>
      simp only [Value.asInt32?] at found
      split at found
      · next bounds => exact ⟨m, rfl, bounds⟩
      · cases found
    | _ => cases found

theorem Fits.of_list {inner : TypeRef} {items : List Value} (fits : Fits schema (.list inner) (.list items)) :
    ∀ item ∈ items, Fits schema inner item := by
  cases fits with
  | list each => exact each

theorem Fits.of_object {name : String} {entries : Object} {type : ObjectType ρ} {path : Path}
    (fits : Fits schema (.named name) (.object entries))
    (found : schema.concreteType? name (.object entries) path = .ok (some type)) :
    schema.FitsProperties type (.object entries) := by
  cases fits with
  | scalar registered => simp [Schema.concreteType?, registered] at found
  | object known each =>
    obtain rfl := Option.some.inj (Except.ok.inj ((known path).symm.trans found))
    exact each

/-- An object that fits its own type fits what resolves to that type. -/
theorem Fits.of_resolved {name own : String} {entries : Object} {type : ObjectType ρ}
    (fits : Fits schema (.named own) (.object entries))
    (known : schema.concreteType? own (.object entries) [] = .ok (some type))
    (found : ∀ path, schema.concreteType? name (.object entries) path = .ok (some type)) :
    Fits schema (.named name) (.object entries) :=
  .object found (fits.of_object known)

theorem Rejects.not_fits {type : TypeRef} {value : Value} {report : Report}
    (rejects : Rejects schema site type value path report) : ¬ Fits schema type value := by
  rintro fits
  cases rejects with
  | notList present other =>
    cases fits with
    | null => exact present rfl
    | list => exact other _ rfl
  | notObject present other found =>
    cases fits with
    | null => exact present rfl
    | scalar registered => simp [Schema.concreteType?, registered] at found
    | object => exact other _ rfl
  | noType present failed =>
    cases fits with
    | null => exact present rfl
    | scalar registered => simp [Schema.concreteType?, registered] at failed
    | object known => simp [known path] at failed
  | notLeaf present failed =>
    cases fits with
    | null => exact present rfl
    | leaf completed => simp [completed] at failed

theorem Completed.all_errors_ne_nil {parts : List Account}
    (each : ∀ part ∈ parts, part.completed.value? = none → part.completed.errors ≠ [])
    (missing : (all (parts.map Account.completed)).value? = none) :
    (all (parts.map Account.completed)).errors ≠ [] := by
  obtain ⟨_, member, none⟩ := all_value?_eq_none.mp missing
  obtain ⟨part, inside, rfl⟩ := List.mem_map.mp member
  obtain ⟨error, reported⟩ := List.exists_mem_of_ne_nil _ (each part inside none)
  exact List.ne_nil_of_mem (List.mem_flatMap.mpr ⟨_, member, reported⟩)

namespace Executes

/-- Nothing but null is completed to null, as long as the place has not
taken care of failures. -/
theorem content_ne_null {type : TypeRef} {value : Value} (present : value ≠ .null)
    (executes : Executes schema variableValues (.content site type value) path account) :
    account.completed.value? ≠ some .null := by
  cases executes with
  | null => exact absurd rfl present
  | wrapped _ executes =>
    cases executes with
    | strict => exact Completed.refuseNull_value?_ne_null _ _
    | lenient nullable => cases nullable
  | list => simp [Account.ofItems, Completed.map]
  | scalar => simpa [Completed.ok] using present
  | named _ executes =>
    cases executes with
    | object => simp [Account.ofFields, Completed.map]
  | leaf _ completed => simpa [Completed.ok] using (BuiltIn.admits_of_complete? completed).ne_null
  | rejected => simp [Completed.failed]

/-- Where a part has no value there is an error. -/
theorem errors_of_missing {subject : Subject ρ} (executes : Executes schema variableValues subject path account)
    (missing : account.completed.value? = none) : account.completed.errors ≠ [] := by
  induction executes with
  | @object type selections parent path accounts length _ ih =>
    refine Completed.all_errors_ne_nil (fun part member none => ?_) (Option.map_eq_none_iff.mp missing)
    obtain ⟨n, group, atGroup, atPart⟩ := exists_beside length member
    exact ih n group part atGroup atPart none
  | @list site inner path items accounts length _ ih =>
    refine Completed.all_errors_ne_nil (fun part member none => ?_) (Option.map_eq_none_iff.mp missing)
    obtain ⟨n, item, atItem, atPart⟩ := exists_beside length member
    exact ih n item part atItem atPart none
  | badArguments | unresolved =>
    unfold Run.fieldFailure
    split <;> exact List.cons_ne_nil _ _
  | resolved _ _ _ _ ih | wrapped _ _ ih | named _ _ ih => exact ih missing
  | @strict site inner value path account _ ih =>
    by_cases null : account.completed.value? = some .null
    · simp [Completed.refuseNull_of_null _ null]
    · rw [Completed.refuseNull_of_ne_null _ null] at missing ⊢
      exact ih missing
  | lenient | typename | null | scalar | leaf => simp [Completed.absorb, Completed.ok] at missing
  | rejected => exact List.cons_ne_nil _ _

section

variable {Expected : ResolverError → Prop} {resolutions : List Resolution}

theorem fits_fieldFailure {type : TypeRef} {report : Report} {group : FieldGroup}
    (from_ : report.FromField Expected) (known : report.path = some (path.join (.key group.key))) :
    ∀ error ∈ (Run.fieldFailure type report).errors, error.FromField Expected ∧
      ∃ place, error.path = some place ∧ path.join (.key group.key) <+: place := by
  unfold Run.fieldFailure
  split <;> exact List.forall_mem_singleton.mpr ⟨from_, _, known, List.prefix_refl _⟩

/-- Where fields are resolved to fitting values, errors come from
fields only: execution has nothing to object to, and the errors of a
part lie where its fields do. -/
theorem errors_of_fitting {subject : Subject ρ} (executes : Executes schema variableValues subject path account)
    (fitting : schema.FitsResolutions variableValues Expected resolutions)
    (known : account.resolutions ⊆ resolutions) (fits : subject.Fitting schema) :
    ∀ error ∈ account.completed.errors, error.FromField Expected ∧
      ∃ place, error.path = some place ∧ subject.Owns path place := by
  -- by the rules of execution: parts of what fits fit as well, so that
  -- nothing is ever rejected
  induction executes with
  | @object type selections parent path accounts length _ ih =>
    intro error member
    rw [Account.errors_ofFields, ← List.flatMap_def] at member
    obtain ⟨part, listed, member⟩ := List.mem_flatMap.mp member
    obtain ⟨n, group, atGroup, atPart⟩ := exists_beside length listed
    have inside : part.resolutions ⊆ resolutions :=
      fun _ asked => known (List.mem_flatMap.mpr ⟨part, listed, asked⟩)
    obtain ⟨genuine, place, located, below⟩ := ih n group part atGroup atPart inside fits error member
    exact ⟨genuine, place, located, _, below⟩
  | typename | null | scalar | leaf => exact nofun
  | badArguments => exact fits_fieldFailure (.inr ⟨_, _, rfl⟩) rfl
  | unresolved named declared coerced =>
    obtain ⟨⟨own, found⟩, properties⟩ := fits
    have expected := fitting own _ _ _ _ _ _ _ found properties ⟨named, declared, coerced⟩ (known (.head _))
    exact fits_fieldFailure (.inl ⟨_, _, expected, rfl⟩) rfl
  | resolved named declared coerced _ ih =>
    obtain ⟨⟨own, found⟩, properties⟩ := fits
    have value := fitting own _ _ _ _ _ _ _ found properties ⟨named, declared, coerced⟩ (known (.head _))
    intro error member
    obtain ⟨genuine, place, located, element, below⟩ :=
      ih (fun _ asked => known (.tail _ asked)) value error member
    exact ⟨genuine, place, located, Path.prefix_join.trans below⟩
  | strict executes ih =>
    obtain ⟨present, fits⟩ := fits.of_nonNull
    rw [Completed.refuseNull_of_ne_null _ (executes.content_ne_null present)]
    exact ih known fits
  | lenient _ _ ih | wrapped _ _ ih => exact ih known fits
  | @list site inner path items accounts length _ ih =>
    intro error member
    rw [Account.errors_ofItems, ← List.flatMap_def] at member
    obtain ⟨part, listed, member⟩ := List.mem_flatMap.mp member
    obtain ⟨n, item, atItem, atPart⟩ := exists_beside length listed
    have inside : part.resolutions ⊆ resolutions :=
      fun _ asked => known (List.mem_flatMap.mpr ⟨part, listed, asked⟩)
    obtain ⟨genuine, place, located, element, below⟩ :=
      ih n item part atItem atPart inside (fits.of_list item (List.mem_of_getElem? atItem)) error member
    exact ⟨genuine, place, located, .index n, Path.prefix_join.trans below⟩
  | named found _ ih => exact ih known ⟨Schema.object_of_concreteType? found, fits.of_object found⟩
  | rejected rejects => exact absurd fits rejects.not_fits

/-- A fitting value at a place that may be null is completed to null only if it
is null, or for an error of a field that is selected below it. -/
theorem null_of_fitting {type : TypeRef} {value : Value} (nullable : type.isNonNull = false)
    (executes : Executes schema variableValues (.place site type value) path account)
    (fitting : schema.FitsResolutions variableValues Expected resolutions)
    (known : account.resolutions ⊆ resolutions) (fits : Fits schema type value) :
    ∃ result, account.completed.value? = some result ∧ (value = .null → result = .null) ∧
      (result = .null → value ≠ .null →
        ∃ error ∈ account.completed.errors, ∃ element place, error.path = some place ∧
          path.join element <+: place) := by
  cases executes with
  | strict => cases nullable
  | @lenient _ _ _ _ inner _ executes =>
    refine ⟨_, rfl, ?_, fun null present => ?_⟩
    · rintro rfl
      cases executes with
      | null => rfl
      | wrapped present => exact absurd rfl present
      | scalar present => exact absurd rfl present
      | leaf present => exact absurd rfl present
      | rejected rejects => exact absurd fits rejects.not_fits
    · have missing : inner.completed.value? = none := by
        cases completed : inner.completed.value? with
        | none => rfl
        | some result =>
          obtain rfl : result = .null := by simpa [completed] using null
          exact absurd completed (executes.content_ne_null present)
      obtain ⟨error, member⟩ := List.exists_mem_of_ne_nil _ (executes.errors_of_missing missing)
      obtain ⟨_, place, located, element, below⟩ := executes.errors_of_fitting fitting known fits error member
      exact ⟨error, member, element, place, located, below⟩

end

/-- A fitting value of a built-in scalar that must not be null is completed. -/
theorem value?_of_fitting {scalar : BuiltIn} {value : Value}
    (executes : Executes schema variableValues (.place site (.nonNull (.builtIn scalar)) value) path account)
    (fits : Fits schema (.nonNull (.builtIn scalar)) value) : account.completed.value? ≠ none := by
  obtain ⟨present, fits⟩ := fits.of_nonNull
  cases executes with
  | strict executes =>
    rw [Completed.refuseNull_of_ne_null _ (executes.content_ne_null present)]
    cases executes with
    | null => exact absurd rfl present
    | leaf => exact Option.some_ne_none _
    | rejected rejects => exact absurd fits rejects.not_fits
  | lenient nullable => cases nullable

/-- A field that may be null has a value, whatever becomes of it. -/
theorem value?_of_nullable {type : ObjectType ρ} {parent : Value} {group : FieldGroup} {field : FieldDef ρ}
    (executes : Executes schema variableValues (.group type parent group) path account)
    (declared : type.field? group.lead.call.name = some field) (nullable : field.type.isNonNull = false) :
    account.completed.value? ≠ none := by
  have failure (report : Report) : (Run.fieldFailure field.type report).value? ≠ none := by
    simp [Run.fieldFailure, nullable]
  cases executes with
  | typename => exact Option.some_ne_none _
  | badArguments _ own | unresolved _ own =>
    obtain rfl := Option.some.inj (own.symm.trans declared)
    exact failure _
  | @resolved _ _ _ _ other _ _ _ _ own _ executes =>
    obtain rfl : field = other := Option.some.inj (declared.symm.trans own)
    generalize field.type = reference at executes nullable
    cases executes with
    | strict => cases nullable
    | lenient => exact Option.some_ne_none _

/-- Where every field of an object has a value, the object has the values of its
fields under their keys. -/
theorem at?_of_object {type : ObjectType ρ} {selections : List Selection} {parent : Value}
    (executes : Executes schema variableValues (.object type selections parent) path account)
    (each : ∀ group ∈ schema.fieldGroups type selections, ∀ part,
      Executes schema variableValues (.group type parent group) path part → part.resolutions ⊆ account.resolutions →
        part.completed.value? ≠ none) :
    ∃ object, account.completed.value? = some object ∧ ∀ group ∈ schema.fieldGroups type selections, ∃ part value,
      Executes schema variableValues (.group type parent group) path part ∧
        part.resolutions ⊆ account.resolutions ∧ part.completed.errors ⊆ account.completed.errors ∧
        part.completed.value? = some value ∧ object.at? [.key group.key] = some value := by
  cases executes with
  | @object _ _ _ _ accounts length executes =>
    obtain ⟨values, present⟩ : ∃ values, (Completed.all (accounts.map Account.completed)).value? = some values := by
      refine Option.ne_none_iff_exists'.mp fun missing => ?_
      obtain ⟨_, member, none⟩ := Completed.all_value?_eq_none.mp missing
      obtain ⟨part, inside, rfl⟩ := List.mem_map.mp member
      obtain ⟨n, group, atGroup, atPart⟩ := exists_beside length inside
      exact each group (List.mem_of_getElem? atGroup) part (executes n group part atGroup atPart)
        (fun _ listed => List.mem_flatMap.mpr ⟨part, inside, listed⟩) none
    let keys := (schema.fieldGroups type selections).map FieldGroup.key
    refine ⟨.object (keys.zip values), by simp [Account.ofFields, Completed.map, present, keys],
      fun group member => ?_⟩
    obtain ⟨n, atGroup⟩ := List.mem_iff_getElem?.mp member
    obtain ⟨part, atPart, known⟩ := Account.exists_of_input length atGroup
    have executed := executes n group part atGroup atPart
    obtain ⟨value, completed⟩ := Option.ne_none_iff_exists'.mp (each group member part executed known)
    refine ⟨part, value, executed, known, fun error reported => ?_, completed, ?_⟩
    · rw [Account.errors_ofFields, ← List.flatMap_def]
      exact List.mem_flatMap.mpr ⟨_, List.mem_of_getElem? atPart, reported⟩
    · have full : values.length = (keys.map PathElement.key).length := by
        simp [Completed.length_of_all present, length, keys]
      have atKey : (keys.map PathElement.key)[n]? = some (.key group.key) := by simp [keys, atGroup]
      have atValue : values[n]? = some value := by
        rw [Completed.getElem?_of_all present, List.getElem?_map, atPart]
        exact completed
      have child : (Value.object (keys.zip values)).child? (.key group.key) = some value :=
        ((assembles_object (schema.nodup_fieldGroups type selections)).child full _ value).mpr ⟨n, atKey, atValue⟩
      simp only [Value.at?, child, Option.bind_some]

end Executes

/-- An object in a value has its type from the name in the type of the value. -/
theorem ObjectsIn.concreteType? {reference : TypeRef} {value object : Value} {place : Path} {type : ObjectType ρ}
    (inside : ObjectsIn schema reference value path type object place) :
    ∃ entries, schema.concreteType? reference.innerName (.object entries) place = .ok (some type) := by
  induction inside with
  | @here reference _ _ _ _ named found =>
    rw [← TypeRef.innerName_nullable reference, named]
    exact ⟨_, found⟩
  | item list _ _ ih => rwa [TypeRef.innerName_of_nullable list] at ih

/-- Selections are executed on objects of registered types. -/
theorem Schema.Executed.registered {request : Request} {root parent : Value} {log : List Resolution}
    {type : ObjectType ρ} {selections : List Selection}
    (executed : schema.Executed request root log type selections parent path) :
    ∃ own, schema.lookup? own = some (.object type) := by
  cases executed with
  | root found => exact ⟨_, Schema.rootType?_eq_some.mp found⟩
  | inside _ _ _ _ inside =>
    obtain ⟨entries, found⟩ := inside.concreteType?
    exact Schema.object_of_concreteType? found

end SelectionEngine
