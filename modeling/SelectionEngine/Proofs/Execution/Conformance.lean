import SelectionEngine.Proofs.Execution.Responses
import SelectionEngine.Proofs.Schema.Registration

namespace SelectionEngine

variable {ρ : Type}

mutual

/-- The values of a type in a response. Its objects have what is
selected on them. -/
inductive Conforms (schema : Schema ρ) : TypeRef → List Selection → Value → Prop
  | null {type selections} : type.isNonNull = false → Conforms schema type selections .null
  | nonNull {inner selections value} : value ≠ .null → Conforms schema inner selections value →
      Conforms schema (.nonNull inner) selections value
  | list {inner selections items} : (∀ item ∈ items, Conforms schema inner selections item) →
      Conforms schema (.list inner) selections (.list items)
  | builtIn {scalar selections value} : BuiltIn.Admits scalar value →
      Conforms schema (.builtIn scalar) selections value
  | scalar {name selections scalar} (value : Value) : schema.lookup? name = some (.scalar scalar) →
      Conforms schema (.named name) selections value
  | object {name selections type entries} : schema.lookup? name = some (.object type) →
      ObjectConforms schema type selections entries →
      Conforms schema (.named name) selections (.object entries)
  | interface {name selections interface type entries} : schema.lookup? name = some (.interface interface) →
      schema.lookup? type.name = some (.object type) → name ∈ type.interfaces →
      ObjectConforms schema type selections entries →
      Conforms schema (.named name) selections (.object entries)

/-- The objects of a type in a response: each response key stands in them once,
in the order of the groups of fields that are selected on the type. -/
inductive ObjectConforms (schema : Schema ρ) : ObjectType ρ → List Selection → Object → Prop
  | fields {type selections entries} :
      Entries.keys entries = (schema.fieldGroups type selections).map FieldGroup.key →
      Entries.Distinct entries →
      (∀ group ∈ schema.fieldGroups type selections, ∀ value, (group.key, value) ∈ entries →
        EntryConforms schema type group value) →
      ObjectConforms schema type selections entries

/-- The values under the key of a group of fields. -/
inductive EntryConforms (schema : Schema ρ) : ObjectType ρ → FieldGroup → Value → Prop
  | typename {type group} : group.lead.call.name = typenameField →
      EntryConforms schema type group (.string type.name)
  | field {type group field value} : group.lead.call.name ≠ typenameField →
      type.field? group.lead.call.name = some field → Conforms schema field.type group.selections value →
      EntryConforms schema type group value

end

/-- What the value of a part of a response has to be. -/
def Subject.Accepts (schema : Schema ρ) : Subject ρ → Value → Prop
  | .object type selections _, value =>
    ∃ entries, value = .object entries ∧ ObjectConforms schema type selections entries
  | .group type _ fields, value => EntryConforms schema type fields value
  | .place site type _, value => Conforms schema type site.selections value
  | .content site type _, value => value = .null ∨ Conforms schema type site.selections value

namespace Executes

variable {schema : Schema ρ} {variableValues : Object}

/-- A field that failed has a value only if it may be null. -/
theorem conforms_fieldFailure {type : TypeRef} {error : Report} {selections : List Selection} {value : Value}
    (present : (Run.fieldFailure type error).value? = some value) : Conforms schema type selections value := by
  unfold Run.fieldFailure at present
  split at present
  · cases present
  · next nullable =>
    cases present
    exact .null (by simpa using nullable)

/-- An object has the entries that its accounts came to. -/
theorem objectConforms_zip {type : ObjectType ρ} {selections : List Selection} {accounts : List Account}
    {values : List Value} (length : accounts.length = (schema.fieldGroups type selections).length)
    (present : (Completed.all (accounts.map Account.completed)).value? = some values)
    (each : ∀ (n : Nat) group account value, (schema.fieldGroups type selections)[n]? = some group →
      accounts[n]? = some account → account.completed.value? = some value →
      EntryConforms schema type group value) :
    ObjectConforms schema type selections
      (((schema.fieldGroups type selections).map FieldGroup.key).zip values) := by
  have sameLength : values.length = (schema.fieldGroups type selections).length := by
    rw [Completed.length_of_all present, List.length_map, length]
  have keys : Entries.keys (((schema.fieldGroups type selections).map FieldGroup.key).zip values) =
      (schema.fieldGroups type selections).map FieldGroup.key :=
    List.map_fst_zip (by simp [sameLength])
  have distinct := schema.nodup_fieldGroups type selections
  refine .fields keys (by rwa [Entries.Distinct, keys]) fun group member value inside => ?_
  obtain ⟨n, inside⟩ := List.mem_iff_getElem?.mp inside
  obtain ⟨atKey, atValue⟩ := List.getElem?_zip_eq_some.mp inside
  obtain ⟨other, atGroup, sameKey⟩ : ∃ other, (schema.fieldGroups type selections)[n]? = some other ∧
      other.key = group.key := by simpa using atKey
  obtain rfl : other = group :=
    List.inj_on_of_nodup_map distinct (List.mem_of_getElem? atGroup) member sameKey
  obtain ⟨account, atAccount, completed⟩ := Account.getElem?_of_all present atValue
  exact each n other account value atGroup atAccount completed

/-- Whatever resolvers give, the values of a response are of
their declared types. -/
theorem accepts (registered : schema.Registered) {subject : Subject ρ} {path : Path} {account : Account}
    (executes : Executes schema variableValues subject path account) {value : Value}
    (present : account.completed.value? = some value) : subject.Accepts schema value := by
  induction executes generalizing value with
  | @object type selections parent path accounts length _ ih =>
    obtain ⟨values, all, rfl⟩ := Option.map_eq_some_iff.mp present
    exact ⟨_, rfl, objectConforms_zip length all fun n group account value atGroup atAccount completed =>
      ih n group account atGroup atAccount completed⟩
  | typename named =>
    cases present
    exact .typename named
  | badArguments named found _ => exact .field named found (conforms_fieldFailure present)
  | unresolved named found _ => exact .field named found (conforms_fieldFailure present)
  | resolved named found _ _ ih => exact .field named found (ih present)
  | @strict site inner raw path account _ ih =>
    by_cases null : account.completed.value? = some .null
    · simp [Completed.refuseNull_of_null _ null] at present
    · rw [Completed.refuseNull_of_ne_null _ null] at present
      have notNull : value ≠ .null := by
        rintro rfl
        exact null present
      exact .nonNull notNull ((ih present).resolve_left notNull)
  | @lenient site type raw path account nullable _ ih =>
    cases present
    cases inside : account.completed.value? with
    | none => exact .null nullable
    | some inner =>
      rcases ih inside with rfl | conforms
      · exact .null nullable
      · exact conforms
  | null =>
    cases present
    exact .inl rfl
  | wrapped _ _ ih => exact .inr (ih present)
  | @list site inner path items accounts length _ ih =>
    obtain ⟨values, all, rfl⟩ := Option.map_eq_some_iff.mp present
    refine .inr (.list fun item member => ?_)
    obtain ⟨n, atItem⟩ := List.mem_iff_getElem?.mp member
    obtain ⟨account, atAccount, completed⟩ := Account.getElem?_of_all all atItem
    have inRange : n < items.length := length ▸ (List.getElem?_eq_some_iff.mp atAccount).1
    exact ih n items[n] account (List.getElem?_eq_getElem inRange) atAccount completed
  | scalar _ found =>
    obtain ⟨scalar, registeredAs⟩ := Schema.scalar_of_concreteType? found
    exact .inr (.scalar _ registeredAs)
  | named found _ ih =>
    obtain ⟨entries, rfl, conforms⟩ := ih present
    rcases registered.declares_of_concreteType? found with own | ⟨interface, own, registeredAs, declared⟩
    · exact .inr (.object own conforms)
    · exact .inr (.interface own registeredAs declared conforms)
  | leaf _ completed =>
    cases present
    exact .inr (.builtIn (BuiltIn.admits_of_complete? completed))
  | rejected _ => cases present

end Executes

namespace Schema

variable {σ : Type} {schema : Schema σ} {settings : ExecutionSettings} {request : Request} {root : Value}
  {state : σ}

/-- The data of a response is null or an object of the root type that has
what the request selects. -/
theorem data_conforms (registered : schema.Registered) {data : Value}
    (answered : (schema.execute settings request root state).1.data = some data) :
    data = .null ∨ ∃ type entries, schema.rootType? request.operation = some type ∧ data = .object entries ∧
      ObjectConforms schema type request.selectionSet entries := by
  obtain ⟨type, account, found, executes, _, rfl, _⟩ := account_of_data answered
  cases present : account.completed.value? with
  | none => exact .inl rfl
  | some value =>
    obtain ⟨entries, rfl, conforms⟩ := executes.accepts registered present
    exact .inr ⟨type, entries, found, rfl, conforms⟩

/-- An object type that declares an interface, and fields with
values of the interface. -/
def heroTypes : List (TypeDef Unit) := [
  .interface { name := "Character", fields := [{ name := "name", type := .nonNull (.builtIn .string) }] },
  .object { name := "Human", interfaces := ["Character"], fields := [
    { name := "name", type := .nonNull (.builtIn .string) },
    { name := "friends", type := .list (.named "Character") }] },
  .object { name := "Query", fields := [{ name := "hero", type := .named "Character" }] }]

def heroSchema : Schema Unit := heroTypes.foldl .insert .empty

def heroRequest : Request where
  selectionSet := [.field { name := "hero" } [
    .field { name := typenameField } [],
    .fragment (some "Human") [
      .field { name := "friends" } [.field { name := "name", label := some "called" } []]]]]

def heroRoot : Value := .object [("hero", .object [
  ("__typename", .string "Human"),
  ("friends", .list [
    .object [("__typename", .string "Human"), ("name", .string "Leia")],
    .object [("__typename", .string "Human")]])])]

def heroData : Value := .object [("hero", .object [
  ("__typename", .string "Human"),
  ("friends", .list [.object [("called", .string "Leia")], .null])])]

theorem registered_heroSchema : heroSchema.Registered :=
  Registered.empty.registerAll (show empty.registerAll heroTypes = .ok heroSchema from rfl)

/-- The second friend has no name and becomes null. -/
theorem data_conforms_heroes : heroSchema.Registered ∧
    (heroSchema.execute {} heroRequest heroRoot ()).1.data = some heroData ∧
    (heroData = .null ∨ ∃ type entries, heroSchema.rootType? heroRequest.operation = some type ∧
      heroData = .object entries ∧ ObjectConforms heroSchema type heroRequest.selectionSet entries) := by
  have answered : (heroSchema.execute {} heroRequest heroRoot ()).1.data = some heroData := rfl
  exact ⟨registered_heroSchema, answered, data_conforms registered_heroSchema answered⟩

end Schema

end SelectionEngine
