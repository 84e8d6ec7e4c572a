import SelectionEngine.Proofs.Execution.Settlement
import SelectionEngine.Proofs.Schema.Registration

namespace SelectionEngine

variable {ρ : Type}

/-- The place has this value, to be completed for a field as one of the type. -/
structure Position.Holds (position : Position) (site : FieldSite) (type : TypeRef) (value : Value) : Prop where
  raw : position.raw? = some value
  selections : position.selections = site.selections
  nullable : position.type.nullable = type.nullable

section

variable (schema : Schema ρ) (position? : Path → Option Position) (resolutions : List Resolution)

/-- The fields of a group have the place that the type declares. -/
def FieldGroup.Placed (group : FieldGroup) (type : ObjectType ρ) (path : Path) : Prop :=
  group.lead.call.name ≠ typenameField → ∀ field, type.field? group.lead.call.name = some field →
    position? (path.join (.key group.key)) = some ⟨field.type, group.selections,
      Resolution.valueAt? resolutions (path.join (.key group.key))⟩

/-- What is worked on stands at the places of a response. -/
def Subject.Placed (path : Path) : Subject ρ → Prop
  | .object type selections _ =>
    ∀ group ∈ schema.fieldGroups type selections, group.Placed position? resolutions type path
  | .group type _ fields => fields.Placed position? resolutions type path
  | .place site type value => ∃ position, position? path = some position ∧ position.Holds site type value ∧
    position.type.isNonNull = type.isNonNull
  | .content site type value => ∃ position, position? path = some position ∧ position.Holds site type value ∧
    (type.isNonNull = true → position.type.isNonNull = true)

/-- How far a part accounts for its errors and nulls. -/
def Subject.Settled (path : Path) (c : Completed Value) : Subject ρ → Prop
  | .object _ _ _ => SettledInside schema position? path c
  | .group _ _ fields => SettledAt schema position? (path.join (.key fields.key)) c
  | .place _ type _ => SettledAt schema position? path c ∧ (type.isNonNull = true → c.value? ≠ some .null)
  | .content _ _ value => value = .null ∧ c = .ok .null ∨ SettledInside schema position? path c

end

section

variable {schema : Schema ρ} {position? : Path → Option Position} {path : Path} {c : Completed Value}
  {report : Report} {value : Value} {position : Position}

theorem failing_here (known : report.path = some path) : Failing position? path [report] where
  arise := by simpa using .inl (reaches_here known)
  cause := ⟨report, .head _, reaches_here known⟩

theorem settledAt_of_no_null (none : ∀ place, value.at? place ≠ some .null) :
    SettledAt schema position? path (.ok value) where
  present _ completed := by
    cases completed
    exact settled_of_no_null none
  missing := nofun

theorem settledInside_of_no_null (none : ∀ place, value.at? place ≠ some .null) :
    SettledInside schema position? path (.ok value) where
  present _ completed := by
    cases completed
    exact ⟨fun null => none [] (congrArg some null), settled_of_no_null none⟩
  missing := nofun

/-- A field without a value fails at its place, or is null there
because of its error. -/
theorem settledAt_fieldFailure (atPath : position? path = some position) (known : report.path = some path) :
    SettledAt schema position? path (Run.fieldFailure position.type report) := by
  unfold Run.fieldFailure
  split
  · next strict => exact ⟨nofun, fun _ => ⟨⟨position, atPath, strict⟩, failing_here known⟩⟩
  · next nullable =>
    refine ⟨fun value completed => ?_, nofun⟩
    cases completed
    exact (failing_here known).settled (.inr ⟨position, atPath, by simpa using nullable⟩)

theorem settledAt_refuseNull (atPath : position? path = some position) (strict : position.type.isNonNull = true)
    (known : report.path = some path)
    (inside : value = .null ∧ c = .ok .null ∨ SettledInside schema position? path c) :
    SettledAt schema position? path (c.refuseNull report) := by
  rcases inside with ⟨_, rfl⟩ | inside
  · exact ⟨nofun, fun _ => ⟨⟨position, atPath, strict⟩, failing_here known⟩⟩
  · have notNull : c.value? ≠ some .null := fun null => (inside.present _ null).1 rfl
    rw [Completed.refuseNull_of_ne_null _ notNull]
    exact ⟨fun value completed => (inside.present value completed).2,
      fun missing => ⟨⟨position, atPath, strict⟩, inside.missing missing⟩⟩

theorem settledAt_absorb (atPath : position? path = some position) (nullable : position.type.isNonNull = false)
    (raw : position.raw? = some value)
    (inside : value = .null ∧ c = .ok .null ∨ SettledInside schema position? path c) :
    SettledAt schema position? path c.absorb := by
  refine ⟨fun result completed => ?_, nofun⟩
  rcases inside with ⟨rfl, rfl⟩ | inside
  · cases completed
    refine ⟨by simp [Completed.absorb, Completed.ok], fun place null => ?_⟩
    obtain ⟨rfl, _⟩ := at?_null null
    rw [List.append_nil]
    exact .inl ⟨⟨position, atPath, nullable, raw⟩, by simp [Completed.absorb, Completed.ok]⟩
  · cases completed
    cases present : c.value? with
    | none => exact (inside.missing present).settled (.inr ⟨position, atPath, nullable⟩)
    | some value => exact (inside.present value present).2

theorem settledInside_scalar {name scalar : String} (atPath : position? path = some position)
    (named : position.type.nullable = .named name) (found : schema.lookup? name = some (.scalar scalar))
    (notNull : value ≠ .null) : SettledInside schema position? path (.ok value) := by
  refine ⟨fun result completed => ?_, nofun⟩
  cases completed
  refine ⟨notNull, by simp [Completed.ok], fun place null => ?_⟩
  refine .inr (.inr ⟨path, position, name, scalar, List.prefix_append _ _, fun same => ?_, atPath, named,
    found⟩)
  obtain rfl : place = [] := List.self_eq_append_right.mp same
  exact notNull (Option.some.inj null)

theorem settledInside_rejected (known : report.path = some path) :
    SettledInside schema position? path (.failed report) :=
  ⟨nofun, fun _ => failing_here known⟩

end

theorem BuiltIn.Admits.no_null {scalar : BuiltIn} {value : Value} (admits : scalar.Admits value)
    (place : Path) : value.at? place ≠ some .null := by
  cases place with
  | nil => cases admits <;> exact nofun
  | cons element rest => cases admits <;> cases element <;> exact nofun

section

variable {schema : Schema ρ} {variableValues : Object} {position? : Path → Option Position}
  {resolutions : List Resolution} (steps : ∀ path element, position? (path.join element) =
    (position? path).bind fun position => position.step? schema resolutions path element)

include steps

/-- Below an object of a type, the fields selected on it have the places
that the type declares. -/
theorem placed_fields {name : String} {type : ObjectType ρ} {path : Path} {position : Position} {value : Value}
    (atPath : position? path = some position) (named : position.type.nullable = .named name)
    (raw : position.raw? = some value) (found : schema.concreteType? name value path = .ok (some type)) :
    ∀ group ∈ schema.fieldGroups type position.selections, group.Placed position? resolutions type path := by
  intro group member notTypename field declared
  rw [steps, atPath, Option.bind_some, Position.step?, Position.field?]
  simp only [named, raw, found]
  have unique : (schema.fieldGroups type position.selections).find? (fun other => other.key = group.key) =
      some group := find?_eq_some_of_nodup (schema.nodup_fieldGroups type _) member
  simp only [unique, Option.bind_some, if_neg notTypename, declared, Option.map_some]

theorem placed_item {inner : TypeRef} {items : List Value} {path : Path} {position : Position} {n : Nat}
    {item : Value} (atPath : position? path = some position) (list : position.type.nullable = .list inner)
    (raw : position.raw? = some (.list items)) (atItem : items[n]? = some item) :
    position? (path.join (.index n)) = some ⟨inner, position.selections, some item⟩ := by
  rw [steps, atPath, Option.bind_some, Position.step?, Position.item?]
  simp only [list, raw, atItem, Option.map_some]

/-- Every part of a response accounts for its errors and nulls,
whatever resolvers give. -/
theorem Executes.settled {subject : Subject ρ} {path : Path} {account : Account}
    (executes : Executes schema variableValues subject path account)
    (recorded : ∀ resolution ∈ account.resolutions,
      Resolution.valueAt? resolutions resolution.path = resolution.outcome.toOption)
    (placed : subject.Placed schema position? resolutions path) :
    subject.Settled schema position? path account.completed := by
  induction executes with
  | @object type selections parent path accounts length _ ih =>
    have parts : PartsSettled schema position? path
        (((schema.fieldGroups type selections).map FieldGroup.key).map .key)
        (accounts.map Account.completed) := by
      refine ⟨PathElement.nodup_keys (schema.nodup_fieldGroups type selections), by simp [length], ?_⟩
      intro n element c atElement atPart
      simp only [List.getElem?_map, Option.map_map, Option.map_eq_some_iff] at atElement atPart
      obtain ⟨group, atGroup, rfl⟩ := atElement
      obtain ⟨account, atAccount, rfl⟩ := atPart
      exact ih n group account atGroup atAccount
        (fun resolution member => recorded resolution
          (List.mem_flatMap.mpr ⟨account, List.mem_of_getElem? atAccount, member⟩))
        (placed group (List.mem_of_getElem? atGroup))
    exact parts.inside (assembles_object (schema.nodup_fieldGroups type selections))
  | typename _ => exact settledAt_of_no_null (BuiltIn.Admits.string _).no_null
  | badArguments notTypename declared _ => exact settledAt_fieldFailure (placed notTypename _ declared) rfl
  | unresolved notTypename declared _ => exact settledAt_fieldFailure (placed notTypename _ declared) rfl
  | @resolved type parent group path field arguments value account notTypename declared _ _ ih =>
    have atPath := placed notTypename field declared
    have known := recorded _ (.head _)
    have inside := ih (fun resolution member => recorded resolution (.tail _ member))
      ⟨_, atPath, ⟨known, rfl, rfl⟩, rfl⟩
    exact inside.1
  | @strict site inner value path account _ ih =>
    obtain ⟨position, atPath, holds, strict⟩ := placed
    have inside := ih recorded
      ⟨position, atPath, ⟨holds.raw, holds.selections, holds.nullable⟩, fun _ => strict⟩
    exact ⟨settledAt_refuseNull atPath strict rfl inside, fun _ => Completed.refuseNull_value?_ne_null _ _⟩
  | @lenient site type value path account nullable _ ih =>
    obtain ⟨position, atPath, holds, same⟩ := placed
    have inside := ih recorded ⟨position, atPath, holds, fun strict => same.trans strict⟩
    exact ⟨settledAt_absorb atPath (same.trans nullable) holds.raw inside,
      fun strict => absurd strict (by simp [nullable])⟩
  | null => exact .inl ⟨rfl, rfl⟩
  | @wrapped site inner value path account _ _ ih =>
    obtain ⟨position, atPath, holds, strict⟩ := placed
    obtain ⟨settled, notNull⟩ := ih recorded ⟨position, atPath, holds, strict rfl⟩
    refine .inr ⟨fun value completed => ⟨?_, settled.present value completed⟩,
      fun missing => (settled.missing missing).2⟩
    rintro rfl
    exact notNull rfl completed
  | @list site inner path items accounts length _ ih =>
    obtain ⟨position, atPath, holds, _⟩ := placed
    have parts : PartsSettled schema position? path ((List.range items.length).map .index)
        (accounts.map Account.completed) := by
      refine ⟨PathElement.nodup_indices _, by simp [length], ?_⟩
      intro n element c atElement atPart
      simp only [List.getElem?_map, Option.map_eq_some_iff] at atElement atPart
      obtain ⟨m, atIndex, rfl⟩ := atElement
      obtain ⟨inRange, rfl⟩ : n < items.length ∧ n = m := by simpa [List.getElem?_eq_some_iff] using atIndex
      obtain ⟨account, atAccount, rfl⟩ := atPart
      have atItem : items[n]? = some items[n] := List.getElem?_eq_getElem inRange
      have settled := ih n items[n] account atItem atAccount
        (fun resolution member => recorded resolution
          (List.mem_flatMap.mpr ⟨account, List.mem_of_getElem? atAccount, member⟩))
        ⟨_, placed_item steps atPath holds.nullable holds.raw atItem, ⟨rfl, holds.selections, rfl⟩, rfl⟩
      exact settled.1
    exact .inr (parts.inside (assembles_list items.length))
  | scalar notNull found =>
    obtain ⟨position, atPath, holds, _⟩ := placed
    obtain ⟨scalar, registeredAs⟩ := Schema.scalar_of_concreteType? found
    exact .inr (settledInside_scalar atPath holds.nullable registeredAs notNull)
  | named found _ ih =>
    obtain ⟨position, atPath, holds, _⟩ := placed
    refine .inr (ih recorded ?_)
    have fields := placed_fields steps atPath holds.nullable holds.raw found
    rwa [holds.selections] at fields
  | leaf _ completed => exact .inr (settledInside_of_no_null (BuiltIn.admits_of_complete? completed).no_null)
  | rejected rejects => exact .inr (settledInside_rejected rejects.path)

theorem position?_append_of_none {path : Path} (absent : position? path = none) (rest : Path) :
    position? (path ++ rest) = none := by
  induction rest generalizing path with
  | nil => rwa [List.append_nil]
  | cons element rest ih =>
    have next : position? (path.join element) = none := by rw [steps, absent, Option.bind_none]
    simpa [Path.join] using ih next

/-- A value of a registered scalar has no places inside. -/
theorem position?_of_insideScalar {path : Path} (inside : InsideScalar position? schema path) :
    position? path = none := by
  obtain ⟨place, position, name, scalar, ⟨rest, rfl⟩, other, atPath, named, found⟩ := inside
  cases rest with
  | nil => exact absurd (List.append_nil place).symm other
  | cons element rest =>
    have none (value : Value) : schema.concreteType? name value place = .ok none := by
      simp only [Schema.concreteType?, found]
    have next : position? (Path.join place element) = .none := by
      rw [steps, atPath, Option.bind_some]
      cases element with
      | index n => simp only [Position.step?, Position.item?, named]
      | key key =>
        simp only [Position.step?, Position.field?, named]
        cases position.raw? with
        | none => rfl
        | some value => simp only [none]
    simpa [Path.join] using position?_append_of_none steps next rest

end

/-- The errors and the nulls of the data of a response explain each other. -/
structure NullsMatchErrors (schema : Schema ρ) (position? : Path → Option Position) (errors : List Report)
    (data : Value) : Prop where
  /-- An error belongs to the nearest place that may be null. That place
  is null, or it is missing because a place above it is null for another
  error that belongs there. -/
  marked : ∀ error ∈ errors, ∃ path place, error.path = some path ∧ NearestNullable position? place path ∧
    (data.at? place = some .null ∨ ∃ above, above <+: place ∧ above ≠ place ∧
      data.at? above = some .null ∧ Blamed position? errors above)
  /-- A null below the root was found without an error there, or an error
  belongs to its place, or it is part of a value of a registered scalar. -/
  nulls : ∀ path, path ≠ [] → data.at? path = some .null →
    (position? path).isSome = true ∧ (GenuineNull position? errors path ∨ Blamed position? errors path) ∨
      position? path = none ∧ InsideScalar position? schema path
  root : data = .null → errors ≠ []

namespace Schema

variable {σ : Type} {schema : Schema σ} {settings : ExecutionSettings} {request : Request} {root : Value}
  {state : σ}

theorem position?_join (path : Path) (element : PathElement) :
    schema.position? settings request root state (path.join element) =
      (schema.position? settings request root state path).bind fun position =>
        position.step? schema (schema.resolutions settings request root state) path element :=
  Position.walk?_join schema (schema.resolutions settings request root state) _ [] path element

theorem concreteType?_of_rootType? {kind : OperationKind} {type : ObjectType σ} (value : Value) (path : Path)
    (found : schema.rootType? kind = some type) :
    schema.concreteType? (schema.rootTypeName kind) value path = .ok (some type) := by
  simp only [rootType?] at found
  split at found
  · next own =>
    cases found
    simp only [concreteType?, own]
  · cases found

/-- The fields that an operation selects have their places. -/
theorem placed_root {type : ObjectType σ} (found : schema.rootType? request.operation = some type) :
    (Subject.object type request.selectionSet root).Placed schema (schema.position? settings request root state)
      (schema.resolutions settings request root state) [] := by
  have atRoot : schema.position? settings request root state [] =
      some ⟨.named (schema.rootTypeName request.operation), request.selectionSet, some root⟩ := rfl
  exact placed_fields position?_join atRoot rfl rfl (concreteType?_of_rootType? root [] found)

/-- The data of a response accounts for its errors and nulls. -/
theorem settled_data {data : Value}
    (answered : (schema.execute settings request root state).1.data = some data) :
    Settled schema (schema.position? settings request root state) []
        (schema.execute settings request root state).1.errors data ∧
      (data = .null → (schema.execute settings request root state).1.errors ≠ []) := by
  obtain ⟨type, account, found, executes, log, rfl, errors⟩ := account_of_data answered
  have inside : SettledInside schema (schema.position? settings request root state) [] account.completed :=
    executes.settled position?_join (executes.recorded log) (placed_root found)
  rw [errors]
  cases present : account.completed.value? with
  | none =>
    have failing := inside.missing present
    refine ⟨failing.settled (.inl rfl), fun _ none => ?_⟩
    obtain ⟨cause, member, _⟩ := failing.cause
    simp [none] at member
  | some value =>
    obtain ⟨notNull, settled⟩ := inside.present value present
    exact ⟨settled, fun null => absurd null notNull⟩

/-- Each error makes null the nearest place at or above it that may be null,
unless a place further up is null because of another error. Other nulls than
these were found as they are. -/
theorem nulls_match_errors {data : Value}
    (answered : (schema.execute settings request root state).1.data = some data) :
    NullsMatchErrors schema (schema.position? settings request root state)
      (schema.execute settings request root state).1.errors data := by
  obtain ⟨settled, rootNull⟩ := settled_data answered
  refine ⟨fun error member => ?_, fun path below null => ?_, rootNull⟩
  · obtain ⟨path, place, known, nearest, above, upper, null, blamed⟩ := settled.marked error member
    refine ⟨path, place, known, nearest, ?_⟩
    by_cases same : above = place
    · exact .inl (same ▸ null)
    · exact .inr ⟨above, upper, same, null, blamed⟩
  · rcases settled.nulls path null with genuine | blamed | inside
    · obtain ⟨position, atPath, _⟩ := genuine.1
      exact .inl ⟨Option.isSome_iff_exists.mpr ⟨position, atPath⟩, .inl genuine⟩
    · have ⟨_, _, _, _, nearest⟩ := blamed
      obtain ⟨position, atPath, _⟩ := nearest.mayBeNull.resolve_left below
      exact .inl ⟨Option.isSome_iff_exists.mpr ⟨position, atPath⟩, .inr blamed⟩
    · exact .inr ⟨position?_of_insideScalar position?_join inside, inside⟩

/-- Two fields of an object fail, and only one of them must not be null. -/
def siblingTypes : List (TypeDef Unit) := [
  .object { name := "Inner", fields := [
    { name := "b", type := .builtIn .int
      resolver := some (.immediate fun _ => .error ⟨"b failed", []⟩) },
    { name := "c", type := .nonNull (.builtIn .int)
      resolver := some (.immediate fun _ => .error ⟨"c failed", []⟩) }] },
  .object { name := "Query", fields := [
    { name := "a", type := .named "Inner", resolver := some (.immediate fun _ => .value (.object [])) }] }]

def siblingSchema : Schema Unit := siblingTypes.foldl .insert .empty

def siblingRequest : Request where
  selectionSet := [.field { name := "a" } [.field { name := "b" } [], .field { name := "c" } []]]

def siblingData : Value := .object [("a", .null)]

theorem registered_siblingSchema : siblingSchema.Registered :=
  Registered.empty.registerAll (show empty.registerAll siblingTypes = .ok siblingSchema from rfl)

theorem nulls_match_sibling_errors :
    (siblingSchema.execute {} siblingRequest (.object []) ()).1.data = some siblingData ∧
      NullsMatchErrors siblingSchema (siblingSchema.position? {} siblingRequest (.object []) ())
        (siblingSchema.execute {} siblingRequest (.object []) ()).1.errors siblingData := by
  have answered : (siblingSchema.execute {} siblingRequest (.object []) ()).1.data = some siblingData := rfl
  exact ⟨answered, nulls_match_errors answered⟩

/-- The object becomes null because of one of its fields, and then nothing is
null because of the other. -/
theorem sibling_error_without_null : siblingSchema.Registered ∧
    (siblingSchema.execute {} siblingRequest (.object []) ()).1.data = some siblingData ∧
    ¬ ∀ error ∈ (siblingSchema.execute {} siblingRequest (.object []) ()).1.errors, ∃ path place,
      error.path = some path ∧
      NearestNullable (siblingSchema.position? {} siblingRequest (.object []) ()) place path ∧
      siblingData.at? place = some .null := by
  refine ⟨registered_siblingSchema, rfl, fun each => ?_⟩
  obtain ⟨path, place, known, nearest, null⟩ := each _ (.head _)
  obtain rfl : [.key "a", .key "b"] = path := Option.some.inj known
  have above := nearest.above
  simp only [List.prefix_cons_iff, List.prefix_nil] at above
  rcases above with rfl | ⟨_, rfl, rfl | ⟨_, rfl, rfl⟩⟩
  · cases null
  · obtain ⟨position, atPath, strict⟩ :=
      nearest.strict [.key "a", .key "b"] nearest.above (by decide) (List.prefix_refl _)
    cases atPath
    cases strict
  · cases null

end Schema

end SelectionEngine
