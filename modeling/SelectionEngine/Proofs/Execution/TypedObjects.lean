import SelectionEngine.Proofs.Execution.Conformance
import SelectionEngine.Proofs.Execution.NullBubbling

namespace SelectionEngine

variable {ρ : Type}

section

variable (schema : Schema ρ) (position? : Path → Option Position)

/-- The object at a path has the fields that are selected there on the object
type that its value was found to be of. -/
def ObjectTyped (path : Path) (entries : Object) : Prop :=
  ∀ position name, position? path = some position → position.type.nullable = .named name →
    (∀ scalar, schema.lookup? name ≠ some (.scalar scalar)) →
    ∃ raw type, position.raw? = some raw ∧ schema.concreteType? name raw path = .ok (some type) ∧
      ObjectConforms schema type position.selections entries

/-- All objects in a value at a path are at places of their own. -/
def ObjectsTyped (path : Path) (value : Value) : Prop :=
  ∀ rest entries, value.at? rest = some (.object entries) → ObjectTyped schema position? (path ++ rest) entries

/-- The objects below a path are, whatever there is at the path. -/
def ObjectsTypedBelow (path : Path) (value : Value) : Prop :=
  ∀ element rest entries, value.at? (element :: rest) = some (.object entries) →
    ObjectTyped schema position? (path ++ element :: rest) entries

/-- What has to hold of the value that work on a subject comes to. -/
def Subject.ObjectsTyped (path : Path) (value : Value) : Subject ρ → Prop
  | .object _ _ _ => ObjectsTypedBelow schema position? path value
  | .group _ _ fields => SelectionEngine.ObjectsTyped schema position? (path.join (.key fields.key)) value
  | .place _ _ _ | .content _ _ _ => SelectionEngine.ObjectsTyped schema position? path value

end

section

variable {schema : Schema ρ} {position? : Path → Option Position} {path : Path} {value : Value}

theorem objectsTyped_of_no_object (none : ∀ rest entries, value.at? rest ≠ some (.object entries)) :
    ObjectsTyped schema position? path value :=
  fun rest entries found => absurd found (none rest entries)

theorem objectsTyped_null : ObjectsTyped schema position? path .null := by
  intro rest entries found
  obtain ⟨_, same⟩ := at?_null found
  cases same

theorem BuiltIn.Admits.no_object {scalar : BuiltIn} {value : Value} (admits : scalar.Admits value) (rest : Path)
    (entries : Object) : value.at? rest ≠ some (.object entries) := by
  cases rest with
  | nil => cases admits <;> exact nofun
  | cons element rest => cases admits <;> cases element <;> exact nofun

theorem objectsTyped_fieldFailure {type : TypeRef} {report : Report}
    (present : (Run.fieldFailure type report).value? = some value) : ObjectsTyped schema position? path value := by
  unfold Run.fieldFailure at present
  split at present
  · cases present
  · cases present
    exact objectsTyped_null

/-- What consists of parts with placed objects has them below it. -/
theorem objectsTypedBelow_of_parts {elements : List PathElement} {build : List Value → Value}
    {accounts : List Account} {values : List Value} (assembles : Assembles elements build)
    (length : accounts.length = elements.length)
    (present : (Completed.all (accounts.map Account.completed)).value? = some values)
    (each : ∀ (n : Nat) element account value, elements[n]? = some element → accounts[n]? = some account →
      account.completed.value? = some value → ObjectsTyped schema position? (path.join element) value) :
    ObjectsTypedBelow schema position? path (build values) := by
  intro element rest entries found
  have full : values.length = elements.length := by rw [Completed.length_of_all present, List.length_map, length]
  obtain ⟨part, child, inside⟩ := Option.bind_eq_some_iff.mp found
  obtain ⟨n, atElement, atValue⟩ := (assembles.child full element part).mp child
  obtain ⟨account, atAccount, completed⟩ := Account.getElem?_of_all present atValue
  simpa [Path.join] using each n element account part atElement atAccount completed rest entries inside

section

variable {variableValues : Object} {resolutions : List Resolution} (registered : schema.Registered)
  (steps : ∀ path element, position? (path.join element) =
    (position? path).bind fun position => position.step? schema resolutions path element)

include registered steps

/-- Objects come about only at places that have a type, and by executing
what is selected there. -/
theorem Executes.objectsTyped {subject : Subject ρ} {path : Path} {account : Account}
    (executes : Executes schema variableValues subject path account)
    (recorded : ∀ resolution ∈ account.resolutions,
      Resolution.valueAt? resolutions resolution.path = resolution.outcome.toOption)
    (placed : subject.Placed schema position? resolutions path) {value : Value}
    (present : account.completed.value? = some value) : subject.ObjectsTyped schema position? path value := by
  induction executes generalizing value with
  | @object type selections parent path accounts length _ ih =>
    obtain ⟨values, all, rfl⟩ := Option.map_eq_some_iff.mp present
    refine objectsTypedBelow_of_parts (assembles_object (schema.nodup_fieldGroups type selections))
      (by simp [length]) all fun n element account value atElement atAccount completed => ?_
    simp only [List.getElem?_map, Option.map_map, Option.map_eq_some_iff] at atElement
    obtain ⟨group, atGroup, rfl⟩ := atElement
    exact ih n group account atGroup atAccount
      (fun resolution member => recorded resolution
        (List.mem_flatMap.mpr ⟨account, List.mem_of_getElem? atAccount, member⟩))
      (placed group (List.mem_of_getElem? atGroup)) completed
  | typename _ =>
    cases present
    exact objectsTyped_of_no_object (BuiltIn.Admits.string _).no_object
  | badArguments => exact objectsTyped_fieldFailure present
  | unresolved => exact objectsTyped_fieldFailure present
  | @resolved type parent group path field arguments raw account notTypename declared _ _ ih =>
    have atPath := placed notTypename field declared
    have known := recorded _ (.head _)
    exact ih (fun resolution member => recorded resolution (.tail _ member))
      ⟨_, atPath, ⟨known, rfl, rfl⟩, rfl⟩ present
  | @strict site inner raw path account _ ih =>
    obtain ⟨position, atPath, holds, strict⟩ := placed
    by_cases null : account.completed.value? = some .null
    · simp [Completed.refuseNull_of_null _ null] at present
    · rw [Completed.refuseNull_of_ne_null _ null] at present
      exact ih recorded ⟨position, atPath, ⟨holds.raw, holds.selections, holds.nullable⟩, fun _ => strict⟩ present
  | @lenient site type raw path account nullable _ ih =>
    obtain ⟨position, atPath, holds, same⟩ := placed
    cases present
    cases inside : account.completed.value? with
    | none => exact objectsTyped_null
    | some inner => exact ih recorded ⟨position, atPath, holds, fun strict => same.trans strict⟩ inside
  | null =>
    cases present
    exact objectsTyped_null
  | @wrapped site inner raw path account _ _ ih =>
    obtain ⟨position, atPath, holds, strict⟩ := placed
    exact ih recorded ⟨position, atPath, holds, strict rfl⟩ present
  | @list site inner path items accounts length _ ih =>
    obtain ⟨position, atPath, holds, _⟩ := placed
    obtain ⟨values, all, rfl⟩ := Option.map_eq_some_iff.mp present
    have below : ObjectsTypedBelow schema position? path (.list values) := by
      refine objectsTypedBelow_of_parts (assembles_list items.length) (by simp [length]) all
        fun n element account value atElement atAccount completed => ?_
      simp only [List.getElem?_map, Option.map_eq_some_iff] at atElement
      obtain ⟨m, atIndex, rfl⟩ := atElement
      obtain ⟨inRange, rfl⟩ : n < items.length ∧ n = m := by simpa [List.getElem?_eq_some_iff] using atIndex
      have atItem : items[n]? = some items[n] := List.getElem?_eq_getElem inRange
      exact ih n items[n] account atItem atAccount
        (fun resolution member => recorded resolution
          (List.mem_flatMap.mpr ⟨account, List.mem_of_getElem? atAccount, member⟩))
        ⟨_, placed_item steps atPath holds.nullable holds.raw atItem, ⟨rfl, holds.selections, rfl⟩, rfl⟩ completed
    intro rest entries found
    cases rest with
    | nil => cases found
    | cons element rest => exact below element rest entries found
  | @scalar site name raw path notNull found =>
    -- a scalar has no places inside, and what is at its own place is not
    -- for a type with fields
    cases present
    obtain ⟨position, atPath, holds, _⟩ := placed
    obtain ⟨scalar, registeredAs⟩ := Schema.scalar_of_concreteType? found
    intro rest entries _ other otherName atOther named noScalar
    cases rest with
    | nil =>
      rw [List.append_nil, atPath] at atOther
      cases atOther
      cases named.symm.trans holds.nullable
      exact absurd registeredAs (noScalar scalar)
    | cons element rest =>
      have inside : InsideScalar position? schema (path ++ element :: rest) :=
        ⟨path, position, name, scalar, List.prefix_append _ _, by simp, atPath, holds.nullable, registeredAs⟩
      rw [position?_of_insideScalar steps inside] at atOther
      cases atOther
  | @named site name type parent path account found executes ih =>
    obtain ⟨position, atPath, holds, _⟩ := placed
    obtain ⟨entries, rfl, conforms⟩ := executes.accepts registered present
    have fields := placed_fields steps atPath holds.nullable holds.raw found
    rw [holds.selections] at fields
    have below : ObjectsTypedBelow schema position? path (.object entries) := ih recorded fields present
    intro rest others inside
    cases rest with
    | nil =>
      cases inside
      intro other otherName atOther named _
      rw [List.append_nil, atPath] at atOther
      cases atOther
      cases named.symm.trans holds.nullable
      rw [List.append_nil]
      exact ⟨.object parent, type, holds.raw, found, holds.selections ▸ conforms⟩
    | cons element rest => exact below element rest others inside
  | leaf _ completed =>
    cases present
    exact objectsTyped_of_no_object (BuiltIn.admits_of_complete? completed).no_object
  | rejected _ => cases present

end

end

namespace Schema

variable {σ : Type} {schema : Schema σ} {settings : ExecutionSettings} {request : Request} {root : Value}
  {state : σ}

theorem objectsTyped_of_data (registered : schema.Registered) {data : Value}
    (answered : (schema.execute settings request root state).1.data = some data) :
    ObjectsTypedBelow schema (schema.position? settings request root state) [] data := by
  obtain ⟨type, account, found, executes, log, rfl, _⟩ := account_of_data answered
  cases present : account.completed.value? with
  | none => exact fun _ _ _ found => by cases found
  | some value =>
    exact executes.objectsTyped registered position?_join (executes.recorded log) (placed_root found) present

end Schema

end SelectionEngine
