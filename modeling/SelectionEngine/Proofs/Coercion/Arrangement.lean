import SelectionEngine.Proofs.Coercion.Equations
import SelectionEngine.Proofs.Coercion.Idempotence

namespace SelectionEngine

variable {σ : Type} {schema : Schema σ}

/-- Whether two values say the same where a type is expected. Where that is an
input object type, the order of the keys does not count and neither do keys of
no field, and everywhere else nothing may differ. -/
inductive SaysSame (schema : Schema σ) : TypeRef → Value → Value → Prop
  | same (type value) : SaysSame schema type value value
  | list {type inner items others} : type.nullable = .list inner → items.length = others.length →
      (∀ (n : Nat) item other, items[n]? = some item → others[n]? = some other → SaysSame schema inner item other) →
      SaysSame schema type (.list items) (.list others)
  | object {type name input entries others} : type.nullable = .named name →
      schema.lookup? name = some (.inputObject input) →
      (∀ field ∈ input.fields, Entries.contains entries field.name = Entries.contains others field.name) →
      (∀ field ∈ input.fields, ∀ value other, Entries.get? field.name entries = some value →
        Entries.get? field.name others = some other → SaysSame schema field.type value other) →
      SaysSame schema type (.object entries) (.object others)

/-- Whether two objects have values for the same fields, and
those say the same. -/
structure FieldsSaySame (schema : Schema σ) (fields : List ArgumentDef) (entries others : Object) : Prop where
  contains : ∀ field ∈ fields, Entries.contains entries field.name = Entries.contains others field.name
  values : ∀ field ∈ fields, ∀ value other, Entries.get? field.name entries = some value →
    Entries.get? field.name others = some other → SaysSame schema field.type value other

/-- Entries under distinct keys say the same in any order, and whatever there is
under the keys of no field. -/
theorem FieldsSaySame.of_perm {fields : List ArgumentDef} {entries others : Object}
    (distinct : Entries.Distinct entries) (otherDistinct : Entries.Distinct others)
    (perm : (entries.filter fun entry => entry.1 ∈ fields.map ArgumentDef.name).Perm
      (others.filter fun entry => entry.1 ∈ fields.map ArgumentDef.name)) :
    FieldsSaySame schema fields entries others := by
  have same (field : ArgumentDef) (member : field ∈ fields) :
      Entries.get? field.name entries = Entries.get? field.name others := by
    have declared : field.name ∈ fields.map ArgumentDef.name := List.mem_map_of_mem member
    refine Option.ext fun value => ?_
    have mem := (perm.mem_iff : (field.name, value) ∈ _ ↔ _)
    simpa only [List.mem_filter, declared, decide_true, and_true, ← Entries.get?_eq_some_iff distinct,
      ← Entries.get?_eq_some_iff otherDistinct] using mem
  refine ⟨fun field member => by rw [Entries.contains, Entries.contains, same field member],
    fun field member value other given found => ?_⟩
  obtain rfl := Option.some.inj (given.symm.trans ((same field member).trans found))
  exact .same field.type value

theorem FieldsSaySame.object {type : TypeRef} {name : String} {input : InputObjectType} {entries others : Object}
    (same : FieldsSaySame schema input.fields entries others) (named : type.nullable = .named name)
    (found : schema.lookup? name = some (.inputObject input)) :
    SaysSame schema type (.object entries) (.object others) :=
  .object named found same.contains same.values

section

variable {substitute : ArgumentDef → String → Except ArgumentError (Option Value)}

/-- Fields are coerced alike in two objects that have values for the same ones
which are coerced alike. -/
theorem Schema.coerceFields_eq_of_values {fields : List ArgumentDef} {entries others : Object}
    (contains : ∀ field ∈ fields, Entries.contains entries field.name = Entries.contains others field.name)
    (values : ∀ field ∈ fields, ∀ value other, Entries.get? field.name entries = some value →
      Entries.get? field.name others = some other → value.isNull = other.isNull ∧
        ∀ path, schema.coerceGiven substitute value field.type path =
          schema.coerceGiven substitute other field.type path)
    (path : String) :
    coerceFields (fun field path => schema.coerceEntry substitute field path entries) fields path =
      coerceFields (fun field path => schema.coerceEntry substitute field path others) fields path := by
  rw [coerceFields_eq_mapM, coerceFields_eq_mapM]
  congr 1
  refine mapM_congr fun field member => ?_
  have contains := contains field member
  rw [coerceEntry_eq, coerceEntry_eq]
  rw [Entries.contains, Entries.contains] at contains
  cases given : Entries.get? field.name entries with
  | none =>
    cases found : Entries.get? field.name others with
    | none => rfl
    | some other => simp [given, found] at contains
  | some value =>
    cases found : Entries.get? field.name others with
    | none => simp [given, found] at contains
    | some other =>
      obtain ⟨nulls, coerced⟩ := values field member value other given found
      simp only [Schema.fieldOutcome, nulls, coerced]

theorem SaysSame.isNull_eq {type : TypeRef} {value other : Value} (same : SaysSame schema type value other) :
    value.isNull = other.isNull := by
  cases same <;> rfl

/-- What says the same is coerced to the same, or refused for the same reason. -/
theorem SaysSame.coerceGiven_eq {type : TypeRef} {value other : Value} (same : SaysSame schema type value other)
    (path : String) :
    schema.coerceGiven substitute value type path = schema.coerceGiven substitute other type path := by
  induction same generalizing path with
  | same type value => rfl
  | @list type inner items others list length _ ih =>
    rw [Schema.coerceGiven_items _ _ list, Schema.coerceGiven_items _ _ list]
    congr 1
    refine mapM_eq_of_forall₂ (List.forall₂_iff_get.mpr ⟨by simp [length], fun n inItems inOthers => ?_⟩)
    rw [List.length_zipIdx] at inItems inOthers
    simp only [List.get_eq_getElem, List.getElem_zipIdx, Nat.zero_add]
    exact ih n _ _ (List.getElem?_eq_getElem inItems) (List.getElem?_eq_getElem inOthers) _
  | @object type name input entries others named found contains values ih =>
    rw [Schema.coerceGiven_fields _ _ named found, Schema.coerceGiven_fields _ _ named found]
    congr 1
    refine Schema.coerceFields_eq_of_values contains (fun field member value other given found => ?_) path
    exact ⟨(values field member value other given found).isNull_eq, ih field member value other given found⟩

end

/-- Arguments without variables. -/
def literals (given : Object) : Entries String InputValue := given.map fun entry => (entry.1, .value entry.2)

theorem givenArguments_literals (given variableValues : Object) :
    Schema.givenArguments (literals given) variableValues = given := by
  induction given with
  | nil => rfl
  | cons entry rest ih => exact congrArg (entry :: ·) ih

namespace Schema

theorem coerceArguments_literals (schema : Schema σ) {arguments : List ArgumentDef} {given : Object}
    (declared : ∀ key ∈ given.keys, key ∈ arguments.map ArgumentDef.name) (variableValues : Object)
    (label : String) :
    schema.coerceArguments arguments (literals given) variableValues label =
      coerceFields (fun argument path =>
        schema.coerceEntry (substituteDefault schema.coerceValue) argument path given) arguments label := by
  have keys : Entries.keys (literals given) = given.keys := by simp [literals, Entries.keys]
  have known : (Entries.keys (literals given)).find? (fun name =>
      ¬ arguments.any fun argument => argument.name = name) = none := by
    rw [keys, List.find?_eq_none]
    intro key member
    obtain ⟨argument, listed, named⟩ := List.mem_map.mp (declared key member)
    simpa using ⟨argument, listed, named⟩
  simp only [coerceArguments, known, givenArguments_literals]

/-- Arguments that say the same are coerced to the same, in the order of
declaration, or refused for the same reason. The order in which they are given
does not count, nor does that of the keys of input objects or what these hold
under the keys of no field. -/
theorem coerceArguments_eq_of_fieldsSaySame (schema : Schema σ) (arguments : List ArgumentDef)
    (given other : Object) (declared : ∀ key ∈ given.keys, key ∈ arguments.map ArgumentDef.name)
    (otherDeclared : ∀ key ∈ other.keys, key ∈ arguments.map ArgumentDef.name)
    (same : FieldsSaySame schema arguments given other) (variableValues otherVariables : Object) (label : String) :
    schema.coerceArguments arguments (literals given) variableValues label =
      schema.coerceArguments arguments (literals other) otherVariables label := by
  rw [coerceArguments_literals schema declared, coerceArguments_literals schema otherDeclared]
  refine coerceFields_eq_of_values same.contains (fun field member value other given found => ?_) label
  have same := same.values field member value other given found
  exact ⟨same.isNull_eq, same.coerceGiven_eq⟩

def stayArguments : List ArgumentDef := [
  { name := "stay", type := .nonNull (.named "Stay") },
  { name := "notes", type := .list (.builtIn .string) }]

def guestGiven : Object := [("passport", .int 7), ("age", .string "40")]

/-- Wishes have no known fields. -/
def wishesGiven : Value := .object [("late", .string "1"), ("quiet", .bool true)]

def stayOneWay : Object :=
  [("notes", .null), ("stay", .object [("wishes", wishesGiven), ("guests", .list [.object guestGiven, .null])])]

/-- The same with all fields the other way round, and with keys of no field. -/
def stayOtherWay : Object :=
  [("stay", .object [("more", .null),
    ("guests", .list [.object (("shoe", .int 41) :: guestGiven.reverse), .null]), ("wishes", wishesGiven)]),
    ("notes", .null)]

theorem fieldsSaySame_stay : FieldsSaySame staySchema stayArguments stayOneWay stayOtherWay := by
  have guest : SaysSame staySchema (.named "Guest") (.object guestGiven)
      (.object (("shoe", .int 41) :: guestGiven.reverse)) :=
    FieldsSaySame.object (.of_perm (by decide) (by decide) (by decide)) rfl rfl
  have guests : SaysSame staySchema (.list (.named "Guest")) (.list [.object guestGiven, .null])
      (.list [.object (("shoe", .int 41) :: guestGiven.reverse), .null]) := by
    refine .list rfl rfl ?_
    rintro (_ | _ | _) item other ⟨⟩ ⟨⟩
    · exact guest
    · exact .same _ _
  have stay : SaysSame staySchema (.nonNull (.named "Stay"))
      (.object [("wishes", wishesGiven), ("guests", .list [.object guestGiven, .null])])
      (.object [("more", .null), ("guests", .list [.object (("shoe", .int 41) :: guestGiven.reverse), .null]),
        ("wishes", wishesGiven)]) := by
    refine .object rfl rfl (by decide) ?_
    intro field member value other given found
    rcases member with _ | ⟨_, _ | ⟨_, _ | ⟨_, _ | ⟨_, ⟨⟩⟩⟩⟩⟩
    · cases given
    · obtain rfl := Option.some.inj given
      obtain rfl := Option.some.inj found
      exact guests
    · obtain rfl := Option.some.inj given
      obtain rfl := Option.some.inj found
      exact .same _ _
    · cases given
  refine ⟨by decide, fun field member value other given found => ?_⟩
  rcases member with _ | ⟨_, _ | ⟨_, ⟨⟩⟩⟩
  · obtain rfl := Option.some.inj given
    obtain rfl := Option.some.inj found
    exact stay
  · obtain rfl := Option.some.inj given
    obtain rfl := Option.some.inj found
    exact .same _ _

theorem coerceArguments_eq_of_fieldsSaySame_stay :
    (∀ key ∈ stayOneWay.keys, key ∈ stayArguments.map ArgumentDef.name) ∧
    (∀ key ∈ stayOtherWay.keys, key ∈ stayArguments.map ArgumentDef.name) ∧
    FieldsSaySame staySchema stayArguments stayOneWay stayOtherWay ∧
    staySchema.coerceArguments stayArguments (literals stayOneWay) [] "price" =
      staySchema.coerceArguments stayArguments (literals stayOtherWay) [] "price" ∧
    staySchema.coerceArguments stayArguments (literals stayOtherWay) [] "price" = .ok [
      ("stay", .object [("nights", .int 2),
        ("guests", .list [.object [("age", .int 40), ("weight", .null), ("passport", .string "7")], .null]),
        ("wishes", wishesGiven)]), ("notes", .null)] := by
  have declared : ∀ key ∈ stayOneWay.keys, key ∈ stayArguments.map ArgumentDef.name := by decide
  have otherDeclared : ∀ key ∈ stayOtherWay.keys, key ∈ stayArguments.map ArgumentDef.name := by decide
  have same := coerceArguments_eq_of_fieldsSaySame staySchema stayArguments stayOneWay stayOtherWay declared
    otherDeclared fieldsSaySame_stay [] [] "price"
  exact ⟨declared, otherDeclared, fieldsSaySame_stay, same, by decide +kernel⟩

end Schema

end SelectionEngine
