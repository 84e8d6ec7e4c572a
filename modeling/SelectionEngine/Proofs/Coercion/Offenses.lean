import SelectionEngine.Proofs.Coercion.Endless
import SelectionEngine.Proofs.Coercion.Idempotence

namespace SelectionEngine

variable {σ : Type}

/-- A step from a value to one of its parts: to an item of a list, or to a field
of an input object, which also has an index in the order of declaration. -/
inductive InputStep where
  | item (index : Nat)
  | field (index : Nat) (name : String)

namespace InputStep

def index : InputStep → Nat
  | item index | field index _ => index

def text : InputStep → String
  | item index => s!"[{index}]"
  | field _ name => "." ++ name

/-- The path of a part, from that of the whole. -/
def placeOf (path : String) (steps : List InputStep) : String :=
  steps.foldl (fun place step => place ++ step.text) path

/-- Whether some steps lead to a part that comes before the one to which others
lead. Neither lies in the other. -/
inductive Before : List InputStep → List InputStep → Prop
  | here {one other : InputStep} {steps others} : one.index < other.index → Before (one :: steps) (other :: others)
  | inside (step) {steps others} : Before steps others → Before (step :: steps) (step :: others)

end InputStep

/-- A place in a value that is coerced, with what is declared for it.
The value as a whole and the items of lists have no default, and a field
may be without a value. -/
structure InputPosition where
  type : TypeRef
  default : Option Value
  given? : Option Value

namespace Schema

/-- The parts of what is given at a position, each at the step
that leads to it. -/
inductive PartAt (schema : Schema σ) : InputPosition → InputStep → InputPosition → Prop
  | item {type inner default items n item} : type.nullable = .list inner → items[n]? = some item →
      PartAt schema ⟨type, default, some (.list items)⟩ (.item n) ⟨inner, none, some item⟩
  | field {type name input default entries i} {field : ArgumentDef} : type.nullable = .named name →
      schema.lookup? name = some (.inputObject input) → input.fields[i]? = some field →
      PartAt schema ⟨type, default, some (.object entries)⟩ (.field i field.name)
        ⟨field.type, field.default, Entries.get? field.name entries⟩

/-- The positions to which steps lead from one of them. -/
inductive Leads (schema : Schema σ) : InputPosition → List InputStep → InputPosition → Prop
  | here (position) : Leads schema position [] position
  | onward {position part target step steps} : PartAt schema position step part → Leads schema part steps target →
      Leads schema position (step :: steps) target

/-- Coerces what is given at a position. The default stands in for what is
absent, and for a null where there must be none. -/
def coerceAt (schema : Schema σ) (position : InputPosition) (path : String) :
    Except ArgumentError (Option Value) :=
  fieldOutcome (substituteDefault schema.coerceValue ⟨"", position.type, position.default⟩ path)
    (fun value => schema.coerceValue value position.type path) position.type position.given?

variable {schema : Schema σ}

/-- A step leads to one part. -/
theorem PartAt.unique {position one other : InputPosition} {step : InputStep}
    (toOne : schema.PartAt position step one) (toOther : schema.PartAt position step other) : one = other := by
  cases toOne with
  | item list atIndex =>
    cases toOther with
    | item list' atIndex' =>
      obtain rfl := TypeRef.list.inj (list.symm.trans list')
      obtain rfl := Option.some.inj (atIndex.symm.trans atIndex')
      rfl
  | field named found atIndex =>
    generalize same : InputStep.field _ _ = step at toOther
    cases toOther with
    | field named' found' atIndex' =>
      obtain ⟨rfl, _⟩ := InputStep.field.inj same
      obtain rfl := TypeRef.named.inj (named.symm.trans named')
      obtain rfl := TypeDef.inputObject.inj (Option.some.inj (found.symm.trans found'))
      obtain rfl := Option.some.inj (atIndex.symm.trans atIndex')
      rfl

/-- Where there is no default, a position is coerced as its value is. -/
theorem coerceAt_value (type : TypeRef) (value : Value) (path : String) :
    schema.coerceAt ⟨type, none, some value⟩ path = (schema.coerceValue value type path).map some := by
  by_cases null : value = .null
  · rw [null, coerceAt, fieldOutcome_null, coerceValue, coerceWithin, coerceGiven_null, substituteDefault]
    cases type.isNonNull <;> rfl
  · exact fieldOutcome_present null

/-- What stands in for an absent value is the same inside of a
coercion as outside. -/
theorem coerceEntry_eq_coerceAt (valid : schema.validate = .ok ()) {name : String} {input : InputObjectType}
    (found : schema.lookup? name = some (.inputObject input)) {field : ArgumentDef} (member : field ∈ input.fields)
    (entries : Object) (path : String) :
    schema.coerceEntry (substituteDefault (schema.coerceWithin schema.defaultCount)) field path entries =
      schema.coerceAt ⟨field.type, field.default, Entries.get? field.name entries⟩ path := by
  have substitute : substituteDefault (schema.coerceWithin schema.defaultCount) field path =
      substituteDefault schema.coerceValue ⟨"", field.type, field.default⟩ path := by
    simp only [substituteDefault]
    cases given : field.default with
    | none => rfl
    | some value =>
      have ends := settles_of_validate valid found member value given path
      simp only [coerceValue_eq_of_coerceWithin ends]
  rw [coerceEntry_eq, substitute]
  rfl

section

variable {type : TypeRef} {default : Option Value}

theorem coerceAt_present {value : Value} (present : value ≠ .null) (path : String) :
    schema.coerceAt ⟨type, default, some value⟩ path = (schema.coerceValue value type path).map some :=
  fieldOutcome_present present

theorem coerceAt_whole {value : Value} (present : value ≠ .null) (whole : schema.IsWhole type value)
    (path : String) :
    schema.coerceAt ⟨type, default, some value⟩ path = (schema.coerceWhole type.nullable value path).map some := by
  rw [coerceAt_present present, coerceValue, coerceWithin, coerceGiven_whole _ _ present whole]

theorem coerceAt_items {inner : TypeRef} (list : type.nullable = .list inner) (items : List Value) (path : String) :
    schema.coerceAt ⟨type, default, some (.list items)⟩ path =
      (items.zipIdx.mapM fun entry =>
        schema.coerceValue entry.1 inner (path ++ (InputStep.item entry.2).text)).map (some ∘ .list) := by
  have place (n : Nat) : s!"{path}[{n}]" = path ++ (InputStep.item n).text := by
    simp only [InputStep.text, ← String.append_assoc]
    rfl
  simp only [coerceAt_present (Value.list_ne_null items), coerceValue, coerceWithin,
    coerceGiven_items _ _ list, place, map_map]

theorem coerceAt_fields (valid : schema.validate = .ok ()) {name : String} {input : InputObjectType}
    (named : type.nullable = .named name) (found : schema.lookup? name = some (.inputObject input))
    (entries : Object) (path : String) :
    schema.coerceAt ⟨type, default, some (.object entries)⟩ path =
      (input.fields.mapM fun field => schema.coerceAt ⟨field.type, field.default, Entries.get? field.name entries⟩
        (path ++ "." ++ field.name)).map (some ∘ .object ∘ entriesOf input.fields) := by
  rw [coerceAt_present (Value.object_ne_null entries), coerceValue, coerceWithin,
    coerceGiven_fields _ _ named found, coerceFields_eq_mapM, map_map, map_map]
  congr 1
  exact mapM_congr fun field member => coerceEntry_eq_coerceAt valid found member entries _

end

section

variable (valid : schema.validate = .ok ())

include valid

/-- The parts of what is coerced without error are coerced without error. -/
theorem PartAt.coerceAt_eq_ok {position part : InputPosition} {step : InputStep}
    (below : schema.PartAt position step part) {path : String} {outcome : Option Value}
    (coerced : schema.coerceAt position path = .ok outcome) :
    ∃ inner, schema.coerceAt part (path ++ step.text) = .ok inner := by
  cases below with
  | @item type inner default items n item list atIndex =>
    rw [coerceAt_items list] at coerced
    obtain ⟨_, each, _⟩ := map_eq_ok.mp coerced
    have listed : (item, n) ∈ items.zipIdx := List.mem_zipIdx_iff_getElem?.mpr atIndex
    obtain ⟨result, known⟩ := ok_of_mapM each _ listed
    exact ⟨some result, (coerceAt_value ..).trans (congrArg (Except.map some) known)⟩
  | @field type name input default entries i field named found atIndex =>
    rw [coerceAt_fields valid named found] at coerced
    obtain ⟨_, each, _⟩ := map_eq_ok.mp coerced
    obtain ⟨inner, known⟩ := ok_of_mapM each _ (List.mem_of_getElem? atIndex)
    exact ⟨inner, by rw [InputStep.text, ← String.append_assoc]; exact known⟩

theorem Leads.coerceAt_eq_ok {position target : InputPosition} {steps : List InputStep}
    (leads : schema.Leads position steps target) {path : String} {outcome : Option Value}
    (coerced : schema.coerceAt position path = .ok outcome) :
    ∃ inner, schema.coerceAt target (InputStep.placeOf path steps) = .ok inner := by
  induction leads generalizing path outcome with
  | here position => exact ⟨outcome, coerced⟩
  | onward below _ ih =>
    obtain ⟨inner, coerced⟩ := below.coerceAt_eq_ok valid coerced
    exact ih coerced

end

/-- Whether an error is about a position as a whole, and not about one of its
parts: there must be a value and there is neither one nor a default, or the
value is not of the type. -/
inductive Refused : InputPosition → String → ArgumentError → Prop
  | missing {type given? place} : type.isNonNull = true → given? = none ∨ given? = some .null →
      Refused ⟨type, none, given?⟩ place (.missing place)
  | invalid {type default value place} : value ≠ .null →
      Refused ⟨type, default, some value⟩ place (.invalidValue place type.nullable value)

/-- Whether an error is about the position to which some steps lead, all
positions before it being coerced. -/
structure FirstFault (schema : Schema σ) (position : InputPosition) (path : String) (error : ArgumentError)
    (steps : List InputStep) (fault : InputPosition) : Prop where
  leads : schema.Leads position steps fault
  fails : schema.coerceAt fault (InputStep.placeOf path steps) = .error error
  refused : Refused fault (InputStep.placeOf path steps) error
  before : ∀ earlier other, schema.Leads position earlier other → InputStep.Before earlier steps →
    ∃ outcome, schema.coerceAt other (InputStep.placeOf path earlier) = .ok outcome

namespace FirstFault

variable {position part fault : InputPosition} {path : String} {error : ArgumentError} {step : InputStep}
  {steps : List InputStep}

theorem here (fails : schema.coerceAt position path = .error error) (refused : Refused position path error) :
    schema.FirstFault position path error [] position where
  leads := .here position
  fails := fails
  refused := refused
  before _ _ _ before := by cases before

variable (valid : schema.validate = .ok ())

include valid

theorem onward (below : schema.PartAt position step part)
    (inner : schema.FirstFault part (path ++ step.text) error steps fault)
    (siblings : ∀ other sibling, schema.PartAt position other sibling → other.index < step.index →
      ∃ outcome, schema.coerceAt sibling (path ++ other.text) = .ok outcome) :
    schema.FirstFault position path error (step :: steps) fault where
  leads := .onward below inner.leads
  fails := inner.fails
  refused := inner.refused
  before earlier other leads before := by
    cases before with
    | here less =>
      obtain _ | ⟨sibling, rest⟩ := leads
      obtain ⟨outcome, coerced⟩ := siblings _ _ sibling less
      exact rest.coerceAt_eq_ok valid coerced
    | inside _ before =>
      obtain _ | ⟨sibling, rest⟩ := leads
      obtain rfl := sibling.unique below
      exact inner.before _ _ rest before

variable {type : TypeRef} {default : Option Value}

theorem item {inner : TypeRef} (list : type.nullable = .list inner) {items : List Value} {n : Nat} {item : Value}
    (atIndex : items[n]? = some item)
    (first : schema.FirstFault ⟨inner, none, some item⟩ (path ++ (InputStep.item n).text) error steps fault)
    (before : ∀ m < n, ∀ other, items[m]? = some other →
      ∃ result, schema.coerceValue other inner (path ++ (InputStep.item m).text) = .ok result) :
    schema.FirstFault ⟨type, default, some (.list items)⟩ path error (.item n :: steps) fault := by
  refine first.onward valid (.item list atIndex) fun step sibling below less => ?_
  cases below with
  | @item _ _ _ _ m other list' atOther =>
    obtain rfl := TypeRef.list.inj (list.symm.trans list')
    obtain ⟨result, coerced⟩ := before m less other atOther
    exact ⟨some result, (coerceAt_value ..).trans (congrArg (Except.map some) coerced)⟩

theorem field {name : String} {input : InputObjectType} (named : type.nullable = .named name)
    (found : schema.lookup? name = some (.inputObject input)) {entries : Object} {i : Nat} {field : ArgumentDef}
    (atIndex : input.fields[i]? = some field)
    (first : schema.FirstFault ⟨field.type, field.default, Entries.get? field.name entries⟩
      (path ++ (InputStep.field i field.name).text) error steps fault)
    (before : ∀ j < i, ∀ other, input.fields[j]? = some other →
      ∃ outcome, schema.coerceAt ⟨other.type, other.default, Entries.get? other.name entries⟩
        (path ++ "." ++ other.name) = .ok outcome) :
    schema.FirstFault ⟨type, default, some (.object entries)⟩ path error (.field i field.name :: steps) fault := by
  refine first.onward valid (.field named found atIndex) fun step sibling below less => ?_
  cases below with
  | field named' found' atOther =>
    obtain rfl := TypeRef.named.inj (named.symm.trans named')
    obtain rfl := TypeDef.inputObject.inj (Option.some.inj (found.symm.trans found'))
    rw [InputStep.text, ← String.append_assoc]
    exact before _ less _ atOther

end FirstFault

/-- Whether the type of a position is an input type, of which its default is. -/
structure PositionValid (schema : Schema σ) (position : InputPosition) : Prop where
  type : schema.IsInput position.type
  default : ∀ value, position.default = some value →
    ∃ result, ∀ path, schema.coerceValue value position.type path = .ok result

theorem coerceWhole_eq_error {type : TypeRef} (isInput : schema.IsInput type) {value : Value} {path : String}
    {error : ArgumentError} (failed : schema.coerceWhole type value path = .error error) :
    error = .invalidValue path type value := by
  cases type with
  | builtIn scalar =>
    simp only [coerceWhole] at failed
    split at failed
    · cases failed
    · exact (Except.error.inj failed).symm
  | named name =>
    obtain ⟨target, found, isInput⟩ := isInput
    rw [TypeRef.innerName] at found
    simp only [coerceWhole, found] at failed
    cases target with
    | scalar name => cases failed
    | inputObject input => exact (Except.error.inj failed).symm
    | object type => cases isInput
    | interface type => cases isInput
  | list inner => exact (Except.error.inj failed).symm
  | nonNull inner => exact (Except.error.inj failed).symm

section

variable {type : TypeRef} {default : Option Value} {given? : Option Value} {path : String} {error : ArgumentError}

/-- What stands in for a value is not at fault unless there is
nothing that can. -/
theorem refused_of_substituteDefault (valid : schema.PositionValid ⟨type, default, given?⟩)
    (absent : given? = none ∨ given? = some .null)
    (failed : substituteDefault schema.coerceValue ⟨"", type, default⟩ path = .error error) :
    Refused ⟨type, default, given?⟩ path error := by
  simp only [substituteDefault] at failed
  cases default with
  | some value =>
    obtain ⟨result, coerced⟩ := valid.default value rfl
    simp only [coerced] at failed
    cases failed
  | none =>
    cases strict : type.isNonNull with
    | false => simp [strict] at failed
    | true =>
      simp only [strict, if_true] at failed
      obtain rfl := Except.error.inj failed
      exact .missing strict absent

variable (valid : schema.validate = .ok ())

include valid

/-- Of a value that is not coerced there is a first position at fault, in the
order in which its parts are tried. -/
theorem exists_firstFault (type : TypeRef) (value : Value)
    (position : schema.PositionValid ⟨type, default, some value⟩)
    (failed : schema.coerceAt ⟨type, default, some value⟩ path = .error error) :
    ∃ steps fault, schema.FirstFault ⟨type, default, some value⟩ path error steps fault := by
  induction type, value using schema.byCoercion generalizing default path error with
  | null type =>
    refine ⟨[], _, .here failed (refused_of_substituteDefault position (.inr rfl) ?_)⟩
    rw [coerceAt, fieldOutcome_null] at failed
    split at failed
    · exact failed
    · cases failed
  | whole type value present whole =>
    have wrong := failed
    rw [coerceAt_whole present whole, map_eq_error] at wrong
    obtain rfl := coerceWhole_eq_error position.type.nullable wrong
    exact ⟨[], _, .here failed (.invalid present)⟩
  | items type inner items list ih =>
    rw [coerceAt_items list, map_eq_error] at failed
    obtain ⟨n, entry, listed, failed, before⟩ := first_error_of_mapM failed
    rw [List.getElem?_zipIdx, Nat.zero_add] at listed
    obtain ⟨item, atIndex, rfl⟩ := Option.map_eq_some_iff.mp listed
    have itemFailed : schema.coerceAt ⟨inner, none, some item⟩ (path ++ (InputStep.item n).text) =
        .error error := by
      rw [coerceAt_value, map_eq_error]
      exact failed
    have itemValid : schema.PositionValid ⟨inner, none, some item⟩ := by
      refine ⟨?_, fun value given => by cases given⟩
      rw [IsInput, TypeRef.innerName_of_nullable list]
      exact position.type
    obtain ⟨steps, fault, first⟩ := ih item (List.mem_of_getElem? atIndex) itemValid itemFailed
    refine ⟨_, fault, first.item valid list atIndex fun m less other atOther => ?_⟩
    exact before m less (other, m) (by rw [List.getElem?_zipIdx, atOther]; simp)
  | fields type name input entries named found ih =>
    rw [coerceAt_fields valid named found, map_eq_error] at failed
    obtain ⟨i, field, atIndex, failed, before⟩ := first_error_of_mapM failed
    rw [String.append_assoc] at failed
    have member : field ∈ input.fields := List.mem_of_getElem? atIndex
    have fieldValid : schema.InputValid field := inputValid_of_lookup? valid found member
    have partValid : schema.PositionValid ⟨field.type, field.default, Entries.get? field.name entries⟩ :=
      ⟨fieldValid.type, fun _ => coerceValue_default valid fieldValid⟩
    have inner : ∃ steps fault, schema.FirstFault ⟨field.type, field.default, Entries.get? field.name entries⟩
        (path ++ (InputStep.field i field.name).text) error steps fault := by
      cases given : Entries.get? field.name entries with
      -- the default of an absent field is coerced, so that it is only the lack
      -- of one that can be at fault
      | none =>
        rw [given] at failed partValid
        exact ⟨[], _, .here failed (refused_of_substituteDefault partValid (.inl rfl) failed)⟩
      | some value =>
        rw [given] at failed partValid
        exact ih field member value given partValid failed
    obtain ⟨steps, fault, first⟩ := inner
    exact ⟨_, fault, first.field valid named found atIndex before⟩

end

/-- What is said of a position that is at fault: that a value is missing, or
which value is there in place of which type. -/
def complaint (fault : InputPosition) (place : String) : String :=
  match fault.given? with
  | none | some .null => s!"missing required argument {place}"
  | some value =>
    s!"invalid value for argument {place}: expected type '{fault.type.nullable.text}', got {value.toJson}"

theorem Refused.message_eq {fault : InputPosition} {place : String} {error : ArgumentError}
    (refused : Refused fault place error) : Reportable.message error = complaint fault place := by
  cases refused with
  | missing strict absent => rcases absent with rfl | rfl <;> rfl
  | @invalid type default value place present =>
    cases value with
    | null => exact absurd rfl present
    | _ => rfl

/-- An error of coercion is about the first position at fault. Its path is that
of the whole value, followed by the indices and names that lead to the position,
where there is a value that is not of the type or none without a default, and
each position before it is coerced. -/
theorem coerceValue_error_first (valid : schema.validate = .ok ()) (type : TypeRef) (isInput : schema.IsInput type)
    (value : Value) (path : String) (error : ArgumentError)
    (failed : schema.coerceValue value type path = .error error) :
    ∃ steps fault, schema.FirstFault ⟨type, none, some value⟩ path error steps fault ∧
      Reportable.message error = complaint fault (InputStep.placeOf path steps) := by
  have position : schema.PositionValid ⟨type, none, some value⟩ := ⟨isInput, fun value given => by cases given⟩
  have failedAt : schema.coerceAt ⟨type, none, some value⟩ path = .error error := by
    rw [coerceAt_value, failed]
    rfl
  obtain ⟨steps, fault, first⟩ := exists_firstFault valid type value position failedAt
  exact ⟨steps, fault, first, first.refused.message_eq⟩

/-- Of two guests the second one has no age, which counts although it is the
first field and not the first key. -/
def agelessGiven : Value :=
  .object [("code", .int 1), ("guests", .list [.object [("age", .int 40)],
    .object [("passport", .bool true), ("weight", .null), ("age", .null)]])]

theorem coerceValue_error_first_ageless : staySchema.validate = .ok () ∧
    staySchema.IsInput (.nonNull (.named "Stay")) ∧
    staySchema.coerceValue agelessGiven (.nonNull (.named "Stay")) "stay" = .error (.missing "stay.guests[1].age") ∧
    ∃ steps fault, staySchema.FirstFault ⟨.nonNull (.named "Stay"), none, some agelessGiven⟩ "stay"
        (.missing "stay.guests[1].age") steps fault ∧
      "missing required argument stay.guests[1].age" = complaint fault (InputStep.placeOf "stay" steps) := by
  have valid : staySchema.validate = .ok () := by decide +kernel
  have isInput : staySchema.IsInput (.nonNull (.named "Stay")) := ⟨_, rfl, rfl⟩
  have failed : staySchema.coerceValue agelessGiven (.nonNull (.named "Stay")) "stay" =
      .error (.missing "stay.guests[1].age") := by decide +kernel
  exact ⟨valid, isInput, failed, coerceValue_error_first valid _ isInput _ _ _ failed⟩

end Schema

end SelectionEngine
