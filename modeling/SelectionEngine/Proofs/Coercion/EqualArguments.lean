import SelectionEngine.Proofs.Coercion.Equations
import SelectionEngine.Proofs.Coercion.Substitution
import SelectionEngine.Proofs.Outcomes

namespace SelectionEngine

variable {σ : Type}

/-- Equality of values. The order of the keys of an object does not count, nor
does the sign of zero. -/
inductive Value.Equal : Value → Value → Prop
  | refl (value) : Equal value value
  | number {one other : Double} : one.sameNumber other → Equal (.double one) (.double other)
  | list {items others : List Value} : items.length = others.length →
      (∀ (n : Nat) item other, items[n]? = some item → others[n]? = some other → Equal item other) →
      Equal (.list items) (.list others)
  | object {entries others : Object} : (∀ key, entries.contains key = others.contains key) →
      (∀ key value other, Entries.get? key entries = some value → Entries.get? key others = some other →
        Equal value other) →
      Equal (.object entries) (.object others)

/-- Equality of what is given for arguments. An object whose keys are distinct
can have them in any order. -/
inductive InputValue.Equal : InputValue → InputValue → Prop
  | refl (input) : Equal input input
  | value {value other : Value} : value.Equal other → Equal (.value value) (.value other)
  | list {items others : List InputValue} : items.length = others.length →
      (∀ (n : Nat) item other, items[n]? = some item → others[n]? = some other → Equal item other) →
      Equal (.list items) (.list others)
  | object {entries others : Entries String InputValue} : entries.Distinct → others.Distinct →
      (∀ key, entries.contains key = others.contains key) →
      (∀ key input other, Entries.get? key entries = some input → Entries.get? key others = some other →
        Equal input other) →
      Equal (.object entries) (.object others)

theorem InputValue.Equal.of_perm {entries others : Entries String InputValue} (distinct : entries.Distinct)
    (perm : entries.Perm others) : InputValue.Equal (.object entries) (.object others) := by
  have same (key : String) : Entries.get? key entries = Entries.get? key others :=
    Entries.get?_of_perm distinct perm key
  refine .object distinct ((perm.map Prod.fst).nodup_iff.mp distinct)
    (fun key => ?_) fun key input other found found' => ?_
  · rw [Entries.contains, Entries.contains, same]
  · obtain rfl := Option.some.inj (found.symm.trans ((same key).trans found'))
    exact .refl input

theorem Value.Equal.isNull_eq {value other : Value} (same : value.Equal other) : value.isNull = other.isNull := by
  cases same <;> rfl

/-- The built-in scalars have inputs in the place of each other for
values that are equal. -/
theorem Value.Equal.isSome_coerce? {value other : Value} (same : value.Equal other) (scalar : BuiltIn) :
    (scalar.coerce? value).isSome = (scalar.coerce? other).isSome := by
  cases same with
  | refl => rfl
  | _ => cases scalar <;> rfl

theorem Value.Equal.object_of_rel {entries others : Object}
    (parts : ∀ key, Option.Rel Value.Equal (Entries.get? key entries) (Entries.get? key others)) :
    Value.Equal (.object entries) (.object others) := by
  refine .object (fun key => ?_) fun key value other found found' => ?_
  · have same := parts key
    rw [Entries.contains, Entries.contains]
    revert same
    generalize Entries.get? key entries = value?, Entries.get? key others = other?
    rintro (_ | _) <;> rfl
  · have same := parts key
    rw [found, found'] at same
    cases same with
    | some same => exact same

theorem rel_bind {α β γ δ : Type} {R : α → β → Prop} {S : γ → δ → Prop} {a? : Option α} {b? : Option β}
    {f : α → Option γ} {g : β → Option δ} (related : Option.Rel R a? b?)
    (each : ∀ {a b}, R a b → Option.Rel S (f a) (g b)) : Option.Rel S (a?.bind f) (b?.bind g) := by
  cases related with
  | none => exact .none
  | some both => exact each both

section

variable {variableValues : Object}

/-- Substitution keeps entries with distinct keys apart. -/
theorem InputValue.get?_substituted {entries : Entries String InputValue} (distinct : entries.Distinct)
    (key : String) :
    Entries.get? key (Entries.ofList (substituteEntries variableValues entries)) =
      (Entries.get? key entries).bind (substitute? variableValues) := by
  rw [substituteEntries_eq_filterMap, Entries.ofList_of_distinct]
  · exact Entries.get?_filterMap _ distinct key
  · exact (Entries.keys_filterMap_sublist _ entries).nodup distinct

theorem InputValue.Equal.rel_substitute? {input other : InputValue} (same : input.Equal other) :
    Option.Rel Value.Equal (input.substitute? variableValues) (other.substitute? variableValues) := by
  induction same with
  | refl input =>
    cases input.substitute? variableValues with
    | none => exact .none
    | some value => exact .some (.refl value)
  | value same => exact .some same
  | @list items others length _ ih =>
    refine .some (.list (by simp only [substituteItems_eq_map, List.length_map, length]) ?_)
    intro n value value' atIndex atOther
    rw [substituteItems_eq_map, List.getElem?_map] at atIndex atOther
    obtain ⟨item, found, rfl⟩ := Option.map_eq_some_iff.mp atIndex
    obtain ⟨other, found', rfl⟩ := Option.map_eq_some_iff.mp atOther
    have same := ih n item other found found'
    revert same
    generalize item.substitute? variableValues = value?, other.substitute? variableValues = other?
    rintro (same | _)
    · exact same
    · exact .refl _
  | @object entries others distinct otherDistinct contains _ ih =>
    have parts (key : String) : Option.Rel Value.Equal
        (Entries.get? key (Entries.ofList (substituteEntries variableValues entries)))
        (Entries.get? key (Entries.ofList (substituteEntries variableValues others))) := by
      rw [InputValue.get?_substituted distinct, InputValue.get?_substituted otherDistinct]
      exact rel_bind (Entries.rel_get? (contains key) (ih key)) fun same => same
    exact .some (.object_of_rel parts)

end

namespace Schema

variable {schema : Schema σ} {substitute : ArgumentDef → String → Except ArgumentError (Option Value)}

theorem coerceWhole_accepts {value other : Value} (same : value.Equal other) {type : TypeRef} {path : String}
    (accepted : ∃ coerced, schema.coerceWhole type value path = .ok coerced) :
    ∃ coerced, schema.coerceWhole type other path = .ok coerced := by
  obtain ⟨coerced, accepted⟩ := accepted
  cases type with
  | builtIn scalar =>
    have leaf := same.isSome_coerce? scalar
    simp only [coerceWhole] at accepted ⊢
    cases given : scalar.coerce? value with
    | none => simp [given] at accepted
    | some _ =>
      obtain ⟨result, found⟩ := Option.isSome_iff_exists.mp (leaf.symm.trans (by rw [given]; rfl))
      exact ⟨result, by rw [found]⟩
  | named name =>
    simp only [coerceWhole] at accepted ⊢
    split at accepted
    · exact ⟨other, rfl⟩
    · cases accepted
    · cases accepted
  | _ => cases accepted

theorem fieldOutcome_accepts {absent : Except ArgumentError (Option Value)}
    {coerce : Value → Except ArgumentError Value} {type : TypeRef} {given? other? : Option Value}
    (same : Option.Rel Value.Equal given? other?)
    (values : ∀ value other, given? = some value → other? = some other →
      (∃ coerced, coerce value = .ok coerced) → ∃ coerced, coerce other = .ok coerced)
    (accepted : ∃ outcome, fieldOutcome absent coerce type given? = .ok outcome) :
    ∃ outcome, fieldOutcome absent coerce type other? = .ok outcome := by
  cases same with
  | none => exact accepted
  | @some value other same =>
    simp only [fieldOutcome, same.isNull_eq] at accepted ⊢
    split
    · next null => simpa only [null, if_true] using accepted
    · next present =>
      obtain ⟨outcome, accepted⟩ := accepted
      rw [if_neg present] at accepted
      obtain ⟨coerced, accepted, _⟩ := map_eq_ok.mp accepted
      obtain ⟨result, found⟩ := values value other rfl rfl ⟨coerced, accepted⟩
      exact ⟨some result, by rw [found]; rfl⟩

/-- Fields are accepted if each of them is. -/
theorem coerceFields_accepts {coerceField otherField : ArgumentDef → String → Except ArgumentError (Option Value)}
    {fields : List ArgumentDef} {path : String}
    (each : ∀ field ∈ fields, ∀ path, (∃ outcome, coerceField field path = .ok outcome) →
      ∃ outcome, otherField field path = .ok outcome)
    (accepted : ∃ coerced, coerceFields coerceField fields path = .ok coerced) :
    ∃ coerced, coerceFields otherField fields path = .ok coerced := by
  obtain ⟨coerced, accepted⟩ := accepted
  rw [coerceFields_eq_mapM] at accepted ⊢
  obtain ⟨outcomes, accepted, _⟩ := map_eq_ok.mp accepted
  obtain ⟨results, found⟩ := exists_mapM_eq_ok fun field member =>
    each field member _ (ok_of_mapM accepted field member)
  exact ⟨entriesOf fields results, by rw [found]; rfl⟩

/-- What is equal to something that is accepted is accepted itself. -/
theorem coerceGiven_accepts {value other : Value} (same : value.Equal other) (type : TypeRef) (path : String)
    (accepted : ∃ coerced, schema.coerceGiven substitute value type path = .ok coerced) :
    ∃ coerced, schema.coerceGiven substitute other type path = .ok coerced := by
  induction same generalizing type path with
  | refl value => exact accepted
  | number same =>
    simp only [coerceGiven] at accepted ⊢
    exact coerceWhole_accepts (.number same) accepted
  | @list items others length each ih =>
    by_cases list : ∃ inner, type.nullable = .list inner
    · obtain ⟨inner, list⟩ := list
      obtain ⟨coerced, accepted⟩ := accepted
      rw [coerceGiven_items _ _ list] at accepted ⊢
      obtain ⟨outcomes, accepted, _⟩ := map_eq_ok.mp accepted
      have coercible (entry : Value × Nat) (member : entry ∈ others.zipIdx) :
          ∃ coerced, schema.coerceGiven substitute entry.1 inner s!"{path}[{entry.2}]" = .ok coerced := by
        have atOther : others[entry.2]? = some entry.1 := List.mem_zipIdx_iff_getElem?.mp member
        have bound : entry.2 < items.length := length ▸ (List.getElem?_eq_some_iff.mp atOther).1
        have atIndex : items[entry.2]? = some items[entry.2] := List.getElem?_eq_getElem bound
        exact ih entry.2 _ _ atIndex atOther inner _
          (ok_of_mapM accepted (items[entry.2], entry.2) (List.mem_zipIdx_iff_getElem?.mpr atIndex))
      obtain ⟨results, found⟩ := exists_mapM_eq_ok coercible
      exact ⟨.list results, by rw [found]; rfl⟩
    · have whole (items : List Value) : schema.IsWhole type (.list items) :=
        ⟨fun inner _ known => absurd ⟨inner, known⟩ list, by simp⟩
      rw [coerceGiven_whole _ _ (Value.list_ne_null _) (whole _)] at accepted ⊢
      exact coerceWhole_accepts (.list length each) accepted
  | @object entries others contains values ih =>
    by_cases input : ∃ name input, type.nullable = .named name ∧ schema.lookup? name = some (.inputObject input)
    · obtain ⟨name, input, named, found⟩ := input
      obtain ⟨coerced, accepted⟩ := accepted
      rw [coerceGiven_fields _ _ named found] at accepted ⊢
      obtain ⟨fields, accepted, _⟩ := map_eq_ok.mp accepted
      have each (field : ArgumentDef) (path : String)
          (accepted : ∃ outcome, schema.coerceEntry substitute field path entries = .ok outcome) :
          ∃ outcome, schema.coerceEntry substitute field path others = .ok outcome := by
        rw [coerceEntry_eq] at accepted ⊢
        exact fieldOutcome_accepts (Entries.rel_get? (contains field.name) (values field.name))
          (fun value other given found => ih field.name value other given found field.type path) accepted
      obtain ⟨results, found⟩ := coerceFields_accepts (fun field _ => each field) ⟨fields, accepted⟩
      exact ⟨.object results, by rw [found]; rfl⟩
    · have whole (entries : Object) : schema.IsWhole type (.object entries) :=
        ⟨by simp, fun name known _ named found => absurd ⟨name, known, named, found⟩ input⟩
      rw [coerceGiven_whole _ _ (Value.object_ne_null _) (whole _)] at accepted ⊢
      exact coerceWhole_accepts (.object contains values) accepted

theorem coerceArguments_accepted_iff {arguments : List ArgumentDef} {given : Entries String InputValue}
    {variableValues : Object} {label : String} :
    (∃ coerced, schema.coerceArguments arguments given variableValues label = .ok coerced) ↔
      (∀ key, given.contains key → key ∈ arguments.map ArgumentDef.name) ∧
      ∃ coerced, coerceFields (fun argument path =>
        schema.coerceEntry (substituteDefault schema.coerceValue) argument path
          (givenArguments given variableValues)) arguments label = .ok coerced := by
  simp only [coerceArguments, Entries.contains_iff_mem_keys]
  cases unknown : (Entries.keys given).find? fun name => ¬ arguments.any fun argument => argument.name = name with
  | none =>
    refine (and_iff_right fun key member => ?_).symm
    have declared := List.find?_eq_none.mp unknown key member
    simpa using declared
  | some name =>
    refine iff_of_false (by simp) fun accepted => ?_
    have stray := List.find?_some unknown
    have known := accepted.1 name (List.mem_of_find?_eq_some unknown)
    simp at stray known
    tauto

/-- Arguments are accepted if equal ones are. -/
theorem coerceArguments_accepts {given other : Entries String InputValue}
    (same : InputValue.Equal (.object given) (.object other)) {arguments : List ArgumentDef}
    {variableValues : Object}
    {label : String}
    (accepted : ∃ coerced, schema.coerceArguments arguments given variableValues label = .ok coerced) :
    ∃ coerced, schema.coerceArguments arguments other variableValues label = .ok coerced := by
  cases same with
  | refl => exact accepted
  | object distinct otherDistinct contains values =>
    rw [coerceArguments_accepted_iff] at accepted ⊢
    obtain ⟨declared, accepted⟩ := accepted
    refine ⟨fun key present => declared key (by rw [contains, present]), coerceFields_accepts ?_ accepted⟩
    intro argument _ path accepted
    rw [coerceEntry_eq] at accepted ⊢
    have parts : Option.Rel Value.Equal (Entries.get? argument.name (givenArguments given variableValues))
        (Entries.get? argument.name (givenArguments other variableValues)) := by
      rw [givenArguments, givenArguments, Entries.get?_filterMap _ distinct, Entries.get?_filterMap _ otherDistinct]
      exact rel_bind (Entries.rel_get? (contains _) (values _)) InputValue.Equal.rel_substitute?
    refine fieldOutcome_accepts parts (fun value other found found' => ?_) accepted
    rw [found, found'] at parts
    cases parts with
    | some same => exact coerceGiven_accepts same argument.type path

end Schema

end SelectionEngine
