import Mathlib.Data.List.Induction
import SelectionEngine.Proofs.Schema.Insertion

namespace SelectionEngine.Schema

variable {σ : Type} {schema : Schema σ}

/-- The schema after an attempt to register a type. A type that is
refused changes nothing. -/
def attempt (schema : Schema σ) (type : TypeDef σ) : Schema σ := (schema.register type).toOption.getD schema

/-- The schema after attempts to register types one after another. -/
def attemptAll (schema : Schema σ) (types : List (TypeDef σ)) : Schema σ := types.foldl attempt schema

theorem attempt_of_ok {type : TypeDef σ} {extended : Schema σ} (accepted : schema.register type = .ok extended) :
    schema.attempt type = extended := by
  rw [attempt, accepted]
  rfl

theorem attempt_of_error {type : TypeDef σ} {fault : SchemaError} (refused : schema.register type = .error fault) :
    schema.attempt type = schema := by
  rw [attempt, refused]
  rfl

theorem attemptAll_concat (schema : Schema σ) (types : List (TypeDef σ)) (last : TypeDef σ) :
    schema.attemptAll (types ++ [last]) = (schema.attemptAll types).attempt last := by
  simp [attemptAll]

theorem Registered.attemptAll {schema : Schema σ} (registered : schema.Registered) (types : List (TypeDef σ)) :
    (schema.attemptAll types).Registered := by
  induction types generalizing schema with
  | nil => exact registered
  | cons type types ih =>
    refine ih ?_
    cases tried : schema.register type with
    | ok extended => exact attempt_of_ok tried ▸ registered.register tried
    | error fault => rwa [attempt_of_error tried]

/-- The resolver that a field of an object type carries. -/
def carried? (schema : Schema σ) (type field : String) : Option (Resolver σ) :=
  match schema.lookup? type with
  | some (.object object) => (object.field? field).bind FieldDef.resolver
  | _ => none

theorem get?_boundFields {fields : List (FieldDef σ)} (distinct : (fields.map FieldDef.name).Nodup)
    (name : String) :
    Entries.get? name (boundFields fields) =
      (fields.find? fun field => field.name = name).bind FieldDef.resolver := by
  induction fields with
  | nil => rfl
  | cons field fields ih =>
    obtain ⟨absent, others⟩ := List.nodup_cons.mp distinct
    specialize ih others
    by_cases here : field.name = name
    · -- the later fields have other names
      have later : fields.find? (fun field => field.name = name) = none := by
        refine List.find?_eq_none.mpr fun other member same => absent ?_
        exact List.mem_map.mpr ⟨other, member, (of_decide_eq_true same).trans here.symm⟩
      rw [later] at ih
      rw [List.find?_cons_of_pos (by simpa using here), Option.bind_some]
      cases bound : field.resolver with
      | none => simpa [boundFields, bound] using ih
      | some resolver => simp [boundFields, bound, Entries.get?, here]
    · rw [List.find?_cons_of_neg (by simpa using here), ← ih]
      cases bound : field.resolver with
      | none => simp [boundFields, bound]
      | some resolver => simp [boundFields, bound, Entries.get?, here]

theorem resolver?_insert (type : TypeDef σ) (name field : String) :
    (schema.insert type).resolver? name field =
      match type with
      | .object object =>
        if object.name = name then Entries.get? field (boundFields object.fields) else schema.resolver? name field
      | _ => schema.resolver? name field := by
  cases type with
  | object object =>
    simp only [resolver?, insert, Entries.get?_set]
    split <;> rfl
  | _ => rfl

namespace Registered

theorem types_distinct {schema : Schema σ} (registered : schema.Registered) : Entries.Distinct schema.types := by
  induction registered with
  | empty =>
    have names : (BuiltIn.all.map BuiltIn.name).Nodup := by decide
    exact names
  | @register schema _ type _ accepted ih =>
    obtain ⟨_, _, rfl⟩ := register_eq_ok accepted
    cases type <;> exact Entries.distinct_set ih _ _
  | setRootType kind root _ ih => cases kind <;> exact ih

theorem resolver?_eq_carried? {schema : Schema σ} (registered : schema.Registered) (name field : String) :
    schema.resolver? name field = schema.carried? name field := by
  induction registered with
  | empty =>
    simp only [carried?]
    split
    · next object found =>
      obtain ⟨_, _, same⟩ := List.mem_map.mp (Entries.mem_of_get? found)
      cases same
    · rfl
  | @register schema _ type _ accepted ih =>
    obtain ⟨fresh, checked, rfl⟩ := register_eq_ok accepted
    rw [resolver?_insert, carried?, lookup?_insert]
    by_cases here : type.name = name
    · -- nothing was kept under the name before
      have before : schema.resolver? name field = none := by rw [ih, carried?, ← here, fresh]
      rw [if_pos here]
      cases type with
      | object object =>
        have formed := (check_eq_ok.mp checked).1
        exact (if_pos here).trans (get?_boundFields formed.fields field)
      | _ => exact before
    · rw [if_neg here]
      cases type with
      | object object => exact (if_neg here).trans ih
      | _ => exact ih
  | setRootType kind root _ ih =>
    rw [carried?, lookup?_setRootType]
    cases kind <;> exact ih

theorem listed {schema : Schema σ} (registered : schema.Registered) {name : String} {object : ObjectType σ}
    (found : schema.lookup? name = some (.object object)) {interface : String}
    (declared : interface ∈ object.interfaces) : name ∈ schema.implementorsOf interface := by
  induction registered with
  | empty =>
    obtain ⟨_, _, same⟩ := List.mem_map.mp (Entries.mem_of_get? found)
    cases same
  | register _ accepted ih =>
    obtain ⟨_, _, rfl⟩ := register_eq_ok accepted
    rw [lookup?_insert] at found
    split at found
    · next here =>
      cases found
      exact mem_implementorsOf_insert.mpr (.inr ⟨object, rfl, here.symm, declared⟩)
    · exact mem_implementorsOf_insert.mpr (.inl (ih found))
  | setRootType kind root _ ih =>
    rw [implementorsOf_setRootType]
    exact ih (by rwa [lookup?_setRootType] at found)

theorem mem_implementorsOf_iff {schema : Schema σ} (registered : schema.Registered) {name : String}
    {object : ObjectType σ} (found : schema.lookup? name = some (.object object)) {interface : String} :
    name ∈ schema.implementorsOf interface ↔ interface ∈ object.interfaces := by
  refine ⟨fun listed => ?_, registered.listed found⟩
  obtain ⟨type, same, declared⟩ := registered.declares_of_implementor listed
  rw [found] at same
  cases same
  exact declared

end Registered

/-- What a schema keeps beside its types agrees with them. -/
structure Coherent (schema : Schema σ) : Prop where
  distinct : Entries.Distinct schema.types
  named : ∀ entry ∈ schema.types, entry.2.name = entry.1
  implementor : ∀ {interface name}, name ∈ schema.implementorsOf interface → ∃ object type,
    schema.lookup? name = some (.object object) ∧ interface ∈ object.interfaces ∧
    schema.lookup? interface = some (.interface type) ∧
    ∀ expected ∈ type.fields, ∃ field, object.field? expected.name = some field ∧ field.type = expected.type
  listed : ∀ {name object}, schema.lookup? name = some (.object object) →
    ∀ interface ∈ object.interfaces, name ∈ schema.implementorsOf interface
  subtype : ∀ {name object}, schema.lookup? name = some (.object object) →
    ∀ condition, schema.isSubtype condition name = true ↔ condition = name ∨ condition ∈ object.interfaces
  resolver : ∀ name field, schema.resolver? name field = schema.carried? name field

theorem Registered.coherent {schema : Schema σ} (registered : schema.Registered) : schema.Coherent where
  distinct := registered.types_distinct
  named := by
    rw [registered.types_eq]
    exact List.forall_mem_append.mpr
      ⟨List.forall_mem_map.mpr fun _ _ => rfl, List.forall_mem_map.mpr fun _ _ => rfl⟩
  implementor := by
    intro interface name listed
    obtain ⟨object, found, declared⟩ := registered.declares_of_implementor listed
    obtain ⟨type, known, fields⟩ := implementationFault?_eq_none.mp (registered.implements found declared)
    exact ⟨object, type, found, declared, known, fields⟩
  listed := fun found _ => registered.listed found
  subtype := by
    intro name object found condition
    rw [isSubtype, decide_eq_true_iff, registered.mem_implementorsOf_iff found]
  resolver := registered.resolver?_eq_carried?

/-- Whether at some time there was the interface and no type of
the other name yet. -/
def RegisteredBefore (attempted : List (TypeDef σ)) (interface name : String) : Prop :=
  ∃ earlier later type, attempted = earlier ++ later ∧
    (empty.attemptAll earlier).lookup? interface = some (.interface type) ∧
    (empty.attemptAll earlier).lookup? name = none

theorem RegisteredBefore.concat {attempted : List (TypeDef σ)} {interface name : String}
    (before : RegisteredBefore attempted interface name) (last : TypeDef σ) :
    RegisteredBefore (attempted ++ [last]) interface name := by
  obtain ⟨earlier, later, type, rfl, before⟩ := before
  exact ⟨earlier, later ++ [last], type, List.append_assoc _ _ _, before⟩

theorem registeredBefore_of_listed {attempted : List (TypeDef σ)} {interface name : String}
    (listed : name ∈ (empty.attemptAll attempted).implementorsOf interface) :
    RegisteredBefore attempted interface name := by
  -- the attempt that lists the name is one whose check finds the interface
  induction attempted using List.reverseRecOn with
  | nil => cases listed
  | append_singleton types last ih =>
    rw [attemptAll_concat] at listed
    cases tried : (empty.attemptAll types).register last with
    | error fault =>
      rw [attempt_of_error tried] at listed
      exact (ih listed).concat last
    | ok extended =>
      rw [attempt_of_ok tried] at listed
      obtain ⟨fresh, checked, rfl⟩ := register_eq_ok tried
      rcases mem_implementorsOf_insert.mp listed with known | ⟨object, rfl, rfl, declared⟩
      · exact (ih known).concat last
      · have implements := (check_eq_ok.mp checked).2 object rfl interface declared
        obtain ⟨type, found, _⟩ := implementationFault?_eq_none.mp implements
        exact ⟨types, [.object object], type, rfl, found, fresh⟩

/-- Whatever types are registered or refused, what a schema keeps beside its
types agrees with them, and interfaces are registered before the object types
that are listed under them. -/
theorem coherent_attemptAll (attempted : List (TypeDef σ)) : (empty.attemptAll attempted).Coherent ∧
    ∀ interface, ∀ name ∈ (empty.attemptAll attempted).implementorsOf interface,
      RegisteredBefore attempted interface name :=
  ⟨(Registered.empty.attemptAll attempted).coherent, fun _ _ => registeredBefore_of_listed⟩

end SelectionEngine.Schema
