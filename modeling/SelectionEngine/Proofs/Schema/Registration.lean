import Mathlib.Data.List.Basic
import SelectionEngine.Execution.Run
import SelectionEngine.Proofs.Entries
import SelectionEngine.Schema.Registry

namespace SelectionEngine

namespace Schema

variable {σ : Type}

/-- The schemas that come about by registering types one after another
and naming root types. -/
inductive Registered : Schema σ → Prop
  | empty : Registered .empty
  | register {schema extended : Schema σ} {type : TypeDef σ} :
      Registered schema → schema.register type = .ok extended → Registered extended
  | setRootType {schema : Schema σ} (kind : OperationKind) (name : String) :
      Registered schema → Registered (schema.setRootType kind name)

theorem register_eq_ok {schema extended : Schema σ} {type : TypeDef σ}
    (accepted : schema.register type = .ok extended) :
    schema.lookup? type.name = none ∧ schema.check type = .ok () ∧ extended = schema.insert type := by
  simp only [register] at accepted
  split at accepted
  · cases accepted
  · next absent =>
    cases checked : schema.check type with
    | error error => simp [checked, Except.map] at accepted
    | ok _ =>
      simp only [checked, Except.map, Except.ok.injEq] at accepted
      exact ⟨Entries.get?_eq_none_of_contains absent, rfl, accepted.symm⟩

theorem lookup?_insert (schema : Schema σ) (type : TypeDef σ) (name : String) :
    (schema.insert type).lookup? name = if type.name = name then some type else schema.lookup? name := by
  have types : (schema.insert type).types = Entries.set type.name type schema.types := by
    cases type <;> rfl
  rw [lookup?, types, Entries.get?_set]
  rfl

theorem lookup?_setRootType (schema : Schema σ) (kind : OperationKind) (root name : String) :
    (schema.setRootType kind root).lookup? name = schema.lookup? name := by
  cases kind <;> rfl

theorem implementorsOf_setRootType (schema : Schema σ) (kind : OperationKind) (root interface : String) :
    (schema.setRootType kind root).implementorsOf interface = schema.implementorsOf interface := by
  cases kind <;> rfl

theorem implementorsOf_foldl_setRootType (roots : List (OperationKind × String)) (schema : Schema σ)
    (interface : String) :
    (roots.foldl (fun schema root => schema.setRootType root.1 root.2) schema).implementorsOf interface =
      schema.implementorsOf interface := by
  induction roots generalizing schema with
  | nil => rfl
  | cons root roots ih => rw [List.foldl_cons, ih, implementorsOf_setRootType]

theorem mem_addImplementors {object interface name : String} (interfaces : List String)
    (implementors : Entries String (List String)) :
    name ∈ (Entries.get? interface (interfaces.foldl (addImplementor object) implementors)).getD [] ↔
      name ∈ (Entries.get? interface implementors).getD [] ∨ name = object ∧ interface ∈ interfaces := by
  induction interfaces generalizing implementors with
  | nil => simp
  | cons first rest ih =>
    rw [List.foldl_cons, ih, addImplementor, Entries.get?_set, List.mem_cons]
    by_cases same : first = interface
    · subst same
      simp only [if_true, Option.getD_some, List.mem_append, List.mem_singleton, or_assoc]
      tauto
    · simp [same, Ne.symm same]

theorem mem_implementorsOf_insert {schema : Schema σ} {type : TypeDef σ} {interface name : String} :
    name ∈ (schema.insert type).implementorsOf interface ↔
      name ∈ schema.implementorsOf interface ∨
        ∃ object, type = .object object ∧ name = object.name ∧ interface ∈ object.interfaces := by
  cases type with
  | object object =>
    simp only [TypeDef.object.injEq, ↓existsAndEq, true_and]
    exact mem_addImplementors object.interfaces schema.implementors
  | _ => simp [insert, implementorsOf]

namespace Registered

variable {schema : Schema σ} (registered : schema.Registered)

include registered

theorem registerAll {types : List (TypeDef σ)} {extended : Schema σ}
    (accepted : schema.registerAll types = .ok extended) : extended.Registered := by
  induction types generalizing schema with
  | nil =>
    cases accepted
    exact registered
  | cons type types ih =>
    rw [Schema.registerAll, List.foldlM_cons] at accepted
    cases first : schema.register type with
    | error error => simp [first, bind, Except.bind] at accepted
    | ok next =>
      rw [first] at accepted
      exact ih (registered.register first) accepted

theorem foldl_setRootType (roots : List (OperationKind × String)) :
    (roots.foldl (fun schema root => schema.setRootType root.1 root.2) schema).Registered := by
  induction roots generalizing schema with
  | nil => exact registered
  | cons root roots ih => exact ih (registered.setRootType root.1 root.2)

/-- Types are registered under their own names. -/
theorem name_of_lookup? {name : String} {type : TypeDef σ} (found : schema.lookup? name = some type) :
    type.name = name := by
  induction registered with
  | empty =>
    obtain ⟨scalar, _, same⟩ := List.mem_map.mp (Entries.mem_of_get? found)
    cases same
    rfl
  | register _ accepted ih =>
    obtain ⟨_, _, rfl⟩ := register_eq_ok accepted
    rw [lookup?_insert] at found
    split at found
    · next same => rwa [← Option.some.inj found]
    · exact ih found
  | setRootType kind root _ ih => exact ih (by rwa [lookup?_setRootType] at found)

/-- What is listed under an interface are object types that declare it. -/
theorem declares_of_implementor {name interface : String} (listed : name ∈ schema.implementorsOf interface) :
    ∃ type, schema.lookup? name = some (.object type) ∧ interface ∈ type.interfaces := by
  induction registered with
  | empty => simp [implementorsOf, Entries.get?, Schema.empty] at listed
  | @register schema extended added _ accepted ih =>
    obtain ⟨absent, _, rfl⟩ := register_eq_ok accepted
    rw [lookup?_insert]
    rcases mem_implementorsOf_insert.mp listed with earlier | ⟨object, rfl, rfl, declared⟩
    · obtain ⟨type, found, declared⟩ := ih earlier
      refine ⟨type, ?_, declared⟩
      rwa [if_neg]
      rintro rfl
      simp [absent] at found
    · exact ⟨object, if_pos rfl, declared⟩
  | setRootType kind root _ ih =>
    rw [implementorsOf_setRootType] at listed
    simpa only [lookup?_setRootType] using ih listed

end Registered

/-- The names that an interface resolves to are listed under it. -/
theorem mem_implementorsOf_of_resolveConcrete {schema : Schema σ} {interface : InterfaceType σ} {value : Value}
    {concrete : String} (resolved : schema.resolveConcrete interface value = .ok concrete) :
    concrete ∈ schema.implementorsOf interface.name := by
  simp only [resolveConcrete] at resolved
  split at resolved
  · next name chosen =>
    cases resolved
    simp only [Option.orElse_eq_orElse, Option.orElse_eq_or, Option.or_eq_some_iff] at chosen
    rcases chosen with named | ⟨_, accepting⟩
    · simpa using (Option.filter_eq_some_iff.mp named).2
    · exact List.mem_of_find?_eq_some accepting
  · cases resolved

/-- The object type of a value of a named type is the type of that name, or
one that declares it. -/
theorem Registered.declares_of_concreteType? {schema : Schema σ} (registered : schema.Registered)
    {name : String} {value : Value} {path : Path} {type : ObjectType σ}
    (found : schema.concreteType? name value path = .ok (some type)) :
    schema.lookup? name = some (.object type) ∨
      ∃ interface, schema.lookup? name = some (.interface interface) ∧
        schema.lookup? type.name = some (.object type) ∧ name ∈ type.interfaces := by
  simp only [concreteType?] at found
  split at found
  · cases found
  · next own =>
    cases found
    exact .inl own
  · next interface own =>
    refine .inr ⟨interface, own, ?_⟩
    split at found
    · next concrete resolved =>
      obtain ⟨object, registeredAs, declared⟩ :=
        registered.declares_of_implementor (mem_implementorsOf_of_resolveConcrete resolved)
      simp only [registeredAs, Except.ok.injEq, Option.some.injEq] at found
      subst found
      have objectName : object.name = concrete := registered.name_of_lookup? registeredAs
      have interfaceName : interface.name = name := registered.name_of_lookup? own
      exact ⟨objectName ▸ registeredAs, interfaceName ▸ declared⟩
    · cases found
  all_goals cases found

theorem scalar_of_concreteType? {schema : Schema σ} {name : String} {value : Value} {path : Path}
    (found : schema.concreteType? name value path = .ok none) :
    ∃ scalar, schema.lookup? name = some (.scalar scalar) := by
  simp only [concreteType?] at found
  split at found
  · next scalar own => exact ⟨scalar, own⟩
  · cases found
  · split at found
    · split at found <;> cases found
    · cases found
  all_goals cases found

end Schema

end SelectionEngine
