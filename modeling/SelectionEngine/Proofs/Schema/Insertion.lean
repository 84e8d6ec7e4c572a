import SelectionEngine.Proofs.Schema.Checks
import SelectionEngine.Schema.Layout

namespace SelectionEngine

variable {σ : Type}

/-- How often an object type is listed under an interface: once for each time
that it says to implement it. -/
def TypeDef.listedUnder (interface : String) : TypeDef σ → List String
  | object type => List.replicate (type.interfaces.count interface) type.name
  | scalar _ | .interface _ | inputObject _ => []

namespace Schema

variable {schema : Schema σ}

/-- The schema with types added one after another. -/
def insertAll (schema : Schema σ) (types : List (TypeDef σ)) : Schema σ := types.foldl insert schema

theorem insertAll_append (schema : Schema σ) (first second : List (TypeDef σ)) :
    schema.insertAll (first ++ second) = (schema.insertAll first).insertAll second :=
  List.foldl_append

theorem types_insert {type : TypeDef σ} (fresh : schema.lookup? type.name = none) :
    (schema.insert type).types = schema.types ++ [(type.name, type)] := by
  have types : (schema.insert type).types = Entries.set type.name type schema.types := by
    cases type <;> rfl
  rw [types, Entries.set_of_get?_eq_none fresh]

theorem fresh_insert {types : List (TypeDef σ)} {type : TypeDef σ}
    (distinct : ((type :: types).map TypeDef.name).Nodup)
    (fresh : ∀ later ∈ type :: types, schema.lookup? later.name = none) :
    ∀ later ∈ types, (schema.insert type).lookup? later.name = none := by
  intro later member
  have absent := (List.nodup_cons.mp distinct).1
  rw [lookup?_insert, if_neg, fresh later (.tail _ member)]
  intro same
  exact absent (List.mem_map.mpr ⟨later, member, same.symm⟩)

/-- New types go to the end, in their order. -/
theorem types_insertAll {types : List (TypeDef σ)} (distinct : (types.map TypeDef.name).Nodup)
    (fresh : ∀ type ∈ types, schema.lookup? type.name = none) :
    (schema.insertAll types).types = schema.types ++ types.map fun type => (type.name, type) := by
  induction types generalizing schema with
  | nil => simp [insertAll]
  | cons type types ih =>
    have others := ih (List.nodup_cons.mp distinct).2 (fresh_insert distinct fresh)
    rw [types_insert (fresh type (.head _)), List.append_assoc] at others
    exact others

theorem getD_addImplementors {object interface : String} (interfaces : List String)
    (implementors : Entries String (List String)) :
    (Entries.get? interface (interfaces.foldl (addImplementor object) implementors)).getD [] =
      (Entries.get? interface implementors).getD [] ++ List.replicate (interfaces.count interface) object := by
  induction interfaces generalizing implementors with
  | nil => simp
  | cons first rest ih =>
    rw [List.foldl_cons, ih, addImplementor, Entries.get?_set, List.count_cons]
    by_cases same : first = interface
    · subst same
      simp [List.replicate_succ]
    · simp [same]

theorem implementorsOf_insert (type : TypeDef σ) (interface : String) :
    (schema.insert type).implementorsOf interface = schema.implementorsOf interface ++
      type.listedUnder interface := by
  cases type with
  | object object => exact getD_addImplementors object.interfaces schema.implementors
  | _ => simp [insert, implementorsOf, TypeDef.listedUnder]

theorem implementorsOf_insertAll (types : List (TypeDef σ)) (interface : String) :
    (schema.insertAll types).implementorsOf interface =
      schema.implementorsOf interface ++ types.flatMap (TypeDef.listedUnder interface) := by
  induction types generalizing schema with
  | nil => simp [insertAll]
  | cons type types ih =>
    rw [insertAll, List.foldl_cons, ← insertAll, ih, implementorsOf_insert, List.append_assoc, List.flatMap_cons]

/-- An object type goes on to implement an interface when a type of
another name is added. -/
theorem implementationFault?_insert {type : TypeDef σ} (fresh : schema.lookup? type.name = none)
    {object : ObjectType σ} {interface : String}
    (implements : schema.implementationFault? object interface = none) :
    (schema.insert type).implementationFault? object interface = none := by
  rw [implementationFault?] at implements ⊢
  rw [lookup?_insert, if_neg]
  · exact implements
  · rintro rfl
    rw [fresh] at implements
    cases implements

/-- Types of new and distinct names are registered if they are well formed and the
object types among them implement interfaces of types that are there before. -/
theorem registerAll_eq_ok {types : List (TypeDef σ)} (distinct : (types.map TypeDef.name).Nodup)
    (fresh : ∀ type ∈ types, schema.lookup? type.name = none) (formed : ∀ type ∈ types, type.WellFormed)
    (implements : ∀ object, .object object ∈ types → ∀ interface ∈ object.interfaces,
      schema.implementationFault? object interface = none) :
    schema.registerAll types = .ok (schema.insertAll types) := by
  induction types generalizing schema with
  | nil => rfl
  | cons type types ih =>
    have new := fresh type (.head _)
    have checked : schema.check type = .ok () := by
      refine check_eq_ok.mpr ⟨formed type (.head _), ?_⟩
      rintro object rfl
      exact implements object (.head _)
    have first : schema.register type = .ok (schema.insert type) := by
      rw [register, if_neg (by simpa [Entries.contains, lookup?] using new), checked]
      rfl
    rw [registerAll, List.foldlM_cons, first]
    exact ih (List.nodup_cons.mp distinct).2 (fresh_insert distinct fresh)
      (fun later member => formed later (.tail _ member))
      fun object member interface declared =>
        implementationFault?_insert new (implements object (.tail _ member) interface declared)

theorem lookup?_insertAll_of_not_mem {schema : Schema σ} {types : List (TypeDef σ)} {name : String}
    (absent : name ∉ types.map TypeDef.name) : (schema.insertAll types).lookup? name = schema.lookup? name := by
  induction types generalizing schema with
  | nil => rfl
  | cons type types ih =>
    rw [List.map_cons, List.mem_cons, not_or] at absent
    rw [insertAll, List.foldl_cons, ← insertAll, ih absent.2, lookup?_insert, if_neg (Ne.symm absent.1)]

/-- Object types that are registered last may implement interfaces that are
registered in the same go. -/
theorem registerAll_append_eq_ok {first objects : List (TypeDef σ)}
    (distinct : ((first ++ objects).map TypeDef.name).Nodup)
    (fresh : ∀ type ∈ first ++ objects, schema.lookup? type.name = none)
    (formed : ∀ type ∈ first ++ objects, type.WellFormed) (noObject : ∀ object, .object object ∉ first)
    (implements : ∀ object, .object object ∈ objects → ∀ interface ∈ object.interfaces,
      (schema.insertAll first).implementationFault? object interface = none) :
    schema.registerAll (first ++ objects) = .ok (schema.insertAll (first ++ objects)) := by
  rw [List.map_append, List.nodup_append] at distinct
  obtain ⟨firstDistinct, objectsDistinct, apart⟩ := distinct
  obtain ⟨firstFormed, objectsFormed⟩ := List.forall_mem_append.mp formed
  obtain ⟨firstFresh, objectsFresh⟩ := List.forall_mem_append.mp fresh
  have before := registerAll_eq_ok firstDistinct firstFresh firstFormed fun object member =>
    absurd member (noObject object)
  have stillFresh : ∀ type ∈ objects, (schema.insertAll first).lookup? type.name = none := by
    intro type member
    rw [lookup?_insertAll_of_not_mem, objectsFresh type member]
    exact fun earlier => apart _ earlier _ (List.mem_map_of_mem member) rfl
  have after := registerAll_eq_ok objectsDistinct stillFresh objectsFormed implements
  rw [registerAll] at before after ⊢
  rw [List.foldlM_append, before, insertAll_append]
  exact after

/-- The schema with its root types named anew. -/
def withRoots (schema : Schema σ) (queryType mutationType : String) : Schema σ :=
  { schema with queryType, mutationType }

theorem insert_withRoots (type : TypeDef σ) (queryType mutationType : String) :
    (schema.withRoots queryType mutationType).insert type =
      (schema.insert type).withRoots queryType mutationType := by
  cases type <;> rfl

theorem lookup?_empty {name : String} (own : BuiltIn.ofName? name = none) :
    (empty : Schema σ).lookup? name = none := by
  refine Entries.get?_eq_none_of_keys fun member => ?_
  simp only [empty, Entries.keys, List.map_map, List.mem_map, Function.comp_apply] at member
  obtain ⟨scalar, _, rfl⟩ := member
  rw [BuiltIn.ofName?_name] at own
  cases own

theorem ownTypes_empty : (empty : Schema σ).ownTypes = [] := by
  refine List.filter_eq_nil_iff.mpr fun type member => ?_
  simp only [empty, Entries.values, List.map_map, List.mem_map, Function.comp_apply] at member
  obtain ⟨scalar, _, rfl⟩ := member
  simp [TypeDef.name, BuiltIn.ofName?_name]

theorem ownTypes_insert {type : TypeDef σ} (fresh : schema.lookup? type.name = none)
    (own : BuiltIn.ofName? type.name = none) : (schema.insert type).ownTypes = schema.ownTypes ++ [type] := by
  simp [ownTypes, types_insert fresh, Entries.values, own]

theorem ownTypes_setRootType (kind : OperationKind) (name : String) :
    (schema.setRootType kind name).ownTypes = schema.ownTypes := by
  cases kind <;> rfl

theorem ownTypes_foldl_setRootType (roots : List (OperationKind × String)) (schema : Schema σ) :
    (roots.foldl (fun schema root => schema.setRootType root.1 root.2) schema).ownTypes = schema.ownTypes := by
  induction roots generalizing schema with
  | nil => rfl
  | cons root roots ih => rw [List.foldl_cons, ih, ownTypes_setRootType]

theorem ofName?_of_ownTypes {type : TypeDef σ} (own : type ∈ schema.ownTypes) : BuiltIn.ofName? type.name = none :=
  Option.isNone_iff_eq_none.mp (List.mem_filter.mp own).2

namespace Registered

theorem lookup?_builtIn {schema : Schema σ} (registered : schema.Registered) (scalar : BuiltIn) :
    schema.lookup? scalar.name = some (.scalar scalar.name) := by
  induction registered with
  | empty => cases scalar <;> rfl
  | register _ accepted ih =>
    obtain ⟨fresh, _, rfl⟩ := register_eq_ok accepted
    rw [lookup?_insert, if_neg, ih]
    intro same
    rw [same, ih] at fresh
    cases fresh
  | setRootType kind name _ ih => rw [lookup?_setRootType, ih]

theorem ofName?_of_fresh {schema : Schema σ} (registered : schema.Registered) {name : String}
    (fresh : schema.lookup? name = none) : BuiltIn.ofName? name = none := by
  cases found : BuiltIn.ofName? name with
  | none => rfl
  | some scalar =>
    have same := BuiltIn.name_of_ofName? found
    rw [← same, registered.lookup?_builtIn] at fresh
    cases fresh

theorem ownTypes_register {schema extended : Schema σ} (registered : schema.Registered) {type : TypeDef σ}
    (accepted : schema.register type = .ok extended) : extended.ownTypes = schema.ownTypes ++ [type] := by
  obtain ⟨fresh, _, rfl⟩ := register_eq_ok accepted
  exact ownTypes_insert fresh (registered.ofName?_of_fresh fresh)

/-- A registered schema has its own types, added one after another,
and has named its roots. -/
theorem eq_insertAll {schema : Schema σ} (registered : schema.Registered) :
    schema = (Schema.empty.insertAll schema.ownTypes).withRoots schema.queryType schema.mutationType := by
  induction registered with
  | empty =>
    rw [ownTypes_empty]
    rfl
  | @register schema _ type registered accepted ih =>
    obtain ⟨fresh, _, rfl⟩ := register_eq_ok accepted
    have roots : (schema.insert type).queryType = schema.queryType ∧
        (schema.insert type).mutationType = schema.mutationType := by
      cases type <;> exact ⟨rfl, rfl⟩
    rw [ownTypes_insert fresh (registered.ofName?_of_fresh fresh), insertAll_append, roots.1, roots.2]
    rw [insertAll, List.foldl_cons, List.foldl_nil, ← insert_withRoots, ← ih]
  | @setRootType schema kind name _ ih =>
    rw [ownTypes_setRootType]
    cases kind <;> exact congrArg (fun schema => Schema.setRootType schema _ name) ih

/-- The own types of a schema are found under their names. -/
theorem lookup?_of_ownTypes {schema : Schema σ} (registered : schema.Registered) {type : TypeDef σ}
    (own : type ∈ schema.ownTypes) : schema.lookup? type.name = some type := by
  induction registered with
  | empty =>
    rw [ownTypes_empty] at own
    cases own
  | @register schema _ added registered accepted ih =>
    obtain ⟨fresh, _, rfl⟩ := register_eq_ok accepted
    rw [ownTypes_insert fresh (registered.ofName?_of_fresh fresh), List.mem_append, List.mem_singleton] at own
    rcases own with earlier | rfl
    · rw [lookup?_insert, if_neg, ih earlier]
      intro same
      rw [same, ih earlier] at fresh
      cases fresh
    · rw [lookup?_insert, if_pos rfl]
  | setRootType kind name _ ih =>
    rw [ownTypes_setRootType] at own
    rw [lookup?_setRootType, ih own]

theorem mem_ownTypes {schema : Schema σ} (registered : schema.Registered) {name : String} {type : TypeDef σ}
    (found : schema.lookup? name = some type) (own : BuiltIn.ofName? name = none) : type ∈ schema.ownTypes := by
  refine List.mem_filter.mpr ⟨Entries.mem_values_of_get? found, ?_⟩
  rw [registered.name_of_lookup? found, own]
  rfl

theorem ownTypes_nodup {schema : Schema σ} (registered : schema.Registered) :
    (schema.ownTypes.map TypeDef.name).Nodup := by
  induction registered with
  | empty =>
    rw [ownTypes_empty]
    exact .nil
  | @register schema _ type registered accepted ih =>
    obtain ⟨fresh, _, rfl⟩ := register_eq_ok accepted
    have other : ∀ earlier ∈ schema.ownTypes, earlier.name ≠ type.name := by
      intro earlier own same
      rw [← same, registered.lookup?_of_ownTypes own] at fresh
      cases fresh
    rw [ownTypes_insert fresh (registered.ofName?_of_fresh fresh), List.map_append]
    simpa [List.nodup_append, ih] using other
  | setRootType kind name _ ih => rwa [ownTypes_setRootType]

/-- A registered schema has the built-in types and after them its own. -/
theorem types_eq {schema : Schema σ} (registered : schema.Registered) :
    schema.types = (Schema.empty : Schema σ).types ++ schema.ownTypes.map fun type => (type.name, type) := by
  have types := congrArg Schema.types registered.eq_insertAll
  exact types.trans (types_insertAll registered.ownTypes_nodup fun _ own => lookup?_empty (ofName?_of_ownTypes own))

theorem implementorsOf_eq {schema : Schema σ} (registered : schema.Registered) (interface : String) :
    schema.implementorsOf interface = schema.ownTypes.flatMap (TypeDef.listedUnder interface) := by
  have implementors := congrArg (fun schema : Schema σ => schema.implementorsOf interface) registered.eq_insertAll
  exact implementors.trans (implementorsOf_insertAll schema.ownTypes interface)

/-- Object types implement the interfaces that they say to implement. -/
theorem implements {schema : Schema σ} (registered : schema.Registered) {name : String} {object : ObjectType σ}
    (found : schema.lookup? name = some (.object object)) {interface : String}
    (declared : interface ∈ object.interfaces) : schema.implementationFault? object interface = none := by
  induction registered with
  | empty =>
    obtain ⟨_, _, same⟩ := List.mem_map.mp (Entries.mem_of_get? found)
    cases same
  | register _ accepted ih =>
    obtain ⟨fresh, checked, rfl⟩ := register_eq_ok accepted
    refine implementationFault?_insert fresh ?_
    rw [lookup?_insert] at found
    split at found
    · cases found
      exact (check_eq_ok.mp checked).2 object rfl interface declared
    · exact ih found
  | setRootType kind name _ ih =>
    have implements := ih (by rwa [lookup?_setRootType] at found)
    rw [implementationFault?] at implements ⊢
    rwa [lookup?_setRootType]

end Registered

end Schema

end SelectionEngine
