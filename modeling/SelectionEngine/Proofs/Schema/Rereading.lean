import SelectionEngine.Proofs.Definitions.Spacing
import SelectionEngine.Proofs.Schema.Unbinding

namespace SelectionEngine

open Definitions

variable {σ : Type}

theorem FieldDef.WellFormed.unbound {field : FieldDef σ} (formed : field.WellFormed) : field.unbound.WellFormed :=
  ⟨formed.type, formed.arguments, formed.argumentTypes⟩

theorem TypeDef.WellFormed.unbound {type : TypeDef σ} (formed : type.WellFormed) : type.unbound.WellFormed where
  fields := by
    rw [TypeDef.fields_unbound, List.map_map]
    exact formed.fields
  each := by
    rw [TypeDef.fields_unbound]
    exact List.forall_mem_map.mpr fun field member => (formed.each field member).unbound
  inputs input same := by
    cases type with
    | inputObject type => exact formed.inputs input same
    | _ => cases same

namespace Schema

theorem lookup?_insertAll_of_mem {schema : Schema σ} {types : List (TypeDef σ)}
    (distinct : (types.map TypeDef.name).Nodup) {type : TypeDef σ} (member : type ∈ types) :
    (schema.insertAll types).lookup? type.name = some type := by
  induction types generalizing schema with
  | nil => cases member
  | cons first types ih =>
    rw [insertAll, List.foldl_cons, ← insertAll]
    obtain ⟨absent, distinct⟩ := List.nodup_cons.mp distinct
    rcases List.mem_cons.mp member with rfl | later
    · rw [lookup?_insertAll_of_not_mem absent, lookup?_insert, if_pos rfl]
    · exact ih distinct later

/-- The types of a schema as its text declares them: without behaviour and
grouped by their kinds. -/
def regrouped (schema : Schema σ) : List (TypeDef σ) :=
  (Declarations.ofTypes (schema.ownTypes.map TypeDef.unbound)).types

/-- The schema that the text of a schema defines. -/
def reread (schema : Schema σ) : Schema σ :=
  (empty.insertAll schema.regrouped).withRoots schema.queryType schema.mutationType

variable {schema : Schema σ}

theorem perm_regrouped : schema.regrouped.Perm (schema.ownTypes.map TypeDef.unbound) :=
  Declarations.perm_types_ofTypes _

theorem mem_regrouped {type : TypeDef σ} :
    type ∈ schema.regrouped ↔ ∃ own ∈ schema.ownTypes, own.unbound = type := by
  rw [perm_regrouped.mem_iff, List.mem_map]

theorem perm_names_regrouped : (schema.regrouped.map TypeDef.name).Perm (schema.ownTypes.map TypeDef.name) := by
  have types : schema.regrouped.Perm (schema.ownTypes.map TypeDef.unbound) := perm_regrouped
  have names := types.map TypeDef.name
  rw [List.map_map] at names
  exact names.trans (.of_eq (List.map_congr_left fun type _ => type.name_unbound))

theorem ofName?_of_regrouped {type : TypeDef σ} (member : type ∈ schema.regrouped) :
    BuiltIn.ofName? type.name = none := by
  obtain ⟨type, own, rfl⟩ := mem_regrouped.mp member
  rw [TypeDef.name_unbound]
  exact ofName?_of_ownTypes own

theorem implementorsOf_reread (registered : schema.Registered) (interface : String) :
    schema.reread.implementorsOf interface = schema.implementorsOf interface := by
  have listed (type : TypeDef σ) : type.unbound.listedUnder interface = type.listedUnder interface := by
    cases type <;> rfl
  have rebuilt : schema.reread.implementorsOf interface =
      schema.regrouped.flatMap (TypeDef.listedUnder interface) :=
    implementorsOf_insertAll schema.regrouped interface
  rw [rebuilt, regrouped, Declarations.listedUnder_ofTypes, List.flatMap_map, registered.implementorsOf_eq]
  simp only [listed]

variable (registered : schema.Registered)

include registered

theorem nodup_regrouped : (schema.regrouped.map TypeDef.name).Nodup :=
  perm_names_regrouped.nodup_iff.mpr registered.ownTypes_nodup

/-- The text of a schema defines the same types under the same names. -/
theorem lookup?_reread (name : String) :
    schema.reread.lookup? name = (schema.lookup? name).map TypeDef.unbound := by
  have rebuilt : schema.reread.lookup? name = (empty.insertAll schema.regrouped).lookup? name := rfl
  rw [rebuilt]
  cases builtIn : BuiltIn.ofName? name with
  | some scalar =>
    obtain rfl := BuiltIn.name_of_ofName? builtIn
    have absent : scalar.name ∉ schema.regrouped.map TypeDef.name := by
      intro member
      obtain ⟨type, member, same⟩ := List.mem_map.mp member
      rw [← same, ofName?_of_regrouped member] at builtIn
      cases builtIn
    rw [lookup?_insertAll_of_not_mem absent, registered.lookup?_builtIn, Registered.empty.lookup?_builtIn]
    rfl
  | none =>
    cases found : schema.lookup? name with
    | some type =>
      have member := mem_regrouped.mpr ⟨type, registered.mem_ownTypes found builtIn, rfl⟩
      have rebuilt := @lookup?_insertAll_of_mem _ empty _ (nodup_regrouped registered) _ member
      rwa [TypeDef.name_unbound, registered.name_of_lookup? found] at rebuilt
    | none =>
      have absent : name ∉ schema.regrouped.map TypeDef.name := by
        intro member
        obtain ⟨type, own, same⟩ := List.mem_map.mp (perm_names_regrouped.mem_iff.mp member)
        rw [← same, registered.lookup?_of_ownTypes own] at found
        cases found
      rw [lookup?_insertAll_of_not_mem absent, lookup?_empty builtIn]
      rfl

theorem types_reread : schema.reread.types =
    (empty : Schema σ).types ++ schema.regrouped.map fun type => (type.name, type) :=
  types_insertAll (nodup_regrouped registered) fun _ member => lookup?_empty (ofName?_of_regrouped member)

theorem defaultCount_reread : schema.reread.defaultCount = schema.defaultCount := by
  have types : schema.regrouped.Perm (schema.ownTypes.map TypeDef.unbound) := perm_regrouped
  have own := (types.flatMap_right TypeDef.defaulted).length_eq
  simp only [List.flatMap_map, TypeDef.defaulted_unbound] at own
  simp [defaultCount_eq, types_reread registered, registered.types_eq, Entries.values, List.flatMap_append,
    List.flatMap_map, own]

theorem unbinds_reread : schema.reread.Unbinds schema where
  lookup? := lookup?_reread registered
  defaults := defaultCount_reread registered

/-- The types of a valid schema are valid in the schema of its text as well. -/
theorem validate_reread (valid : schema.validate = .ok ()) : schema.reread.validate = .ok () := by
  have each : ∀ type ∈ Entries.values schema.types, schema.validateType type = .ok () := forM_eq_ok.mp valid
  refine forM_eq_ok.mpr fun type member => ?_
  rw [Entries.values, types_reread registered, List.map_append, List.mem_append] at member
  rcases member with builtIn | regrouped
  · simp only [empty, List.map_map, List.mem_map, Function.comp_apply] at builtIn
    obtain ⟨scalar, _, rfl⟩ := builtIn
    rfl
  · simp only [List.map_map, List.mem_map, Function.comp_apply] at regrouped
    obtain ⟨_, member, rfl⟩ := regrouped
    obtain ⟨type, own, rfl⟩ := mem_regrouped.mp member
    rw [(unbinds_reread registered).validateType]
    exact each type (List.mem_filter.mp own).1

/-- The types that are declared before the object types. -/
def interfacesAndInputs (schema : Schema σ) : List (TypeDef σ) :=
  let declarations := Declarations.ofTypes (schema.ownTypes.map TypeDef.unbound)
  declarations.scalars.map .scalar ++ declarations.interfaces.map .interface ++ declarations.inputs.map .inputObject

def objects (schema : Schema σ) : List (TypeDef σ) :=
  (Declarations.ofTypes (schema.ownTypes.map TypeDef.unbound)).objects.map .object

omit registered in
theorem regrouped_eq : schema.regrouped = schema.interfacesAndInputs ++ schema.objects := rfl

omit registered in
theorem not_mem_objects {type : InterfaceType σ} : .interface type ∉ schema.objects := by
  simp [objects]

theorem nodup_interfacesAndInputs : (schema.interfacesAndInputs.map TypeDef.name).Nodup := by
  have distinct := nodup_regrouped registered
  rw [regrouped_eq, List.map_append] at distinct
  exact (List.nodup_append.mp distinct).1

/-- The interface types of a schema are there before its object types. -/
theorem lookup?_interface {name : String} {type : InterfaceType σ}
    (found : schema.lookup? name = some (.interface type)) :
    (empty.insertAll schema.interfacesAndInputs).lookup? name = some (.interface type.unbound) := by
  have own : BuiltIn.ofName? name = none := by
    cases builtIn : BuiltIn.ofName? name with
    | none => rfl
    | some scalar =>
      obtain rfl := BuiltIn.name_of_ofName? builtIn
      rw [registered.lookup?_builtIn] at found
      cases found
  have member : .interface type.unbound ∈ schema.regrouped :=
    mem_regrouped.mpr ⟨_, registered.mem_ownTypes found own, rfl⟩
  rw [regrouped_eq, List.mem_append] at member
  have before := @lookup?_insertAll_of_mem _ empty _ (nodup_interfacesAndInputs registered) _
    (member.resolve_right not_mem_objects)
  have named : type.name = name := registered.name_of_lookup? found
  rwa [show (TypeDef.interface type.unbound).name = name from named] at before

/-- An object type of a schema implements its interfaces as soon as the
interface types of the schema are there. -/
theorem implementationFault?_unbound {object : ObjectType σ} (own : .object object ∈ schema.ownTypes)
    {interface : String} (declared : interface ∈ object.interfaces) :
    (empty.insertAll schema.interfacesAndInputs).implementationFault? object.unbound interface = none := by
  have implements := registered.implements (registered.lookup?_of_ownTypes own) declared
  obtain ⟨type, found, fields⟩ := implementationFault?_eq_none.mp implements
  rw [implementationFault?, lookup?_interface registered found]
  exact (missingField?_unbound object type.fields).trans (missingField?_eq_none.mpr fields)

/-- The types that a text of a schema declares can be registered in their order:
the object types come last, when the interfaces are there that they implement. -/
theorem registerAll_regrouped : empty.registerAll schema.regrouped = .ok (empty.insertAll schema.regrouped) := by
  have formed : ∀ type ∈ schema.regrouped, type.WellFormed := by
    intro type member
    obtain ⟨type, own, rfl⟩ := mem_regrouped.mp member
    exact (registered.wellFormed (registered.lookup?_of_ownTypes own)).unbound
  have fresh : ∀ type ∈ schema.regrouped, (empty : Schema σ).lookup? type.name = none :=
    fun _ member => lookup?_empty (ofName?_of_regrouped member)
  have noObject (object : ObjectType σ) :
      .object object ∉ schema.interfacesAndInputs := by simp [interfacesAndInputs]
  refine registerAll_append_eq_ok (nodup_regrouped registered) fresh formed noObject ?_
  intro object member interface declared
  obtain ⟨type, own, same⟩ := mem_regrouped.mp (List.mem_append_right _ member)
  cases type with
  | object type =>
    cases same
    exact implementationFault?_unbound registered own declared
  | _ => cases same

omit registered in
theorem roots_insertAll (types : List (TypeDef σ)) :
    (schema.insertAll types).queryType = schema.queryType ∧
      (schema.insertAll types).mutationType = schema.mutationType := by
  induction types generalizing schema with
  | nil => exact ⟨rfl, rfl⟩
  | cons type types ih =>
    have roots : (schema.insert type).queryType = schema.queryType ∧
        (schema.insert type).mutationType = schema.mutationType := by
      cases type <;> exact ⟨rfl, rfl⟩
    rw [← roots.1, ← roots.2]
    exact ih

/-- The text of a valid schema defines the same types again, if there are any
and none of them is bare. -/
theorem ofText_text (valid : schema.validate = .ok ()) (written : ∀ type ∈ schema.ownTypes, type.Written)
    (roots : ∀ kind, IsName (schema.rootTypeName kind)) (present : ∀ type ∈ schema.ownTypes, type.isBare = false)
    (defines : schema.definitions ≠ []) : ofText schema.text {} = .ok schema.reread := by
  have unbound : ∀ type ∈ schema.regrouped, type.unbound = type := by
    intro type member
    obtain ⟨own, _, rfl⟩ := mem_regrouped.mp member
    exact own.unbound_unbound
  have bound : ({} : Bindings σ).bind
      { Declarations.ofTypes (schema.ownTypes.map TypeDef.unbound) with roots := schema.namedRoots } = _ :=
    Declarations.bind_empty unbound
  have defaultRoots := @roots_insertAll σ empty schema.regrouped
  have named := foldl_namedRoots schema defaultRoots.1 defaultRoots.2
  have loose (declarations : Declarations σ) : ({} : Bindings σ).loose? declarations = none := rfl
  have formed : ∀ type ∈ schema.ownTypes, type.WellFormed :=
    fun _ own => registered.wellFormed (registered.lookup?_of_ownTypes own)
  have read := (ofText?_text (wellSpaced_lexemes written roots)).trans
    (definitions?_lexemes written formed present defines)
  simp only [ofText, read, ofDefinitions, ofDefinitions_definitions schema written, loose, bound]
  refine bind_eq_ok.mpr ⟨_, registerAll_regrouped registered, ?_⟩
  rw [named]
  exact check_bind_eq_ok.mpr ⟨validate_reread registered valid, rfl⟩

end Schema

end SelectionEngine
