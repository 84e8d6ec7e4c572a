import SelectionEngine.Proofs.Coercion.SameInputs
import SelectionEngine.Proofs.Schema.Declarations

namespace SelectionEngine

variable {σ : Type}

theorem TypeDef.fields_unbound (type : TypeDef σ) : type.unbound.fields = type.fields.map FieldDef.unbound := by
  cases type <;> rfl

@[simp] theorem TypeDef.defaulted_unbound (type : TypeDef σ) : type.unbound.defaulted = type.defaulted := by
  cases type <;> rfl

namespace Schema

variable {schema : Schema σ}

theorem missingField?_unbound (object : ObjectType σ) (fields : List (FieldDef σ)) :
    missingField? object.unbound (fields.map FieldDef.unbound) = missingField? object fields := by
  have field (name : String) : object.unbound.field? name = (object.field? name).map FieldDef.unbound := by
    simp only [ObjectType.field?, ObjectType.unbound, List.find?_map]
    rfl
  simp only [missingField?, List.findSome?_map]
  congr 1
  funext expected
  simp only [Function.comp_apply, FieldDef.unbound, field]
  cases object.field? expected.name <;> rfl

/-- Whether a schema has the types of another one under the same names, without
what is bound to them. -/
structure Unbinds (plain schema : Schema σ) : Prop where
  lookup? : ∀ name, plain.lookup? name = (schema.lookup? name).map TypeDef.unbound
  defaults : plain.defaultCount = schema.defaultCount

namespace Unbinds

variable {plain schema : Schema σ} (unbinds : plain.Unbinds schema)

include unbinds

theorem sameInputs : plain.SameInputs schema where
  types name := by
    rw [unbinds.lookup?]
    rcases schema.lookup? name with _ | (_ | _ | _ | _) <;> rfl
  defaults := unbinds.defaults

theorem lookup (name : String) : plain.lookup name = (schema.lookup name).map TypeDef.unbound := by
  rw [Schema.lookup, unbinds.lookup?, Schema.lookup]
  cases schema.lookup? name <;> rfl

theorem implementationFault? (object : ObjectType σ) (interface : String) :
    plain.implementationFault? object.unbound interface = schema.implementationFault? object interface := by
  rw [Schema.implementationFault?, unbinds.lookup?, Schema.implementationFault?]
  rcases schema.lookup? interface with _ | (_ | _ | type | _)
  case some.interface => exact missingField?_unbound object type.fields
  all_goals rfl

omit unbinds in
theorem checkFields_unbound (typeName : String) (fields : List (FieldDef σ)) :
    checkFields typeName (fields.map FieldDef.unbound) = checkFields typeName fields := by
  simp only [checkFields, List.forM_eq_forM, List.forM_map, List.map_map]
  rfl

/-- Whether a type is accepted does not depend on what is bound to it and
to the types before it. -/
theorem check (type : TypeDef σ) : plain.check type.unbound = schema.check type := by
  cases type with
  | object object =>
    have implementation : plain.checkImplementation object.unbound = schema.checkImplementation object := by
      funext interface
      rw [checkImplementation, unbinds.implementationFault?]
      rfl
    simp only [TypeDef.unbound, Schema.check, implementation]
    simp only [ObjectType.unbound, checkFields_unbound]
  | interface type => exact checkFields_unbound type.name type.fields
  | _ => rfl

theorem validateInput : plain.validateInput = schema.validateInput := by
  funext coordinate argument
  simp only [Schema.validateInput, unbinds.lookup, unbinds.sameInputs.coerceValue]
  cases schema.lookup argument.type.innerName with
  | error error => rfl
  | ok target => cases target <;> rfl

theorem validateField (typeName : String) (field : FieldDef σ) :
    plain.validateField typeName field.unbound = schema.validateField typeName field := by
  simp only [Schema.validateField, FieldDef.unbound, unbinds.lookup, unbinds.validateInput]
  cases schema.lookup field.type.innerName with
  | error error => rfl
  | ok target => cases target <;> rfl

theorem validateType (type : TypeDef σ) : plain.validateType type.unbound = schema.validateType type := by
  simp only [Schema.validateType, TypeDef.fields_unbound, TypeDef.name_unbound, List.forM_eq_forM, List.forM_map,
    unbinds.validateField, unbinds.validateInput]
  cases type <;> rfl

end Unbinds

/-- The schema without what is bound to its types and their fields. -/
def unbound (schema : Schema σ) : Schema σ :=
  { schema with
    types := schema.types.map fun entry => (entry.1, entry.2.unbound)
    resolvers := schema.resolvers.map fun entry => (entry.1, []) }

theorem unbound_unbinds (schema : Schema σ) : schema.unbound.Unbinds schema where
  lookup? := Entries.get?_map TypeDef.unbound schema.types
  defaults := by simp [defaultCount_eq, unbound, Entries.values, List.flatMap_map]

theorem unbound_insert (schema : Schema σ) (type : TypeDef σ) :
    (schema.insert type).unbound = schema.unbound.insert type.unbound := by
  have types := Entries.map_set TypeDef.unbound type.name type schema.types
  cases type with
  | object object =>
    have none : boundFields object.unbound.fields = [] := by
      simp [boundFields, ObjectType.unbound, FieldDef.unbound]
    have resolvers :
        (Entries.set object.name (boundFields object.fields) schema.resolvers).map (fun entry => (entry.1, [])) =
        Entries.set object.name (boundFields object.unbound.fields) schema.unbound.resolvers := by
      rw [none]
      exact Entries.map_set (fun _ => []) object.name (boundFields object.fields) schema.resolvers
    let implementors := object.interfaces.foldl (addImplementor object.name) schema.implementors
    exact congrArg₂ (fun types resolvers => { schema with types, implementors, resolvers }) types resolvers
  | _ => exact congrArg (fun types => { schema.unbound with types }) types

/-- A type is added to the unbound schema if it is added to the bound one, and
refused for the same reason. -/
theorem unbound_register (schema : Schema σ) (type : TypeDef σ) :
    (schema.register type).map unbound = schema.unbound.register type.unbound := by
  have known : Entries.contains schema.unbound.types type.name = Entries.contains schema.types type.name := by
    have found := schema.unbound_unbinds.lookup? type.name
    rw [lookup?, lookup?] at found
    rw [Entries.contains, Entries.contains, found, Option.isSome_map]
  simp only [register, TypeDef.name_unbound, known, schema.unbound_unbinds.check type]
  split
  · rfl
  · cases schema.check type with
    | error fault => rfl
    | ok _ => exact congrArg Except.ok (schema.unbound_insert type)

theorem unbound_registerAll (schema : Schema σ) (types : List (TypeDef σ)) :
    (schema.registerAll types).map unbound = schema.unbound.registerAll (types.map TypeDef.unbound) := by
  induction types generalizing schema with
  | nil => rfl
  | cons type types ih =>
    rw [registerAll, List.map_cons, registerAll, List.foldlM_cons, List.foldlM_cons, ← unbound_register]
    cases schema.register type with
    | error fault => rfl
    | ok extended => exact ih extended

theorem unbound_foldl_setRootType (roots : List (OperationKind × String)) (schema : Schema σ) :
    (roots.foldl (fun schema root => schema.setRootType root.1 root.2) schema).unbound =
      roots.foldl (fun schema root => schema.setRootType root.1 root.2) schema.unbound := by
  induction roots generalizing schema with
  | nil => rfl
  | cons root roots ih =>
    obtain ⟨kind, name⟩ := root
    rw [List.foldl_cons, List.foldl_cons, ih]
    cases kind <;> rfl

theorem unbound_validate (schema : Schema σ) : schema.unbound.validate = schema.validate := by
  simp only [validate, unbound, Entries.values, List.map_map, List.forM_eq_forM, List.forM_map]
  congr 1
  funext entry
  exact schema.unbound_unbinds.validateType entry.2

end Schema

end SelectionEngine
