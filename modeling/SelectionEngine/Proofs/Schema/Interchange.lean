import SelectionEngine.Proofs.Schema.AcceptedText
import SelectionEngine.Proofs.Schema.Coherence

namespace SelectionEngine.Schema

variable {σ : Type}

/-- Whether two schemas hold the same types, each in an order of its own, and
agree on the implementors of every interface. -/
structure Alike (schema other : Schema σ) : Prop where
  distinct : Entries.Distinct schema.types
  types : schema.types.Perm other.types
  implementorsOf : schema.implementorsOf = other.implementorsOf
  resolver? : schema.resolver? = other.resolver?
  rootTypeName : schema.rootTypeName = other.rootTypeName

namespace Alike

variable {schema other : Schema σ} (alike : schema.Alike other)

include alike

theorem lookup? : schema.lookup? = other.lookup? :=
  funext (Entries.get?_of_perm alike.distinct alike.types)

theorem values : (Entries.values schema.types).Perm (Entries.values other.types) := alike.types.map Prod.snd

theorem defaultCount : schema.defaultCount = other.defaultCount := by
  rw [defaultCount_eq, defaultCount_eq]
  exact (alike.values.flatMap_right TypeDef.defaulted).length_eq

theorem sameInputs : schema.SameInputs other where
  types name := by rw [alike.lookup?]
  defaults := alike.defaultCount

theorem lookup : schema.lookup = other.lookup := by
  funext name
  rw [Schema.lookup, Schema.lookup, alike.lookup?]

theorem validateInput : schema.validateInput = other.validateInput := by
  funext coordinate argument
  simp only [Schema.validateInput, alike.lookup, alike.sameInputs.coerceValue]

theorem validateField : schema.validateField = other.validateField := by
  funext typeName field
  simp only [Schema.validateField, alike.lookup, alike.validateInput]

theorem validateType : schema.validateType = other.validateType := by
  funext type
  simp only [Schema.validateType, alike.validateField, alike.validateInput]

/-- Which fault is found first may depend on the order of the types, but not
whether there is one. -/
theorem validate : schema.validate = .ok () ↔ other.validate = .ok () := by
  rw [Schema.validate, forM_eq_ok, Schema.validate, forM_eq_ok, alike.validateType]
  exact forall_congr' fun type => imp_congr_left alike.values.mem_iff

theorem applies : schema.applies = other.applies := by
  funext type condition
  cases condition with
  | none => rfl
  | some condition => simp only [Schema.applies, isSubtype, alike.implementorsOf]

theorem resolveConcrete : schema.resolveConcrete = other.resolveConcrete := by
  have accepted : schema.acceptedBy = other.acceptedBy := by
    funext value name
    rw [acceptedBy, acceptedBy, alike.lookup?]
  funext interface value
  simp only [Schema.resolveConcrete, alike.implementorsOf, accepted]

theorem rootType? : schema.rootType? = other.rootType? := by
  funext kind
  rw [Schema.rootType?, Schema.rootType?, alike.lookup?, alike.rootTypeName]

end Alike

variable {schema extended : Schema σ} {types : List (TypeDef σ)}

/-- Registering types adds them after the others and changes no root. -/
theorem Registered.types_registerAll (registered : schema.Registered)
    (registers : schema.registerAll types = .ok extended) :
    extended.types = schema.types ++ types.map fun type => (type.name, type) := by
  have own := registered.ownTypes_registerAll registers
  rw [(registered.registerAll registers).types_eq, own, List.map_append, ← List.append_assoc, ← registered.types_eq]

theorem rootTypeName_registerAll (registers : schema.registerAll types = .ok extended) :
    extended.rootTypeName = schema.rootTypeName := by
  obtain ⟨query, mutation⟩ := @roots_insertAll σ schema types
  rw [eq_insertAll_of_registerAll registers]
  funext kind
  cases kind with
  | query => exact query
  | mutation => exact mutation

/-- Types that are registered in two orders make schemas that are alike if each
interface keeps the order of its implementors. -/
theorem Registered.alike_of_perm (registered : schema.Registered) {others : List (TypeDef σ)} {other : Schema σ}
    (registers : schema.registerAll types = .ok extended) (alsoRegisters : schema.registerAll others = .ok other)
    (perm : types.Perm others)
    (same : ∀ interface, extended.implementorsOf interface = other.implementorsOf interface) :
    extended.Alike other := by
  have known := registered.registerAll registers
  have alsoKnown := registered.registerAll alsoRegisters
  have entries : extended.types.Perm other.types := by
    rw [registered.types_registerAll registers, registered.types_registerAll alsoRegisters]
    exact (perm.map fun type => (type.name, type)).append_left schema.types
  have lookups (name : String) : extended.lookup? name = other.lookup? name :=
    Entries.get?_of_perm known.types_distinct entries name
  refine ⟨known.types_distinct, entries, funext same, ?_, ?_⟩
  · funext name field
    rw [known.resolver?_eq_carried?, alsoKnown.resolver?_eq_carried?, carried?, carried?, lookups]
  · rw [rootTypeName_registerAll registers, rootTypeName_registerAll alsoRegisters]

end SelectionEngine.Schema
