import SelectionEngine.Proofs.Definitions.Clauses
import SelectionEngine.Proofs.Entries
import SelectionEngine.Proofs.Schema.Insertion
import SelectionEngine.Schema.Source

namespace SelectionEngine

open Definitions

variable {σ : Type}

/-- The field without what is bound to it. -/
def FieldDef.unbound (field : FieldDef σ) : FieldDef σ := { field with resolver := none }

def ObjectType.unbound (type : ObjectType σ) : ObjectType σ :=
  { type with fields := type.fields.map FieldDef.unbound, isTypeOf := none }

def InterfaceType.unbound (type : InterfaceType σ) : InterfaceType σ :=
  { type with fields := type.fields.map FieldDef.unbound, resolveType := none }

/-- The type without what is bound to it and to its fields. -/
def TypeDef.unbound : TypeDef σ → TypeDef σ
  | scalar name => .scalar name
  | object type => .object type.unbound
  | interface type => .interface type.unbound
  | inputObject type => .inputObject type

@[simp] theorem TypeDef.name_unbound (type : TypeDef σ) : type.unbound.name = type.name := by
  cases type <;> rfl

@[simp] theorem FieldDef.unbound_unbound (field : FieldDef σ) : field.unbound.unbound = field.unbound := rfl

@[simp] theorem TypeDef.unbound_unbound (type : TypeDef σ) : type.unbound.unbound = type.unbound := by
  cases type <;> simp [unbound, ObjectType.unbound, InterfaceType.unbound, Function.comp_def]

namespace Definitions

theorem itemValues_literals {items : List Value} (each : ∀ item ∈ items, item.literal.toValue = .ok item) :
    Literal.itemValues (Value.itemLiterals items) = .ok items := by
  induction items with
  | nil => rfl
  | cons item items ih =>
    obtain ⟨first, others⟩ := List.forall_mem_cons.mp each
    simp [Value.itemLiterals, Literal.itemValues, first, ih others, bind, Except.bind, pure, Except.pure]

theorem fieldValues_literals {entries : Object} (each : ∀ entry ∈ entries, entry.2.literal.toValue = .ok entry.2) :
    Literal.fieldValues (Value.entryLiterals entries) = .ok entries := by
  induction entries with
  | nil => rfl
  | cons entry entries ih =>
    obtain ⟨first, others⟩ := List.forall_mem_cons.mp each
    simp [Value.entryLiterals, Literal.fieldValues, first, ih others, bind, Except.bind, pure, Except.pure]

/-- A value that was written as a literal has the literal's value. -/
theorem toValue_literal {value : Value} (written : value.Written) : value.literal.toValue = .ok value := by
  induction written with
  | null => rfl
  | bool b => rfl
  | int lower upper => rw [Value.literal, Literal.toValue, Numeral.int64?_text lower upper]
  | double d => simp [Value.literal, Literal.toValue, Double.toDouble?_text]
  | string s => rfl
  | list _ ih => simp [Value.literal, Literal.toValue, itemValues_literals ih, Except.map]
  | object distinct _ _ ih =>
    simp [Value.literal, Literal.toValue, fieldValues_literals ih, Except.map, Entries.ofList_of_distinct distinct]

end Definitions

theorem ArgumentDef.declare_clause {argument : ArgumentDef} (written : argument.Written) :
    argument.clause.declare = .ok argument := by
  obtain ⟨name, type, default⟩ := argument
  cases default with
  | none => rfl
  | some value =>
    have known := toValue_literal (written.default value rfl).1
    simp [ArgumentDef.clause, ArgumentClause.declare, known, Except.map]

theorem FieldDef.declare_clause {field : FieldDef σ} (written : field.Written) :
    field.clause.declare = .ok field.unbound := by
  have arguments := mapM_eq_ok_map (g := ArgumentDef.clause) (h := id) fun argument member =>
    ArgumentDef.declare_clause (written.arguments argument member)
  rw [List.map_id] at arguments
  simp [FieldDef.clause, FieldClause.declare, arguments, Except.map, FieldDef.unbound]

namespace Declarations

/-- What a single type declares. -/
def ofType : TypeDef σ → Declarations σ
  | .scalar name => { scalars := [name] }
  | .interface type => { interfaces := [type] }
  | .inputObject type => { inputs := [type] }
  | .object type => { objects := [type] }

def append (first second : Declarations σ) : Declarations σ where
  scalars := first.scalars ++ second.scalars
  interfaces := first.interfaces ++ second.interfaces
  inputs := first.inputs ++ second.inputs
  objects := first.objects ++ second.objects
  roots := first.roots ++ second.roots

/-- What types declare one after another. -/
def ofTypes (types : List (TypeDef σ)) : Declarations σ := types.foldr (fun type => (ofType type).append) {}

theorem append_assoc (first second third : Declarations σ) :
    (first.append second).append third = first.append (second.append third) := by
  simp [append, List.append_assoc]

theorem append_empty (declarations : Declarations σ) : declarations.append {} = declarations := by
  simp [append]

theorem add_definition {type : TypeDef σ} (written : type.Written) (declarations : Declarations σ) :
    declarations.add type.definition = .ok (declarations.append (ofType type.unbound)) := by
  cases written with
  | scalar _ => simp [add, TypeDef.definition, append, ofType, TypeDef.unbound]
  | object _ _ fields =>
    have declared := mapM_eq_ok_map fun field member => FieldDef.declare_clause (fields field member)
    simp [add, TypeDef.definition, append, ofType, TypeDef.unbound, declared, bind, Except.bind, pure, Except.pure,
      ObjectType.unbound]
  | interface _ fields =>
    have declared := mapM_eq_ok_map fun field member => FieldDef.declare_clause (fields field member)
    simp [add, TypeDef.definition, append, ofType, TypeDef.unbound, declared, bind, Except.bind, pure, Except.pure,
      InterfaceType.unbound]
  | inputObject _ fields =>
    have declared := mapM_eq_ok_map (g := ArgumentDef.clause) (h := id) fun field member =>
      ArgumentDef.declare_clause (fields field member)
    rw [List.map_id] at declared
    simp [add, TypeDef.definition, append, ofType, TypeDef.unbound, declared, bind, Except.bind, pure, Except.pure]

/-- The definitions of types declare these types. -/
theorem foldlM_add {types : List (TypeDef σ)} (written : ∀ type ∈ types, type.Written)
    (declarations : Declarations σ) : (types.map TypeDef.definition).foldlM add declarations =
      .ok (declarations.append (ofTypes (types.map TypeDef.unbound))) := by
  induction types generalizing declarations with
  | nil => exact congrArg Except.ok (append_empty declarations).symm
  | cons type types ih =>
    obtain ⟨first, others⟩ := List.forall_mem_cons.mp written
    rw [List.map_cons, List.foldlM_cons, add_definition first]
    exact (ih others _).trans (congrArg Except.ok (append_assoc _ _ _))

theorem perm_types_cons (type : TypeDef σ) (rest : Declarations σ) :
    ((ofType type).append rest).types.Perm (type :: rest.types) := by
  cases type with
  | scalar name => exact .refl _
  | interface type => simp [append, ofType, types]
  | inputObject type =>
    have middle := @List.perm_middle (TypeDef σ) (.inputObject type)
      (rest.scalars.map .scalar ++ rest.interfaces.map .interface)
      (rest.inputs.map .inputObject ++ rest.objects.map .object)
    simpa [append, ofType, types] using middle
  | object type =>
    have middle := @List.perm_middle (TypeDef σ) (.object type)
      (rest.scalars.map .scalar ++ (rest.interfaces.map .interface ++ rest.inputs.map .inputObject))
      (rest.objects.map .object)
    simpa [append, ofType, types] using middle

theorem perm_types_ofTypes (types : List (TypeDef σ)) : (ofTypes types).types.Perm types := by
  induction types with
  | nil => exact .nil
  | cons type types ih => exact (perm_types_cons type (ofTypes types)).trans (ih.cons type)

theorem flatMap_listedUnder_types (declarations : Declarations σ) (interface : String) :
    declarations.types.flatMap (TypeDef.listedUnder interface) =
      declarations.objects.flatMap fun type => TypeDef.listedUnder interface (.object type) := by
  have none {α : Type} (items : List α) : items.flatMap (fun _ => ([] : List String)) = [] :=
    List.flatMap_eq_nil_iff.mpr fun _ _ => rfl
  simp [types, List.flatMap_append, List.flatMap_map, TypeDef.listedUnder, none]

/-- Object types keep their order, so they are listed in the same order
under every interface. -/
theorem listedUnder_ofTypes (types : List (TypeDef σ)) (interface : String) :
    (ofTypes types).types.flatMap (TypeDef.listedUnder interface) =
      types.flatMap (TypeDef.listedUnder interface) := by
  induction types with
  | nil => rfl
  | cons type types ih =>
    rw [List.flatMap_cons, ← ih, flatMap_listedUnder_types, flatMap_listedUnder_types]
    cases type <;> simp [ofTypes, append, ofType, TypeDef.listedUnder]

theorem mem_types {declarations : Declarations σ} :
    (∀ type ∈ declarations.interfaces, .interface type ∈ declarations.types) ∧
      ∀ type ∈ declarations.objects, .object type ∈ declarations.types := by
  constructor <;> intro type member <;> simp [types, member]

/-- Types without behaviour stay as they are if nothing is to be bound to them. -/
theorem bind_empty {declarations : Declarations σ} (unbound : ∀ type ∈ declarations.types, type.unbound = type) :
    ({} : Bindings σ).bind declarations = declarations := by
  have interfaces : ∀ type ∈ declarations.interfaces, ({} : Bindings σ).bindInterface type = type := by
    intro type member
    have same : type.unbound = type := TypeDef.interface.inj (unbound _ (mem_types.1 type member))
    have none : type.resolveType = none := (congrArg InterfaceType.resolveType same).symm
    simp [Bindings.bindInterface, Entries.get?, ← none]
  have objects : ∀ type ∈ declarations.objects, ({} : Bindings σ).bindObject type = type := by
    intro type member
    exact TypeDef.object.inj (unbound _ (mem_types.2 type member))
  simp only [Bindings.bind, List.map_congr_left interfaces, List.map_congr_left objects, List.map_id']

end Declarations

namespace Schema

/-- What a text that defines a schema declares is registered with what is
bound to it, and is valid. -/
theorem declarations_of_ofText {text : String} {bindings : Bindings σ} {schema : Schema σ}
    (accepted : ofText text bindings = .ok schema) :
    ∃ definitions declarations registered, Definition.ofText? text = some definitions ∧
      Declarations.ofDefinitions definitions = .ok declarations ∧
      registerAll empty (bindings.bind declarations).types = .ok registered ∧ schema.validate = .ok () ∧
      schema = declarations.roots.foldl (fun schema root => schema.setRootType root.1 root.2) registered := by
  unfold ofText at accepted
  split at accepted
  · next definitions read =>
    unfold ofDefinitions at accepted
    split at accepted
    · cases accepted
    · next declarations known =>
      split at accepted
      · cases accepted
      · obtain ⟨registered, registers, rest⟩ := bind_eq_ok.mp accepted
        obtain ⟨valid, same⟩ := check_bind_eq_ok.mp rest
        cases same
        exact ⟨definitions, declarations, registered, read, known, registers, valid, rfl⟩
  · cases accepted

variable (schema : Schema σ)

/-- The roots that the text of a schema names. -/
def namedRoots : List (OperationKind × String) := schema.ownRoots.map fun kind => (kind, schema.rootTypeName kind)

/-- The definitions of a text of a schema declare its types, grouped by their
kinds, and its roots. -/
theorem ofDefinitions_definitions (written : ∀ type ∈ schema.ownTypes, type.Written) :
    Declarations.ofDefinitions schema.definitions =
      .ok { Declarations.ofTypes (schema.ownTypes.map TypeDef.unbound) with roots := schema.namedRoots } := by
  have types (declarations : Declarations σ) := Declarations.foldlM_add written declarations
  have unrooted : (Declarations.ofTypes (schema.ownTypes.map TypeDef.unbound)).roots = [] := by
    generalize schema.ownTypes.map TypeDef.unbound = types
    induction types with
    | nil => rfl
    | cons type types ih => cases type <;> exact ih
  rw [Declarations.ofDefinitions, definitions, namedRoots]
  cases schema.ownRoots with
  | nil =>
    rw [List.nil_append, types]
    simp [Declarations.append, unrooted]
  | cons kind kinds =>
    have roots : ((kind :: kinds).map fun kind => rootOf kind (schema.rootTypeName kind)).mapM RootClause.declare =
        .ok ((kind :: kinds).map fun kind => (kind, schema.rootTypeName kind)) :=
      mapM_eq_ok_map fun _ _ => rfl
    have first :
        Declarations.add {} (.roots ((kind :: kinds).map fun kind => rootOf kind (schema.rootTypeName kind))) =
          .ok ({ roots := (kind :: kinds).map fun kind => (kind, schema.rootTypeName kind) } : Declarations σ) := by
      rw [Declarations.add, roots]
      rfl
    rw [List.singleton_append, List.foldlM_cons, first]
    refine (types _).trans (congrArg Except.ok ?_)
    simp [Declarations.append, unrooted]

/-- Naming the roots of a schema that has the default ones gives it the roots of
the schema they are taken from. -/
theorem foldl_namedRoots {other : Schema σ} (query : other.queryType = "Query")
    (mutation : other.mutationType = "Mutation") :
    schema.namedRoots.foldl (fun other root => other.setRootType root.1 root.2) other =
      other.withRoots schema.queryType schema.mutationType := by
  obtain ⟨types, implementors, resolvers, queryType, mutationType⟩ := other
  subst query mutation
  by_cases query : schema.queryType = "Query" <;> by_cases mutation : schema.mutationType = "Mutation" <;>
    simp [namedRoots, ownRoots, rootTypeName, OperationKind.defaultTypeName, setRootType, withRoots,
      query, mutation]

end Schema

end SelectionEngine
