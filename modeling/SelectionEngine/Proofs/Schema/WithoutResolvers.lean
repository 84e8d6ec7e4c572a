import SelectionEngine.Execution.Operation
import SelectionEngine.Proofs.Coercion.SameInputs
import SelectionEngine.Proofs.Entries

namespace SelectionEngine

variable {σ : Type}

def FieldDef.withoutResolver (field : FieldDef σ) : FieldDef Unit where
  name := field.name
  type := field.type
  arguments := field.arguments

def ObjectType.withoutResolvers (type : ObjectType σ) : ObjectType Unit where
  name := type.name
  fields := type.fields.map FieldDef.withoutResolver
  interfaces := type.interfaces
  isTypeOf := type.isTypeOf

def InterfaceType.withoutResolvers (type : InterfaceType σ) : InterfaceType Unit where
  name := type.name
  fields := type.fields.map FieldDef.withoutResolver
  resolveType := type.resolveType

def TypeDef.withoutResolvers : TypeDef σ → TypeDef Unit
  | .scalar name => .scalar name
  | .object type => .object type.withoutResolvers
  | .interface type => .interface type.withoutResolvers
  | .inputObject type => .inputObject type

/-- What a schema says apart from the resolvers bound to its fields. -/
def Schema.withoutResolvers (schema : Schema σ) : Schema Unit where
  types := schema.types.map fun entry => (entry.1, entry.2.withoutResolvers)
  implementors := schema.implementors
  queryType := schema.queryType
  mutationType := schema.mutationType

@[simp] theorem ObjectType.field?_withoutResolvers (type : ObjectType σ) (name : String) :
    type.withoutResolvers.field? name = (type.field? name).map FieldDef.withoutResolver := by
  simp only [ObjectType.field?, ObjectType.withoutResolvers, List.find?_map]
  rfl

namespace Schema

section

variable {τ : Type} {schema : Schema σ} {other : Schema τ} {type : ObjectType σ} {type' : ObjectType τ}

mutual

/-- What is collected depends on the names of the fields and on the type
conditions that are met. -/
theorem collect_congr (fields : ∀ name, (type.field? name).isSome = (type'.field? name).isSome)
    (applies : ∀ condition, schema.applies type condition = other.applies type' condition) :
    (selection : Selection) → (groups : List FieldGroup) →
    schema.collect type selection groups = other.collect type' selection groups
  | .field call selections, groups => by simp only [collect, fields]
  | .fragment condition selections, groups => by
    simp only [collect, applies, collectAll_congr fields applies selections groups]

theorem collectAll_congr (fields : ∀ name, (type.field? name).isSome = (type'.field? name).isSome)
    (applies : ∀ condition, schema.applies type condition = other.applies type' condition) :
    (selections : List Selection) → (groups : List FieldGroup) →
    schema.collectAll type selections groups = other.collectAll type' selections groups
  | [], _ => rfl
  | selection :: rest, groups => by
    simp only [collectAll, collect_congr fields applies selection groups, collectAll_congr fields applies rest]

end

end

variable (schema : Schema σ)

@[simp] theorem lookup?_withoutResolvers (name : String) :
    schema.withoutResolvers.lookup? name = (schema.lookup? name).map TypeDef.withoutResolvers :=
  Entries.get?_map TypeDef.withoutResolvers schema.types name

theorem applies_withoutResolvers (type : ObjectType σ) (condition : Option String) :
    schema.withoutResolvers.applies type.withoutResolvers condition = schema.applies type condition := by
  cases condition <;> rfl

@[simp] theorem fieldGroups_withoutResolvers (type : ObjectType σ) (selections : List Selection) :
    schema.withoutResolvers.fieldGroups type.withoutResolvers selections = schema.fieldGroups type selections := by
  have fields (name : String) : (type.withoutResolvers.field? name).isSome = (type.field? name).isSome := by
    rw [ObjectType.field?_withoutResolvers, Option.isSome_map]
  exact collectAll_congr fields (schema.applies_withoutResolvers type) selections []

theorem sameInputs_withoutResolvers : schema.withoutResolvers.SameInputs schema where
  types name := by
    rw [lookup?_withoutResolvers]
    rcases schema.lookup? name with _ | (_ | _ | _ | _) <;> rfl
  defaults := by
    simp only [defaultCount, withoutResolvers, List.flatMap_map]
    congr 2
    funext entry
    rcases entry with ⟨_, _ | _ | _ | _⟩ <;> rfl

@[simp] theorem coerceArguments_withoutResolvers (arguments : List ArgumentDef)
    (raw : Entries String InputValue) (variableValues : Object) (field : String) :
    schema.withoutResolvers.coerceArguments arguments raw variableValues field =
      schema.coerceArguments arguments raw variableValues field := by
  rw [schema.sameInputs_withoutResolvers.coerceArguments]

theorem acceptedBy_withoutResolvers (value : Value) (name : String) :
    schema.withoutResolvers.acceptedBy value name = schema.acceptedBy value name := by
  simp only [acceptedBy, lookup?_withoutResolvers]
  rcases schema.lookup? name with _ | (_ | _ | _ | _) <;> rfl

theorem resolveConcrete_withoutResolvers (interface : InterfaceType σ) (value : Value) :
    schema.withoutResolvers.resolveConcrete interface.withoutResolvers value =
      schema.resolveConcrete interface value := by
  have same : schema.withoutResolvers.acceptedBy value = schema.acceptedBy value :=
    funext (schema.acceptedBy_withoutResolvers value)
  simp only [resolveConcrete, same]
  rfl

@[simp] theorem concreteType?_withoutResolvers (name : String) (value : Value) (path : Path) :
    schema.withoutResolvers.concreteType? name value path =
      (schema.concreteType? name value path).map (Option.map ObjectType.withoutResolvers) := by
  simp only [concreteType?, lookup?_withoutResolvers]
  rcases schema.lookup? name with _ | (_ | _ | interface | _)
  case some.interface =>
    simp only [Option.map_some, TypeDef.withoutResolvers, resolveConcrete_withoutResolvers]
    rcases schema.resolveConcrete interface value with _ | concrete
    · rfl
    · dsimp only
      rcases schema.lookup? concrete with _ | (_ | _ | _ | _) <;> rfl
  all_goals rfl

@[simp] theorem rootType?_withoutResolvers (kind : OperationKind) :
    schema.withoutResolvers.rootType? kind = (schema.rootType? kind).map ObjectType.withoutResolvers := by
  have same : schema.withoutResolvers.rootTypeName kind = schema.rootTypeName kind := by cases kind <;> rfl
  simp only [rootType?, lookup?_withoutResolvers, same]
  rcases schema.lookup? (schema.rootTypeName kind) with _ | (_ | _ | _ | _) <;> rfl

@[simp] theorem rootArgumentError?_withoutResolvers (type : ObjectType σ) (request : Request) :
    schema.withoutResolvers.rootArgumentError? type.withoutResolvers request =
      schema.rootArgumentError? type request := by
  simp only [rootArgumentError?, fieldGroups_withoutResolvers, ObjectType.field?_withoutResolvers]
  congr 1
  funext group
  congr 1
  funext selected
  rcases type.field? selected.call.name with _ | field
  · rfl
  · simp only [Option.map_some, coerceArguments_withoutResolvers]
    rfl

end Schema

end SelectionEngine
