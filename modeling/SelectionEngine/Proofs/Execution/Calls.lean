import SelectionEngine.Proofs.Execution.Simulation

namespace SelectionEngine

variable {σ τ : Type}

section

variable (change : Resolver σ → Resolver τ)

def FieldDef.mapResolver (field : FieldDef σ) : FieldDef τ where
  name := field.name
  type := field.type
  arguments := field.arguments
  resolver := field.resolver.map change

def ObjectType.mapResolvers (type : ObjectType σ) : ObjectType τ where
  name := type.name
  fields := type.fields.map (FieldDef.mapResolver change)
  interfaces := type.interfaces
  isTypeOf := type.isTypeOf

def InterfaceType.mapResolvers (type : InterfaceType σ) : InterfaceType τ where
  name := type.name
  fields := type.fields.map (FieldDef.mapResolver change)
  resolveType := type.resolveType

def TypeDef.mapResolvers : TypeDef σ → TypeDef τ
  | .scalar name => .scalar name
  | .object type => .object (type.mapResolvers change)
  | .interface type => .interface (type.mapResolvers change)
  | .inputObject type => .inputObject type

/-- The schema with other resolvers in the places of its own. -/
def Schema.mapResolvers (schema : Schema σ) : Schema τ where
  types := schema.types.map fun entry => (entry.1, entry.2.mapResolvers change)
  implementors := schema.implementors
  resolvers := schema.resolvers.map fun entry => (entry.1, entry.2.map fun field => (field.1, change field.2))
  queryType := schema.queryType
  mutationType := schema.mutationType

theorem FieldDef.withoutResolver_mapResolver :
    FieldDef.withoutResolver ∘ FieldDef.mapResolver change = FieldDef.withoutResolver := rfl

theorem TypeDef.withoutResolvers_mapResolvers (type : TypeDef σ) :
    (type.mapResolvers change).withoutResolvers = type.withoutResolvers := by
  cases type <;>
    simp only [TypeDef.mapResolvers, TypeDef.withoutResolvers, ObjectType.mapResolvers,
      ObjectType.withoutResolvers, InterfaceType.mapResolvers, InterfaceType.withoutResolvers, List.map_map,
      FieldDef.withoutResolver_mapResolver]

@[simp] theorem Schema.withoutResolvers_mapResolvers (schema : Schema σ) :
    (schema.mapResolvers change).withoutResolvers = schema.withoutResolvers := by
  simp only [Schema.mapResolvers, Schema.withoutResolvers, List.map_map]
  congr 1
  exact List.map_congr_left fun entry _ => congrArg (entry.1, ·) (entry.2.withoutResolvers_mapResolvers change)

@[simp] theorem Schema.resolver?_mapResolvers (schema : Schema σ) (type field : String) :
    (schema.mapResolvers change).resolver? type field = (schema.resolver? type field).map change := by
  simp only [Schema.resolver?, Schema.mapResolvers]
  rw [Entries.get?_map (fun entries : Entries String (Resolver σ) => entries.map fun field =>
    (field.1, change field.2))]
  rcases Entries.get? type schema.resolvers with _ | own
  · rfl
  · exact Entries.get?_map change own field

end

/-- The resolver that first writes down what it is told about the field. -/
def Resolver.recorded (resolver : Resolver σ) : Resolver (σ × List ResolveInfo) := fun info =>
  .act (fun s => (s.1, s.2 ++ [info])) fun _ => (resolver info).besideNotes

theorem Resolver.refines_recorded (resolver : Resolver σ) (info : ResolveInfo) :
    Task.Refines Prod.fst (resolver info) (resolver.recorded info) :=
  .aside (fun _ => rfl) fun _ => Task.refines_besideNotes _

theorem Resolver.moves_recorded (resolver : Resolver σ) (info : ResolveInfo) :
    Task.Moves Task.Appends (resolver.recorded info) :=
  .act (fun _ => ⟨[info], rfl⟩) fun _ => Task.moves_besideNotes _

namespace Schema

variable (schema : Schema σ) (settings : ExecutionSettings) (request : Request) (root : Value) (state : σ)

def recorded : Schema (σ × List ResolveInfo) := schema.mapResolvers Resolver.recorded

/-- The calls of resolvers while a request is executed. -/
def calls : List ResolveInfo := (schema.recorded.execute settings request root (state, [])).2.2

theorem recorded_related : (schema.runOf settings request).Related (Task.Refines.relation Prod.fst)
    (schema.recorded.runOf settings request) where
  schema := (schema.withoutResolvers_mapResolvers Resolver.recorded).symm
  variableValues := rfl
  gather := Run.refines_gather _ (by rfl)
  dispatch info := by
    have bound : schema.recorded.resolver? info.parentType info.field =
        (schema.resolver? info.parentType info.field).map Resolver.recorded :=
      schema.resolver?_mapResolvers Resolver.recorded info.parentType info.field
    simp only [runOf, dispatch, bound]
    rcases schema.resolver? info.parentType info.field with _ | resolver
    · exact .done _
    · exact (resolver.refines_recorded info).bind fun _ => .done _

theorem moves_of_recorded (type field : String) (resolver : Resolver (σ × List ResolveInfo))
    (found : schema.recorded.resolver? type field = some resolver) (info : ResolveInfo) :
    Task.Moves Task.Appends (resolver info) := by
  rw [recorded, resolver?_mapResolvers] at found
  obtain ⟨own, _, rfl⟩ := Option.map_eq_some_iff.mp found
  exact own.moves_recorded info

/-- A request is answered alike whether calls are recorded or not. -/
theorem execute_recorded (noted : List ResolveInfo) :
    ∃ called, schema.recorded.execute settings request root (state, noted) =
      ((schema.execute settings request root state).1, (schema.execute settings request root state).2,
        noted ++ called) := by
  have seen := execute_of_refines (schema.recorded_related settings request) root (state, noted)
  have keeps (s s' : σ × List ResolveInfo) : Task.Appends s s' → (∃ called, s.2 = noted ++ called) →
      ∃ called, s'.2 = noted ++ called := by
    rintro ⟨written, added⟩ ⟨called, before⟩
    exact ⟨called ++ written, by rw [added, before, List.append_assoc]⟩
  obtain ⟨called, added⟩ : ∃ called, (schema.recorded.execute settings request root (state, noted)).2.2 =
      noted ++ called :=
    execute_keeps schema.moves_of_recorded keeps root ⟨[], by simp⟩
  exact ⟨called, Prod.ext seen.1 (Prod.ext seen.2 added)⟩

end Schema

end SelectionEngine
