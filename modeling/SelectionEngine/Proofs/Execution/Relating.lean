import SelectionEngine.Proofs.Execution.Completion
import SelectionEngine.Proofs.Schema.WithoutResolvers
import SelectionEngine.Proofs.Task.Sequencing

namespace SelectionEngine.Run

variable {ρ ρ' σ τ : Type}

/-- Two runs that differ only in the resolvers bound to their types and
in how they carry out tasks, and a relation that holds between the
tasks they carry out. -/
structure Related (R : TaskRelation σ τ) (run : Run ρ σ) (other : Run ρ' τ) : Prop where
  schema : run.schema.withoutResolvers = other.schema.withoutResolvers
  variableValues : run.variableValues = other.variableValues
  gather {α : Type} {tasks : List (Task σ α)} {others : List (Task τ α)} :
    List.Forall₂ R.Holds tasks others → R.Holds (run.gather tasks) (other.gather others)
  dispatch (info : ResolveInfo) : R.Holds (run.dispatch info) (other.dispatch info)

/-- The relation holds between the executions on objects of one type. -/
def ExecutionsRelated (R : TaskRelation σ τ) (execute : ObjectExecution ρ σ) (other : ObjectExecution ρ' τ) :
    Prop :=
  ∀ type type', type.withoutResolvers = type'.withoutResolvers → ∀ value path,
    R.Holds (execute type value path) (other type' value path)

namespace Related

variable {R : TaskRelation σ τ} {run : Run ρ σ} {other : Run ρ' τ}

theorem fieldGroups (related : run.Related R other) {type : ObjectType ρ} {type' : ObjectType ρ'}
    (same : type.withoutResolvers = type'.withoutResolvers) (selections : List Selection) :
    run.schema.fieldGroups type selections = other.schema.fieldGroups type' selections := by
  rw [← Schema.fieldGroups_withoutResolvers, related.schema, same, Schema.fieldGroups_withoutResolvers]

theorem coerceArguments (related : run.Related R other) (arguments : List ArgumentDef)
    (raw : Entries String InputValue) (field : String) :
    run.schema.coerceArguments arguments raw run.variableValues field =
      other.schema.coerceArguments arguments raw other.variableValues field := by
  rw [← Schema.coerceArguments_withoutResolvers, related.schema, related.variableValues,
    Schema.coerceArguments_withoutResolvers]

theorem completeList (related : run.Related R other) {parentType field : String}
    {completeItem : Value → Path → Task σ (Completed Value)}
    {otherItem : Value → Path → Task τ (Completed Value)}
    (items : ∀ item path, R.Holds (completeItem item path) (otherItem item path)) (value : Value)
    (path : Path) : R.Holds (run.completeList parentType field completeItem value path)
      (other.completeList parentType field otherItem value path) := by
  cases value with
  | list values =>
    refine R.bind (related.gather ?_) fun _ => R.done _
    rw [List.forall₂_map_left_iff, List.forall₂_map_right_iff, List.forall₂_same]
    exact fun entry _ => items entry.1 _
  | _ => exact R.done _

section

variable {execute : ObjectExecution ρ σ} {otherExecute : ObjectExecution ρ' τ} {parentType field : String}

/-- Completing at a place follows from completing its content. -/
theorem complete_of_inner {type : TypeRef}
    (inner : ∀ value path, R.Holds (run.completeInner execute parentType field type value path)
      (other.completeInner otherExecute parentType field type value path)) (value : Value) (path : Path) :
    R.Holds (run.complete execute parentType field type value path)
      (other.complete otherExecute parentType field type value path) := by
  cases type with
  | nonNull type =>
    by_cases null : value = .null
    · simp only [null, Run.complete, completeInner_null, Task.done_bind]
      exact R.done _
    · simpa only [completeInner_nonNull _ _ _ _ null] using inner value path
  | _ => exact R.bind (inner value path) fun _ => R.done _

variable (executions : ExecutionsRelated R execute otherExecute)

include executions

theorem completeObject {type : ObjectType ρ} {type' : ObjectType ρ'}
    (same : type.withoutResolvers = type'.withoutResolvers) (value : Value) (path : Path) :
    R.Holds (Run.completeObject execute type value path)
      (Run.completeObject otherExecute type' value path) := by
  have name : type.name = type'.name := congrArg ObjectType.name same
  cases value with
  | object entries => exact R.bind (executions type type' same _ path) fun _ => R.done _
  | _ =>
    simp only [Run.completeObject, name]
    exact R.done _

theorem completeNamed (related : run.Related R other) (name : String) (value : Value) (path : Path) :
    R.Holds (run.completeNamed execute name value path)
      (other.completeNamed otherExecute name value path) := by
  have same := run.schema.concreteType?_withoutResolvers name value path
  rw [related.schema, Schema.concreteType?_withoutResolvers] at same
  simp only [Run.completeNamed]
  cases one : run.schema.concreteType? name value path with
  | error report =>
    cases two : other.schema.concreteType? name value path with
    | error report' =>
      obtain rfl : report' = report := by simpa [one, two, Except.map] using same
      exact R.done _
    | ok found => simp [one, two, Except.map] at same
  | ok found =>
    cases two : other.schema.concreteType? name value path with
    | error report' => simp [one, two, Except.map] at same
    | ok found' =>
      have types : found'.map ObjectType.withoutResolvers = found.map ObjectType.withoutResolvers := by
        simpa [one, two, Except.map] using same
      rcases found with _ | type <;> rcases found' with _ | type'
      · exact R.done _
      · simp at types
      · simp at types
      · exact completeObject executions (Option.some.inj types).symm value path

omit executions in
/-- Null is completed alike by any two runs. -/
theorem completeInner_of_present {type : TypeRef} {value : Value} {path : Path}
    (present : value ≠ .null → R.Holds (run.completeInner execute parentType field type value path)
      (other.completeInner otherExecute parentType field type value path)) :
    R.Holds (run.completeInner execute parentType field type value path)
      (other.completeInner otherExecute parentType field type value path) := by
  by_cases null : value = .null
  · simp only [null, completeInner_null]
    exact R.done _
  · exact present null

theorem completeInner (related : run.Related R other) (type : TypeRef) (value : Value) (path : Path) :
    R.Holds (run.completeInner execute parentType field type value path)
      (other.completeInner otherExecute parentType field type value path) := by
  induction type generalizing value path with
  | builtIn scalar =>
    refine completeInner_of_present fun present => ?_
    simp only [completeInner_builtIn _ _ _ _ present]
    exact R.done _
  | named name =>
    refine completeInner_of_present fun present => ?_
    simp only [completeInner_named _ _ _ _ present]
    exact completeNamed executions related name value path
  | list inner ih =>
    refine completeInner_of_present fun present => ?_
    simp only [completeInner_list _ _ _ _ present]
    exact related.completeList (complete_of_inner ih) value path
  | nonNull inner ih =>
    refine completeInner_of_present fun present => ?_
    simp only [completeInner_nonNull _ _ _ _ present]
    exact R.bind (ih value path) fun _ => R.done _

theorem executeGroup (related : run.Related R other) {type : ObjectType ρ} {type' : ObjectType ρ'}
    (same : type.withoutResolvers = type'.withoutResolvers) (parent : Value) (path : Path)
    (group : FieldGroup) :
    R.Holds (run.executeGroup execute type parent path group)
      (other.executeGroup otherExecute type' parent path group) := by
  have name : type.name = type'.name := congrArg ObjectType.name same
  have fields := ObjectType.field?_withoutResolvers type group.lead.call.name
  rw [same, ObjectType.field?_withoutResolvers] at fields
  simp only [Run.executeGroup, name]
  split
  · exact R.done _
  · rcases one : type.field? group.lead.call.name with _ | declared <;>
      rcases two : type'.field? group.lead.call.name with _ | declared' <;>
      simp only [one, two, Option.map_some, Option.map_none, Option.some.injEq, reduceCtorEq] at fields
    · exact R.done _
    · have arguments : declared'.arguments = declared.arguments := congrArg FieldDef.arguments fields
      have result : declared'.type = declared.type := congrArg FieldDef.type fields
      have fieldName : declared'.name = declared.name := congrArg FieldDef.name fields
      simp only [related.coerceArguments, arguments, result, fieldName]
      split
      · exact R.done _
      · refine R.bind (related.dispatch _) fun outcome => ?_
        cases outcome with
        | error error => exact R.done _
        | ok value => exact complete_of_inner (completeInner executions related _) value _

end

theorem executeObject (related : run.Related R other) (serial : Bool) (depth : Nat)
    (selections : List Selection) : ExecutionsRelated R (run.executeObject serial depth selections)
      (other.executeObject serial depth selections) := by
  induction depth generalizing serial selections with
  | zero => exact fun _ _ _ _ _ => R.done _
  | succ depth ih =>
    intro type type' same parent path
    simp only [Run.executeObject, related.fieldGroups same]
    refine R.bind ?_ fun _ => R.done _
    have tasks (groups : List FieldGroup) : List.Forall₂ R.Holds
        (groups.map fun group =>
          run.executeGroup (run.executeObject false depth group.selections) type parent path group)
        (groups.map fun group =>
          other.executeGroup (other.executeObject false depth group.selections) type' parent path group) := by
      rw [List.forall₂_map_left_iff, List.forall₂_map_right_iff, List.forall₂_same]
      exact fun group _ => executeGroup (ih false group.selections) related same parent path group
    split
    · exact R.inTurn (tasks _)
    · exact related.gather (tasks _)

end Related

end SelectionEngine.Run
