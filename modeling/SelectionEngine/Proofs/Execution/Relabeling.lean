import SelectionEngine.Proofs.Execution.Completion
import SelectionEngine.Proofs.Execution.MappedCalls
import SelectionEngine.Proofs.Execution.Responses
import SelectionEngine.Proofs.Task.Tracking

namespace SelectionEngine

open SelectionEngine.Task (Tracks)

variable {ρ σ τ : Type}

section

variable (r : String → String)

/-- The field under the key that a new name for its own key gives it. -/
def FieldCall.relabel (call : FieldCall) : FieldCall := { call with label := some (r call.responseKey) }

/-- The request in which each field has an alias, made of its key. -/
def Request.relabel (request : Request) : Request :=
  { request with selectionSet := Selection.mapCallsAll (FieldCall.relabel r) request.selectionSet }

def PathElement.relabel : PathElement → PathElement
  | index n => index n
  | key name => key (r name)

def Path.relabel (path : Path) : Path := path.map (PathElement.relabel r)

def Report.relabel (report : Report) : Report := { report with path := report.path.map (Path.relabel r) }

def ResolveInfo.relabel (info : ResolveInfo) : ResolveInfo := { info with path := info.path.relabel r }

def Resolution.relabel (resolution : Resolution) : Resolution :=
  { resolution with info := resolution.info.relabel r }

end

variable {r : String → String}

theorem FieldCall.rekeys_relabel (injective : Function.Injective r) : FieldCall.Rekeys (FieldCall.relabel r) r where
  name _ := rfl
  responseKey _ := rfl
  injective := injective

theorem Path.relabel_join (path : Path) (element : PathElement) :
    (path.join element).relabel r = (path.relabel r).join (element.relabel r) := List.map_append

variable (r) in
theorem Schema.concreteType?_relabel (schema : Schema ρ) (name : String) (value : Value) (path : Path) :
    schema.concreteType? name value (path.relabel r) =
      (schema.concreteType? name value path).mapError (Report.relabel r) := by
  simp only [concreteType?]
  split
  · rfl
  · rfl
  · split
    · split <;> rfl
    · rfl
  · rfl
  · rfl

namespace Run

variable (r) in
theorem nullError_relabel (parentType field : String) (inner : TypeRef) (path : Path) :
    nullError parentType field inner (path.relabel r) = (nullError parentType field inner path).relabel r := by
  have last : (path.relabel r).getLast? = path.getLast?.map (PathElement.relabel r) := List.getLast?_map ..
  simp only [nullError, last]
  rcases path.getLast? with _ | (_ | _) <;> rfl

/-- Work on one run goes on alongside that on another one,
whatever they come to. -/
abbrev Alongside {α β : Type} (view : τ → σ) (task : Task σ α) (fine : Task τ β) : Prop :=
  Tracks view (fun _ _ => True) task fine

variable {view : τ → σ}

theorem alongside_done {α β : Type} (a : α) (b : β) : Alongside view (.done a) (.done b) := .done trivial

theorem alongside_bind_done {α β α' β' : Type} {R : α → α' → Prop} {task : Task σ α} {fine : Task τ α'}
    (tracks : Tracks view R task fine) (f : α → β) (g : α' → β') :
    Alongside view (task.bind fun a => .done (f a)) (fine.bind fun a => .done (g a)) :=
  tracks.bind fun _ _ _ => .done trivial

/-- A run on a request with other keys. Fields get the same values although
their paths are different. -/
structure Relabels (view : τ → σ) (r : String → String) (run : Run ρ σ) (fine : Run ρ τ) : Prop where
  schema : run.schema = fine.schema
  variableValues : run.variableValues = fine.variableValues
  parallel : run.parallel = fine.parallel
  dispatch (info : ResolveInfo) : Tracks view Eq (run.dispatch (info.relabel r)) (fine.dispatch info)

/-- Executions on the objects of a type go on alongside each other, at
paths with other keys. -/
def ExecutionsAlongside (view : τ → σ) (r : String → String) (execute : ObjectExecution ρ σ)
    (fine : ObjectExecution ρ τ) : Prop :=
  ∀ type value path, Alongside view (execute type value (path.relabel r)) (fine type value path)

namespace Relabels

variable {run : Run ρ σ} {fine : Run ρ τ} (relabels : run.Relabels view r fine)

include relabels

theorem gather {α β : Type} {R : α → β → Prop} {tasks : List (Task σ α)} {others : List (Task τ β)}
    (related : List.Forall₂ (Tracks view R) tasks others) :
    Tracks view (List.Forall₂ R) (run.gather tasks) (fine.gather others) := by
  simp only [Run.gather, relabels.parallel]
  split
  · exact Tracks.all related
  · exact Tracks.inTurn related

section

variable {execute : ObjectExecution ρ σ} {fineExecute : ObjectExecution ρ τ} {parentType field : String}

theorem completeList {completeItem : Value → Path → Task σ (Completed Value)}
    {fineItem : Value → Path → Task τ (Completed Value)}
    (items : ∀ item path, Alongside view (completeItem item (path.relabel r)) (fineItem item path)) (value : Value)
    (path : Path) : Alongside view (run.completeList parentType field completeItem value (path.relabel r))
      (fine.completeList parentType field fineItem value path) := by
  cases value with
  | list values =>
    have each : List.Forall₂ (Alongside view)
        (values.zipIdx.map fun entry => completeItem entry.1 ((path.relabel r).join (.index entry.2)))
        (values.zipIdx.map fun entry => fineItem entry.1 (path.join (.index entry.2))) := by
      rw [List.forall₂_map_left_iff, List.forall₂_map_right_iff, List.forall₂_same]
      intro entry _
      have item := items entry.1 (path.join (.index entry.2))
      rwa [Path.relabel_join] at item
    exact alongside_bind_done (relabels.gather each) _ _
  | _ => exact alongside_done _ _

omit relabels in
/-- Completing at a place follows from completing its content. -/
theorem complete_of_inner {type : TypeRef}
    (inner : ∀ value path, Alongside view (run.completeInner execute parentType field type value (path.relabel r))
      (fine.completeInner fineExecute parentType field type value path)) (value : Value) (path : Path) :
    Alongside view (run.complete execute parentType field type value (path.relabel r))
      (fine.complete fineExecute parentType field type value path) := by
  by_cases nullable : type.isNonNull = false
  · rw [complete_of_nullable _ _ _ _ _ nullable, complete_of_nullable _ _ _ _ _ nullable]
    exact alongside_bind_done (inner value path) _ _
  · cases type with
    | nonNull type =>
      by_cases null : value = .null
      · simp only [null, Run.complete, completeInner_null, Task.done_bind]
        exact alongside_done _ _
      · simpa only [completeInner_nonNull _ _ _ _ null] using inner value path
    | _ => exact absurd rfl nullable

variable (executions : ExecutionsAlongside view r execute fineExecute)

include executions

theorem completeNamed (name : String) (value : Value) (path : Path) :
    Alongside view (run.completeNamed execute name value (path.relabel r))
      (fine.completeNamed fineExecute name value path) := by
  simp only [Run.completeNamed, relabels.schema, Schema.concreteType?_relabel]
  rcases fine.schema.concreteType? name value path with report | (_ | type)
  · exact alongside_done _ _
  · exact alongside_done _ _
  · cases value with
    | object entries => exact alongside_bind_done (executions type _ path) _ _
    | _ => exact alongside_done _ _

theorem completeInner (type : TypeRef) (value : Value) (path : Path) :
    Alongside view (run.completeInner execute parentType field type value (path.relabel r))
      (fine.completeInner fineExecute parentType field type value path) := by
  induction type generalizing value path with
  | builtIn scalar =>
    by_cases null : value = .null
    · simp only [null, completeInner_null]
      exact alongside_done _ _
    · simp only [completeInner_builtIn _ _ _ _ null]
      exact alongside_done _ _
  | named name =>
    by_cases null : value = .null
    · simp only [null, completeInner_null]
      exact alongside_done _ _
    · simp only [completeInner_named _ _ _ _ null]
      exact relabels.completeNamed executions name value path
  | list inner ih =>
    by_cases null : value = .null
    · simp only [null, completeInner_null]
      exact alongside_done _ _
    · simp only [completeInner_list _ _ _ _ null]
      exact relabels.completeList (complete_of_inner ih) value path
  | nonNull inner ih =>
    by_cases null : value = .null
    · simp only [null, completeInner_null]
      exact alongside_done _ _
    · simp only [completeInner_nonNull _ _ _ _ null]
      exact alongside_bind_done (ih value path) _ _

theorem executeGroup (type : ObjectType ρ) (parent : Value) (path : Path) (group : FieldGroup) :
    Alongside view
      (run.executeGroup execute type parent (path.relabel r) (group.mapCalls (FieldCall.relabel r) r))
      (fine.executeGroup fineExecute type parent path group) := by
  have below : (path.relabel r).join (.key (r group.key)) = (path.join (.key group.key)).relabel r :=
    (Path.relabel_join path (.key group.key)).symm
  simp only [Run.executeGroup, FieldGroup.mapCalls, SelectedField.mapCalls, FieldCall.relabel, relabels.schema,
    relabels.variableValues, below]
  split
  · exact alongside_done _ _
  · split
    · exact alongside_done _ _
    · next field _ =>
      split
      · exact alongside_done _ _
      · next arguments _ =>
        have asked := relabels.dispatch (group.info type field parent path arguments)
        refine asked.bind fun outcome _ same => ?_
        subst same
        cases outcome with
        | error error => exact alongside_done _ _
        | ok value =>
          exact complete_of_inner (relabels.completeInner executions field.type) value (path.join (.key group.key))

end

/-- The same work is done below an object when the fields selected
there have other keys. -/
theorem executeObject (injective : Function.Injective r) (serial : Bool) (depth : Nat)
    (selections : List Selection) :
    ExecutionsAlongside view r
      (run.executeObject serial depth (Selection.mapCallsAll (FieldCall.relabel r) selections))
      (fine.executeObject serial depth selections) := by
  induction depth generalizing serial selections with
  | zero => exact fun _ _ _ => alongside_done _ _
  | succ depth ih =>
    intro type parent path
    have each : List.Forall₂ (Alongside view)
        ((fine.schema.fieldGroups type selections).map fun group =>
          run.executeGroup
            (run.executeObject false depth (Selection.mapCallsAll (FieldCall.relabel r) group.selections))
            type parent (path.relabel r) (group.mapCalls (FieldCall.relabel r) r))
        ((fine.schema.fieldGroups type selections).map fun group =>
          fine.executeGroup (fine.executeObject false depth group.selections) type parent path group) := by
      rw [List.forall₂_map_left_iff, List.forall₂_map_right_iff, List.forall₂_same]
      exact fun group _ => relabels.executeGroup (ih false group.selections) type parent path group
    simp only [Run.executeObject, relabels.schema,
      fine.schema.fieldGroups_mapCalls type (FieldCall.rekeys_relabel injective), List.map_map, Function.comp_def,
      FieldGroup.selections_mapCalls]
    split
    · exact alongside_bind_done (Tracks.inTurn each) _ _
    · exact alongside_bind_done (relabels.gather each) _ _

omit relabels in
/-- What is noted about fields is noted about those with the other keys. -/
theorem noting (relabels : run.Relabels view r fine) :
    run.noting.Relabels (fun t : τ × List Resolution => (view t.1, t.2.map (Resolution.relabel r))) r
      fine.noting where
  schema := relabels.schema
  variableValues := relabels.variableValues
  parallel := relabels.parallel
  dispatch info := (relabels.dispatch info).noting (Resolution.relabel r) fun _ _ same => by
    rw [same]
    rfl

end Relabels

end Run

namespace Schema

variable (schema : Schema σ)

/-- Resolvers do the same wherever their values go in the response. -/
def IgnoresPath : Prop :=
  ∀ type field resolver, schema.resolver? type field = some resolver →
    ∀ info path, resolver { info with path := path } = resolver info

variable {schema} (ignores : schema.IgnoresPath) (settings : ExecutionSettings) (request : Request) (root : Value)

include ignores in
theorem IgnoresPath.dispatch (info : ResolveInfo) (path : Path) :
    schema.dispatch { info with path := path } = schema.dispatch info := by
  simp only [Schema.dispatch]
  cases bound : schema.resolver? info.parentType info.field with
  | none => rfl
  | some resolver => simp only [ignores _ _ _ bound info path]

variable (r) in
include ignores in
theorem IgnoresPath.relabels :
    (schema.runOf settings (request.relabel r)).Relabels id r (schema.runOf settings request) where
  schema := rfl
  variableValues := rfl
  parallel := rfl
  dispatch info := by
    have same : schema.dispatch (info.relabel r) = schema.dispatch info :=
      ignores.dispatch info (info.path.relabel r)
    simp only [runOf, same]
    exact Tracks.refl (schema.dispatch info)

theorem argumentError?_relabel (type : ObjectType σ) (variableValues : Object) (key : String) (call : FieldCall) :
    schema.argumentError? type variableValues (r key) (call.relabel r) =
      (schema.argumentError? type variableValues key call).map (Report.relabel r) := by
  simp only [argumentError?, FieldCall.relabel]
  split
  · rfl
  · split <;> rfl

variable (injective : Function.Injective r)

include injective

theorem rootArgumentError?_relabel (type : ObjectType σ) :
    schema.rootArgumentError? type (request.relabel r) =
      (schema.rootArgumentError? type request).map (Report.relabel r) := by
  rw [rootArgumentError?_eq, rootArgumentError?_eq, Request.relabel,
    fieldGroups_mapCalls schema type (FieldCall.rekeys_relabel injective), List.findSome?_map, List.map_findSome?]
  congr 1
  funext group
  simp only [Function.comp_apply, FieldGroup.fields_mapCalls, List.findSome?_map, List.map_findSome?]
  congr 1
  funext field
  exact argumentError?_relabel type request.variableValues group.key field.call

include ignores

/-- A request with other keys is refused for the same reason, or the
same work is done for it. -/
theorem prepare_relabel :
    (∃ report, schema.prepare settings request root = .error report ∧
      schema.prepare settings (request.relabel r) root = .error (report.relabel r)) ∨
    ∃ task other, schema.prepare settings request root = .ok task ∧
      schema.prepare settings (request.relabel r) root = .ok other ∧ Run.Alongside id other task := by
  have depth : Selection.depthOfAll (request.relabel r).selectionSet = Selection.depthOfAll request.selectionSet :=
    Selection.depthOfAll_mapCallsAll (FieldCall.relabel r) request.selectionSet
  have operation : (request.relabel r).operation = request.operation := rfl
  simp only [prepare, depth, operation]
  cases found : schema.rootType? request.operation with
  | none => exact .inl ⟨_, rfl, rfl⟩
  | some type =>
    by_cases deep : settings.maxDepth < Selection.depthOfAll request.selectionSet
    · simp only [if_pos deep]
      exact .inl ⟨_, rfl, rfl⟩
    · simp only [if_neg deep, rootArgumentError?_relabel request injective type]
      cases schema.rootArgumentError? type request with
      | some report => exact .inl ⟨report, rfl, rfl⟩
      | none =>
        have alongside := (ignores.relabels r settings request).executeObject injective
          (request.operation == .mutation) (Selection.depthOfAll request.selectionSet) request.selectionSet
        exact .inr ⟨_, _, rfl, rfl, alongside type root []⟩

/-- The fields of a request with other keys get the same values. -/
theorem resolutions_relabel (state : σ) :
    schema.resolutions settings (request.relabel r) root state =
      (schema.resolutions settings request root state).map (Resolution.relabel r) := by
  have depth : Selection.depthOfAll (request.relabel r).selectionSet = Selection.depthOfAll request.selectionSet :=
    Selection.depthOfAll_mapCallsAll (FieldCall.relabel r) request.selectionSet
  have operation : (request.relabel r).operation = request.operation := rfl
  simp only [resolutions, depth, operation]
  split
  · rfl
  · next type _ =>
    have alongside := (ignores.relabels r settings request).noting.executeObject injective
      (request.operation == .mutation) (Selection.depthOfAll request.selectionSet) request.selectionSet type root []
    exact congrArg Prod.snd (alongside.run (state, [])).2

end Schema

end SelectionEngine
