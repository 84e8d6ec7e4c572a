import SelectionEngine.Execution.Run
import SelectionEngine.Request.Basic
import SelectionEngine.Response
import SelectionEngine.Settings.Configuration

namespace SelectionEngine

/-- Why a request fails as a whole. -/
inductive RequestError where
  | deadlineExceeded (deadline : Duration)
  | missingRootType (kind : OperationKind)
  | maxDepthExceeded (limit : Nat)
deriving DecidableEq

instance : Reportable RequestError where
  message
    | .deadlineExceeded deadline => s!"request exceeded its deadline of {deadline.text}"
    | .missingRootType kind => s!"the schema has no root type for {kind.name} operations"
    | .maxDepthExceeded limit => s!"selection depth exceeds the limit of {limit}"
  code
    | .deadlineExceeded _ => "EXECUTION_DEADLINE_EXCEEDED"
    | .missingRootType _ => "GRAPHQL_VALIDATION_FAILED"
    | .maxDepthExceeded _ => "MAX_DEPTH_LIMIT"

namespace Schema

variable {σ : Type}

/-- The report of the first field at the root whose arguments
cannot be coerced. -/
def rootArgumentError? (schema : Schema σ) (type : ObjectType σ) (request : Request) : Option Report :=
  (schema.fieldGroups type request.selectionSet).findSome? fun group =>
    group.fields.findSome? fun selected =>
      let call := selected.call
      match type.field? call.name with
      | none => none
      | some field =>
        match schema.coerceArguments field.arguments call.arguments request.variableValues call.name with
        | .ok _ => none
        | .error error => some (Reportable.report error (some [.key group.key]))

/-- The run of a request in which fields get their values from their resolvers. -/
def runOf (schema : Schema σ) (settings : ExecutionSettings) (request : Request) : Run σ σ where
  schema := schema
  variableValues := request.variableValues
  parallel := settings.parallelFields
  dispatch := schema.dispatch

/-- The work of an operation, or the report of why it cannot be started. -/
def prepare (schema : Schema σ) (settings : ExecutionSettings) (request : Request) (root : Value) :
    Except Report (Task σ (Completed Object)) :=
  match schema.rootType? request.operation with
  | none => .error (Reportable.report (RequestError.missingRootType request.operation) none)
  | some type =>
    let depth := Selection.depthOfAll request.selectionSet
    if settings.maxDepth < depth then
      .error (Reportable.report (RequestError.maxDepthExceeded settings.maxDepth) none)
    else match schema.rootArgumentError? type request with
      | some report => .error report
      | none =>
        .ok ((schema.runOf settings request).executeObject (request.operation == .mutation) depth
          request.selectionSet type root [])

/-- The response of a finished operation. -/
def respond (completed : Completed Object) : Response :=
  { data := some ((completed.value?.map Value.object).getD .null), errors := completed.errors }

/-- Executes a request on a state and from a root value. -/
def execute (schema : Schema σ) (settings : ExecutionSettings) (request : Request) (root : Value)
    (state : σ) : Response × σ :=
  match schema.prepare settings request root with
  | .error report => (.ofError report, state)
  | .ok task => match settings.deadline with
    | none =>
      let (completed, state) := task.run state
      (respond completed, state)
    | some deadline => match task.runWithin deadline.nanoseconds state with
      | (some completed, state) => (respond completed, state)
      | (none, state) => (.ofError (Reportable.report (RequestError.deadlineExceeded deadline) none), state)

end Schema

end SelectionEngine
