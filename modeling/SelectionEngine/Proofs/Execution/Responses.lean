import SelectionEngine.Execution.Operation
import SelectionEngine.Proofs.Execution.Chronicle

namespace SelectionEngine.Schema

variable {σ : Type} (schema : Schema σ) (settings : ExecutionSettings) (request : Request) (root : Value)
  (state : σ)

/-- The fields that are asked for their values while a request is executed, in
the order in which they get them, with what became of each. -/
def resolutions : List Resolution :=
  match schema.rootType? request.operation with
  | none => []
  | some type =>
    let task := (schema.runOf settings request).noting.executeObject (request.operation == .mutation)
      (Selection.depthOfAll request.selectionSet) request.selectionSet type root []
    (task.run (state, [])).2.2

/-- Everything that happens to fields while a request is executed, in the
order in which it happens. -/
def chronicle : List (Event σ) :=
  match schema.rootType? request.operation with
  | none => []
  | some type =>
    let task := (schema.runOf settings request).chronicle.executeObject (request.operation == .mutation)
      (Selection.depthOfAll request.selectionSet) request.selectionSet type root []
    (task.run (state, [])).2.2

theorem resolutions_eq_chronicle : schema.resolutions settings request root state =
    (schema.chronicle settings request root state).filterMap Event.resolution? := by
  unfold resolutions chronicle
  split
  · rfl
  · next type _ =>
    have seen := ((schema.runOf settings request).noting_refines_chronicle.executeObject
      (request.operation == .mutation) (Selection.depthOfAll request.selectionSet) request.selectionSet
      type type rfl root []).run (state, [])
    exact (congrArg Prod.snd seen.2).symm

/-- The report of a field whose arguments cannot be coerced, at its key. -/
def argumentError? (type : ObjectType σ) (variableValues : Object) (key : String) (call : FieldCall) :
    Option Report :=
  match type.field? call.name with
  | none => none
  | some field =>
    match schema.coerceArguments field.arguments call.arguments variableValues call.name with
    | .ok _ => none
    | .error error => some (Reportable.report error (some [.key key]))

theorem rootArgumentError?_eq (type : ObjectType σ) :
    schema.rootArgumentError? type request =
      (schema.fieldGroups type request.selectionSet).findSome? fun group =>
        group.fields.findSome? fun field =>
          schema.argumentError? type request.variableValues group.key field.call :=
  rfl

variable {schema settings request root state}

theorem path_of_argumentError? {type : ObjectType σ} {variableValues : Object} {key : String} {call : FieldCall}
    {report : Report} (failed : schema.argumentError? type variableValues key call = some report) :
    report.path = some [.key key] := by
  simp only [argumentError?] at failed
  split at failed
  · cases failed
  · split at failed <;> cases failed
    rfl

theorem rootType?_eq_some {kind : OperationKind} {type : ObjectType σ} :
    schema.rootType? kind = some type ↔ schema.lookup? (schema.rootTypeName kind) = some (.object type) := by
  unfold rootType?
  constructor
  · intro found
    split at found
    · next own =>
      cases found
      exact own
    · cases found
  · intro own
    rw [own]

theorem prepare_eq_ok {task : Task σ (Completed Object)}
    (accepted : schema.prepare settings request root = .ok task) :
    ∃ type, schema.rootType? request.operation = some type ∧
      Selection.depthOfAll request.selectionSet ≤ settings.maxDepth ∧
      schema.rootArgumentError? type request = none ∧
      task = (schema.runOf settings request).executeObject (request.operation == .mutation)
        (Selection.depthOfAll request.selectionSet) request.selectionSet type root [] := by
  simp only [prepare] at accepted
  split at accepted
  · cases accepted
  · next type found =>
    split at accepted
    · cases accepted
    · next shallow =>
      split at accepted
      · cases accepted
      · next valid =>
        cases accepted
        exact ⟨type, found, Nat.le_of_not_lt shallow, valid, rfl⟩

/-- A response has data only if the request was accepted and its
work came to an end. -/
theorem execute_of_data {data : Value}
    (answered : (schema.execute settings request root state).1.data = some data) :
    ∃ task, schema.prepare settings request root = .ok task ∧
      schema.execute settings request root state = (respond (task.run state).1, (task.run state).2) := by
  simp only [execute] at answered ⊢
  split at answered
  · cases answered
  · next task accepted =>
    refine ⟨task, accepted, ?_⟩
    split at answered
    · rfl
    · next deadline _ =>
      cases within : task.runWithin deadline.nanoseconds state with
      | mk completed? after =>
        rcases completed? with _ | completed
        · simp [within, Response.ofError] at answered
        · simp only [Task.run_eq_of_runWithin within]

/-- A response without data has one error. The request was
refused, or it was too late. -/
theorem report_of_no_data (failed : (schema.execute settings request root state).1.data = none) :
    ∃ report, (schema.execute settings request root state).1.errors = [report] ∧
      (schema.prepare settings request root = .error report ∨
        ∃ deadline, report = Reportable.report (RequestError.deadlineExceeded deadline) none) := by
  simp only [execute] at failed ⊢
  split at failed
  · next refused => exact ⟨_, rfl, .inl refused⟩
  · split at failed
    · cases failed
    · next deadline _ =>
      split at failed
      · cases failed
      · exact ⟨_, rfl, .inr ⟨deadline, rfl⟩⟩

/-- What happens while a request is executed that is answered with data is told
by visits to its fields. -/
theorem traced_of_data {data : Value}
    (answered : (schema.execute settings request root state).1.data = some data) :
    ∃ type completed final log visits, schema.rootType? request.operation = some type ∧
      schema.execute settings request root state = (respond completed, final) ∧
      schema.chronicle settings request root state = log.map Prod.snd ∧
      (log.Pairwise fun one two => one.1 ≤ two.1) ∧
      (schema.runOf settings request).chronicle.Traced
        (settings.parallelFields = true ∧ (request.operation == .mutation) = false)
        (.object type request.selectionSet root) [] 0 log (completed.map .object) visits := by
  obtain ⟨task, accepted, executed⟩ := execute_of_data answered
  obtain ⟨type, found, _, _, rfl⟩ := prepare_eq_ok accepted
  have same := ((schema.runOf settings request).refines_chronicle.executeObject (request.operation == .mutation)
    (Selection.depthOfAll request.selectionSet) request.selectionSet type type rfl root []).run (state, [])
  obtain ⟨log, finish, logs, ends⟩ := Task.Moves.logs ((schema.runOf settings request).moves_chronicle.executeObject
    (request.operation == .mutation) (Selection.depthOfAll request.selectionSet) request.selectionSet
    type type rfl root []) 0 state []
  obtain ⟨visits, traced⟩ := Run.traced_executeObject _ _ _ (Nat.le_refl _) type root [] 0 log _ finish logs
  refine ⟨type, _, _, log, visits, found, executed, ?_, logs.inOrder, ?_⟩
  · simpa only [chronicle, found, List.nil_append] using ends
  · rwa [same.1] at traced

/-- There is an account of every response with data. It lists the fields that
were asked for their values. -/
theorem account_of_data {data : Value}
    (answered : (schema.execute settings request root state).1.data = some data) :
    ∃ type account, schema.rootType? request.operation = some type ∧
      Executes schema request.variableValues (.object type request.selectionSet root) [] account ∧
      (schema.resolutions settings request root state).Perm account.resolutions ∧
      data = account.completed.value?.getD .null ∧
      (schema.execute settings request root state).1.errors = account.completed.errors := by
  obtain ⟨type, completed, final, log, visits, found, executed, events, _, traced⟩ := traced_of_data answered
  refine ⟨type, _, found, traced.executes, ?_, ?_, ?_⟩
  · rw [resolutions_eq_chronicle, events]
    exact traced.timeline.resolutions_perm
  · rw [executed] at answered
    exact (Option.some.inj answered).symm
  · rw [executed]
    rfl

end SelectionEngine.Schema
