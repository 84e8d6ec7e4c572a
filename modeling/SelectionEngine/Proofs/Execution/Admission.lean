import SelectionEngine.Proofs.Execution.Calls
import SelectionEngine.Proofs.Execution.Dispatches
import SelectionEngine.Proofs.Task.Timing

namespace SelectionEngine.Schema

variable {σ : Type} {schema : Schema σ} {settings : ExecutionSettings} {request : Request}

/-- Why a request fails as a whole: there is no object type for the operation to
start from, its fields nest too deep, or the arguments of a field that is
selected at the root cannot be coerced. -/
inductive Refuses (schema : Schema σ) (settings : ExecutionSettings) (request : Request) : Prop
  | noRootType :
      (∀ type, schema.lookup? (schema.rootTypeName request.operation) ≠ some (.object type)) →
      Refuses schema settings request
  | tooDeep : settings.maxDepth < Selection.depthOfAll request.selectionSet → Refuses schema settings request
  | badArguments {type selected field error} :
      schema.lookup? (schema.rootTypeName request.operation) = some (.object type) →
      selected ∈ schema.selectedFieldsOfAll type request.selectionSet →
      type.field? selected.call.name = some field →
      schema.coerceArguments field.arguments selected.call.arguments request.variableValues
        selected.call.name = .error error →
      Refuses schema settings request

theorem rootArgumentError?_eq_none {type : ObjectType σ} :
    schema.rootArgumentError? type request = none ↔
      ∀ selected ∈ schema.selectedFieldsOfAll type request.selectionSet, ∀ field,
        type.field? selected.call.name = some field → ∃ arguments,
          schema.coerceArguments field.arguments selected.call.arguments request.variableValues
            selected.call.name = .ok arguments := by
  simp only [rootArgumentError?, List.findSome?_eq_none_iff]
  constructor
  -- the check goes through the groups, and every selected field is in one of them
  · intro passes selected member field declared
    obtain ⟨group, grouped, inside⟩ := exists_mem_fieldGroups member
    have passes := passes group grouped selected inside
    rw [declared] at passes
    dsimp only at passes
    split at passes
    · next arguments coerced => exact ⟨arguments, coerced⟩
    · cases passes
  · intro coercible group grouped selected inside
    have member := mem_fields_of_mem_fieldGroups grouped inside
    split
    · rfl
    · next field declared =>
      obtain ⟨arguments, coerced⟩ := coercible selected member field declared
      rw [coerced]

theorem prepare_of_refuses (refuses : schema.Refuses settings request) (root : Value) :
    ∃ report, schema.prepare settings request root = .error report := by
  cases prepared : schema.prepare settings request root with
  | error report => exact ⟨report, rfl⟩
  | ok task =>
    obtain ⟨type, found, shallow, passes, _⟩ := prepare_eq_ok prepared
    exfalso
    cases refuses with
    | noRootType none => exact none type (rootType?_eq_some.mp found)
    | tooDeep deep => omega
    | badArguments own member declared failed =>
      obtain rfl := Option.some.inj (found.symm.trans (rootType?_eq_some.mpr own))
      obtain ⟨arguments, coerced⟩ := rootArgumentError?_eq_none.mp passes _ member _ declared
      simp [coerced] at failed

theorem prepare_of_not_refuses (passes : ¬ schema.Refuses settings request) (root : Value) :
    ∃ task, schema.prepare settings request root = .ok task := by
  simp only [prepare]
  cases found : schema.rootType? request.operation with
  | none =>
    have none (type : ObjectType σ)
        (own : schema.lookup? (schema.rootTypeName request.operation) = some (.object type)) : False := by
      simp [rootType?_eq_some.mpr own] at found
    exact absurd (.noRootType none) passes
  | some type =>
    have shallow : ¬ settings.maxDepth < Selection.depthOfAll request.selectionSet :=
      fun deep => passes (.tooDeep deep)
    have valid : schema.rootArgumentError? type request = none := by
      refine rootArgumentError?_eq_none.mpr fun selected member field declared => ?_
      cases coerced : schema.coerceArguments field.arguments selected.call.arguments request.variableValues
          selected.call.name with
      | ok arguments => exact ⟨arguments, rfl⟩
      | error error =>
        exact absurd (.badArguments (rootType?_eq_some.mp found) member declared coerced) passes
    simp only [if_neg shallow, valid]
    exact ⟨_, rfl⟩

variable {root : Value} {state : σ}

theorem calls_of_prepare_error {report : Report} (refused : schema.prepare settings request root = .error report) :
    schema.calls settings request root state = [] := by
  rcases prepare_related (schema.recorded_related settings request) rfl root with
    ⟨_, _, alsoRefused⟩ | ⟨task, _, accepted, _⟩
  · simp only [calls, execute, alsoRefused]
  · simp [accepted] at refused

theorem execute_of_endTime {task : Task σ (Completed Object)}
    (accepted : schema.prepare settings request root = .ok task)
    (inTime : ∀ deadline, settings.deadline = some deadline → task.endTime 0 state ≤ deadline.nanoseconds) :
    schema.execute settings request root state = (respond (task.run state).1, (task.run state).2) := by
  simp only [execute, accepted]
  cases limit : settings.deadline with
  | none => rfl
  | some deadline =>
    have ended : task.endTime 0 state ≤ 0 + deadline.nanoseconds := by
      rw [Nat.zero_add]
      exact inTime deadline limit
    simp only [Task.runWithin_of_endTime ended]

theorem exists_calls_of_prepare {task : Task σ (Completed Object)} {type : ObjectType σ}
    (accepted : schema.prepare settings request root = .ok task)
    (found : schema.rootType? request.operation = some type) {group : FieldGroup}
    (member : group ∈ schema.fieldGroups type request.selectionSet)
    (named : group.lead.call.name ≠ typenameField) :
    ∃ field arguments, group.Calls schema request.variableValues type field arguments := by
  obtain ⟨own, same, _, valid, _⟩ := prepare_eq_ok accepted
  obtain rfl := Option.some.inj (found.symm.trans same)
  obtain ⟨field, declared⟩ := Option.isSome_iff_exists.mp ((lead_of_mem_fieldGroups member).resolve_left named)
  have selected : group.lead ∈ schema.selectedFieldsOfAll type request.selectionSet :=
    mem_fields_of_mem_fieldGroups member (.head _)
  obtain ⟨arguments, coerced⟩ := rootArgumentError?_eq_none.mp valid group.lead selected field declared
  exact ⟨field, arguments, named, declared, coerced⟩

/-- A request is either turned down before anything is done for it, with one
error, or else it is answered with data unless its deadline passes, and every
field at the root is asked for its value. -/
theorem refused_or_answered (schema : Schema σ) (settings : ExecutionSettings) (request : Request) (root : Value)
    (state : σ) :
    (schema.Refuses settings request →
      (schema.execute settings request root state).1.data = none ∧
      (∃ report, (schema.execute settings request root state).1.errors = [report]) ∧
      schema.calls settings request root state = [] ∧
      (schema.execute settings request root state).2 = state) ∧
    (¬ schema.Refuses settings request →
      ∃ type task, schema.rootType? request.operation = some type ∧
        schema.prepare settings request root = .ok task ∧
        ((∀ deadline, settings.deadline = some deadline → task.endTime 0 state ≤ deadline.nanoseconds) →
          (∃ data, (schema.execute settings request root state).1.data = some data ∧
            (data = .null ∨ ∃ entries, data = .object entries)) ∧
          ∀ group ∈ schema.fieldGroups type request.selectionSet, group.lead.call.name ≠ typenameField →
            ∃ field arguments outcome, group.Calls schema request.variableValues type field arguments ∧
              ⟨group.info type field root [] arguments, outcome⟩ ∈
                schema.resolutions settings request root state)) := by
  refine ⟨fun refuses => ?_, fun passes => ?_⟩
  · obtain ⟨report, refused⟩ := prepare_of_refuses refuses root
    have answer : schema.execute settings request root state = (.ofError report, state) := by
      simp only [execute, refused]
    rw [answer]
    exact ⟨rfl, ⟨report, rfl⟩, calls_of_prepare_error refused, rfl⟩
  · obtain ⟨task, accepted⟩ := prepare_of_not_refuses passes root
    obtain ⟨type, found, _⟩ := prepare_eq_ok accepted
    refine ⟨type, task, found, accepted, fun inTime => ?_⟩
    have answer := execute_of_endTime accepted inTime
    have data : (schema.execute settings request root state).1.data =
        some (((task.run state).1.value?.map Value.object).getD .null) := by rw [answer]; rfl
    refine ⟨⟨_, data, ?_⟩, fun group member named => ?_⟩
    · rcases (task.run state).1.value? with _ | entries
      · exact .inl rfl
      · exact .inr ⟨entries, rfl⟩
    · obtain ⟨field, arguments, calls⟩ := exists_calls_of_prepare accepted found member named
      obtain ⟨distinct, _, started⟩ := started_of_data data
      have executed : schema.Executed request root (schema.resolutions settings request root state) type
          request.selectionSet root [] := .root found
      obtain ⟨outcome, asked⟩ := executed.asked distinct started member calls
      exact ⟨field, arguments, outcome, calls, asked⟩

/-- A field that counts how often it is called, and one that breaks down
after two units of time. -/
def ticketQuery : ObjectType Nat where
  name := "Query"
  fields := [
    { name := "ticket", type := .builtIn .int, arguments := [{ name := "row", type := .nonNull (.builtIn .int) }]
      resolver := some (.acting fun _ count => (.value (.int count), count + 1)) },
    { name := "guard", type := .nonNull (.builtIn .string)
      resolver := some ((Resolver.immediate fun _ => .panic none).delayed 2) }]

def ticketSchema : Schema Nat := Schema.insert .empty (.object ticketQuery)

/-- Asks for a ticket twice under one key, the second time within a fragment
and for no row at all. -/
def ticketRequest (condition : String) : Request where
  selectionSet := [.field { name := "guard" } [],
    .field { name := "ticket", arguments := [("row", .value (.int 3))] } [],
    .fragment (some condition) [.field { name := "ticket" } []]]

/-- The second ticket makes the request fail before the first one is drawn.
Where its fragment does not apply, the first one is drawn, and the data is lost
only by the other field. -/
theorem refused_or_answered_tickets :
    let refused := ticketSchema.execute {} (ticketRequest "Query") .null 0
    let answered := ticketSchema.execute { deadline := some ⟨2⟩ } (ticketRequest "Seat") .null 0
    ticketSchema.Refuses {} (ticketRequest "Query") ∧
      (refused.1.data = none ∧ (∃ report, refused.1.errors = [report]) ∧
        ticketSchema.calls {} (ticketRequest "Query") .null 0 = [] ∧ refused.2 = 0) ∧
      ¬ ticketSchema.Refuses { deadline := some ⟨2⟩ } (ticketRequest "Seat") ∧
      (∃ data, answered.1.data = some data ∧ (data = .null ∨ ∃ entries, data = .object entries)) ∧
      answered.1.data = some .null ∧ answered.2 = 1 := by
  have refuses : ticketSchema.Refuses {} (ticketRequest "Query") :=
    @Refuses.badArguments _ _ _ _ ticketQuery ⟨{ name := "ticket" }, []⟩ _ _ rfl
      (.tail _ (.tail _ (.head _))) rfl rfl
  have passes : ¬ ticketSchema.Refuses { deadline := some ⟨2⟩ } (ticketRequest "Seat") := by
    intro refuses
    obtain ⟨report, refused⟩ := prepare_of_refuses refuses .null
    cases refused
  refine ⟨refuses, (refused_or_answered ticketSchema {} _ .null 0).1 refuses, passes, ?_, rfl, rfl⟩
  obtain ⟨type, task, _, accepted, inTime⟩ := (refused_or_answered ticketSchema _ _ .null 0).2 passes
  refine (inTime fun deadline limit => ?_).1
  obtain rfl := Except.ok.inj accepted
  obtain rfl := Option.some.inj limit
  decide

end SelectionEngine.Schema
