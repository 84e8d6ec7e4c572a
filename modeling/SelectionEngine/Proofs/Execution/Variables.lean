import SelectionEngine.Execution.Operation
import SelectionEngine.Proofs.Coercion.Substitution
import SelectionEngine.Proofs.Execution.Completion
import SelectionEngine.Proofs.Execution.MappedCalls
import SelectionEngine.Schema.Registry

namespace SelectionEngine

variable {ρ σ : Type}

/-- The names of the variables in some arguments. -/
def FieldCall.variableNames (call : FieldCall) : List String := InputValue.variableNamesOfEntries call.arguments

def FieldCall.settle (variableValues : Object) (call : FieldCall) : FieldCall :=
  { call with arguments := InputValue.settleEntries variableValues call.arguments }

namespace Selection

mutual

/-- The names of the variables in the arguments of all fields. -/
def variableNames : Selection → List String
  | field call selections => call.variableNames ++ variableNamesOfAll selections
  | fragment _ selections => variableNamesOfAll selections

def variableNamesOfAll : List Selection → List String
  | [] => []
  | selection :: rest => selection.variableNames ++ variableNamesOfAll rest

end

mutual

/-- A selection with the variables in its arguments replaced. -/
def settle (variableValues : Object) : Selection → Selection
  | field call selections => field (call.settle variableValues) (settleAll variableValues selections)
  | fragment condition selections => fragment condition (settleAll variableValues selections)

def settleAll (variableValues : Object) : List Selection → List Selection
  | [] => []
  | selection :: rest => settle variableValues selection :: settleAll variableValues rest

end

variable (variableValues : Object)

mutual

theorem settle_eq_mapCalls : (selection : Selection) →
    selection.settle variableValues = selection.mapCalls (FieldCall.settle variableValues)
  | field call selections => by rw [settle, mapCalls, settleAll_eq_mapCallsAll selections]
  | fragment condition selections => by rw [settle, mapCalls, settleAll_eq_mapCallsAll selections]

theorem settleAll_eq_mapCallsAll : (selections : List Selection) →
    settleAll variableValues selections = mapCallsAll (FieldCall.settle variableValues) selections
  | [] => rfl
  | selection :: rest => by
    rw [settleAll, mapCallsAll, settle_eq_mapCalls selection, settleAll_eq_mapCallsAll rest]

end

theorem settleAll_append (front back : List Selection) :
    settleAll variableValues (front ++ back) = settleAll variableValues front ++ settleAll variableValues back := by
  simp only [settleAll_eq_mapCallsAll, mapCallsAll_eq_map, List.map_append]

theorem depthOfAll_settleAll (selections : List Selection) :
    depthOfAll (settleAll variableValues selections) = depthOfAll selections := by
  rw [settleAll_eq_mapCallsAll, depthOfAll_mapCallsAll]

end Selection

def SelectedField.settle (variableValues : Object) (field : SelectedField) : SelectedField where
  call := field.call.settle variableValues
  selections := Selection.settleAll variableValues field.selections

namespace FieldGroup

variable (variableValues : Object)

def settle (group : FieldGroup) : FieldGroup where
  key := group.key
  lead := group.lead.settle variableValues
  others := group.others.map (SelectedField.settle variableValues)

theorem fields_settle (group : FieldGroup) :
    (group.settle variableValues).fields = group.fields.map (SelectedField.settle variableValues) := rfl

theorem settle_eq_mapCalls (group : FieldGroup) :
    group.settle variableValues = group.mapCalls (FieldCall.settle variableValues) id := by
  have field : SelectedField.settle variableValues = SelectedField.mapCalls (FieldCall.settle variableValues) := by
    funext field
    rw [SelectedField.settle, SelectedField.mapCalls, Selection.settleAll_eq_mapCallsAll]
  rw [settle, mapCalls, field]
  rfl

theorem selections_settle (group : FieldGroup) :
    (group.settle variableValues).selections = Selection.settleAll variableValues group.selections := by
  rw [settle_eq_mapCalls, selections_mapCalls, Selection.settleAll_eq_mapCallsAll]

end FieldGroup

/-- Fields keep their keys when variables are replaced. -/
theorem FieldCall.rekeys_settle (variableValues : Object) :
    FieldCall.Rekeys (FieldCall.settle variableValues) id where
  name _ := rfl
  responseKey _ := rfl
  injective := Function.injective_id

theorem Schema.fieldGroups_settle (schema : Schema σ) (type : ObjectType σ) (variableValues : Object)
    (selections : List Selection) : schema.fieldGroups type (Selection.settleAll variableValues selections) =
      (schema.fieldGroups type selections).map (FieldGroup.settle variableValues) := by
  rw [Selection.settleAll_eq_mapCallsAll, schema.fieldGroups_mapCalls type (FieldCall.rekeys_settle variableValues),
    funext (FieldGroup.settle_eq_mapCalls variableValues)]

namespace Run

variable (run : Run ρ σ)

/-- The same run for an operation without variables. -/
def settled : Run ρ σ := { run with variableValues := [] }

variable (execute : ObjectExecution ρ σ) (parentType field : String)

/-- Values are completed without a look at the variables. -/
theorem complete_settled (type : TypeRef) :
    run.settled.complete execute parentType field type = run.complete execute parentType field type := by
  have named : run.settled.completeNamed execute = run.completeNamed execute := rfl
  exact complete_congr named rfl type

theorem executeGroup_settled (type : ObjectType ρ) (parent : Value) (path : Path) (group : FieldGroup) :
    run.settled.executeGroup execute type parent path (group.settle run.variableValues) =
      run.executeGroup execute type parent path group := by
  have name : (group.settle run.variableValues).lead.call.name = group.lead.call.name := rfl
  have key : (group.settle run.variableValues).key = group.key := rfl
  have coerced (field : FieldDef ρ) : run.settled.schema.coerceArguments field.arguments
      (group.settle run.variableValues).lead.call.arguments run.settled.variableValues group.lead.call.name =
        run.schema.coerceArguments field.arguments group.lead.call.arguments run.variableValues
          group.lead.call.name := run.schema.coerceArguments_settle _ _ _ _
  have dispatch : run.settled.dispatch = run.dispatch := rfl
  simp only [executeGroup, name, key, coerced, dispatch, complete_settled]

/-- An operation is executed as if the values of its variables
had been written in it. -/
theorem executeObject_settled (serial : Bool) (depth : Nat) (selections : List Selection) :
    run.settled.executeObject serial depth (Selection.settleAll run.variableValues selections) =
      run.executeObject serial depth selections := by
  induction depth generalizing serial selections with
  | zero => rfl
  | succ depth ih =>
    funext type parent path
    have groups : run.settled.schema.fieldGroups type (Selection.settleAll run.variableValues selections) =
        (run.schema.fieldGroups type selections).map (FieldGroup.settle run.variableValues) :=
      run.schema.fieldGroups_settle type _ _
    have keys (groups : List FieldGroup) : (groups.map (FieldGroup.settle run.variableValues)).map FieldGroup.key =
        groups.map FieldGroup.key := by rw [List.map_map]; rfl
    simp only [executeObject, groups, keys, List.map_map, Function.comp_def, FieldGroup.selections_settle, ih,
      executeGroup_settled]
    rfl

end Run

/-- The request with the values of its variables written in it. -/
def Request.settle (request : Request) : Request :=
  { request with
    selectionSet := Selection.settleAll request.variableValues request.selectionSet
    variableValues := [] }

namespace Schema

variable (schema : Schema σ) (settings : ExecutionSettings) (request : Request)

theorem rootArgumentError?_settle (type : ObjectType σ) :
    schema.rootArgumentError? type request.settle = schema.rootArgumentError? type request := by
  have groups : schema.fieldGroups type request.settle.selectionSet =
      (schema.fieldGroups type request.selectionSet).map (FieldGroup.settle request.variableValues) :=
    schema.fieldGroups_settle type _ _
  have name (selected : SelectedField) : (selected.settle request.variableValues).call.name = selected.call.name :=
    rfl
  have coerced (field : FieldDef σ) (selected : SelectedField) :
      schema.coerceArguments field.arguments (selected.settle request.variableValues).call.arguments
        request.settle.variableValues selected.call.name =
      schema.coerceArguments field.arguments selected.call.arguments request.variableValues selected.call.name :=
    schema.coerceArguments_settle _ _ _ _
  simp only [rootArgumentError?, groups, List.findSome?_map, Function.comp_def,
    FieldGroup.fields_settle, name, coerced]
  rfl

theorem prepare_settle (root : Value) :
    schema.prepare settings request.settle root = schema.prepare settings request root := by
  have operation : request.settle.operation = request.operation := rfl
  have depth : Selection.depthOfAll request.settle.selectionSet = Selection.depthOfAll request.selectionSet :=
    Selection.depthOfAll_settleAll _ _
  have run (depth : Nat) :
      (schema.runOf settings request.settle).executeObject (request.operation == .mutation) depth
          request.settle.selectionSet =
        (schema.runOf settings request).executeObject (request.operation == .mutation) depth
          request.selectionSet :=
    (schema.runOf settings request).executeObject_settled _ _ _
  simp only [prepare, operation, depth, rootArgumentError?_settle, run]

theorem execute_settle (root : Value) (state : σ) :
    schema.execute settings request.settle root state = schema.execute settings request root state := by
  rw [execute, execute, prepare_settle]

end Schema

section

variable {variableValues otherValues : Object}

theorem FieldCall.settle_congr {call : FieldCall} (agree : AgreeOn call.variableNames variableValues otherValues) :
    call.settle variableValues = call.settle otherValues := by
  rw [settle, settle, InputValue.settleEntries_congr agree]

namespace Selection

theorem variableNamesOfAll_append (front back : List Selection) :
    variableNamesOfAll (front ++ back) = variableNamesOfAll front ++ variableNamesOfAll back := by
  induction front with
  | nil => rfl
  | cons selection front ih => simp only [List.cons_append, variableNamesOfAll, ih, List.append_assoc]

mutual

theorem settle_congr : (selection : Selection) → AgreeOn selection.variableNames variableValues otherValues →
    selection.settle variableValues = selection.settle otherValues
  | field call selections, agree => by
    obtain ⟨arguments, below⟩ := agreeOn_append.mp agree
    rw [settle, settle, FieldCall.settle_congr arguments, settleAll_congr selections below]
  | fragment condition selections, agree => by
    rw [settle, settle, settleAll_congr selections agree]

theorem settleAll_congr : (selections : List Selection) →
    AgreeOn (variableNamesOfAll selections) variableValues otherValues →
    settleAll variableValues selections = settleAll otherValues selections
  | [], _ => rfl
  | selection :: rest, agree => by
    obtain ⟨first, others⟩ := agreeOn_append.mp agree
    rw [settleAll, settleAll, settle_congr selection first, settleAll_congr rest others]

end

end Selection

end

/-- A place in the arguments of some selections: in an argument of one of the
fields, or of one that is selected somewhere below. -/
inductive SelectionContext where
  | argument (front : List Selection) (call : FieldCall) (name : String) (place : InputContext)
      (after : Entries String InputValue) (selections back : List Selection)
  | field (front : List Selection) (call : FieldCall) (inside : SelectionContext) (back : List Selection)
  | fragment (front : List Selection) (condition : Option String) (inside : SelectionContext)
    (back : List Selection)

namespace SelectionContext

/-- The selections that have something at the place. In an argument, what
`call` has comes before. -/
def fill (input : InputValue) : SelectionContext → List Selection
  | argument front call name place after selections back =>
    front ++ .field { call with arguments := call.arguments ++ (name, place.fill input) :: after }
      selections :: back
  | field front call inside back => front ++ .field call (inside.fill input) :: back
  | fragment front condition inside back => front ++ .fragment condition (inside.fill input) :: back

/-- The variables around a place. -/
def variableNames : SelectionContext → List String
  | argument front call _ place after selections back =>
    Selection.variableNamesOfAll front ++ ((call.variableNames ++ (place.variableNames ++
      InputValue.variableNamesOfEntries after)) ++ Selection.variableNamesOfAll selections ++
        Selection.variableNamesOfAll back)
  | field front call inside back =>
    Selection.variableNamesOfAll front ++ (call.variableNames ++ inside.variableNames ++
      Selection.variableNamesOfAll back)
  | fragment front _ inside back =>
    Selection.variableNamesOfAll front ++ (inside.variableNames ++ Selection.variableNamesOfAll back)

theorem mem_variableNames_fill {context : SelectionContext} {input : InputValue} {name : String}
    (member : name ∈ context.variableNames) : name ∈ Selection.variableNamesOfAll (context.fill input) := by
  induction context with
  | argument front call key place after selections back =>
    simp only [fill, Selection.variableNamesOfAll_append, Selection.variableNamesOfAll, Selection.variableNames,
      FieldCall.variableNames, InputValue.variableNamesOfEntries_append, InputValue.variableNamesOfEntries]
    simp only [variableNames, FieldCall.variableNames, List.mem_append] at member ⊢
    have inside : name ∈ place.variableNames → name ∈ (place.fill input).variableNames :=
      InputContext.mem_variableNames_fill
    tauto
  | field front call inside back ih =>
    simp only [fill, Selection.variableNamesOfAll_append, Selection.variableNamesOfAll, Selection.variableNames]
    simp only [variableNames, List.mem_append] at member ⊢
    exact member.imp_right (Or.imp_left (Or.imp_right ih))
  | fragment front condition inside back ih =>
    simp only [fill, Selection.variableNamesOfAll_append, Selection.variableNamesOfAll, Selection.variableNames]
    simp only [variableNames, List.mem_append] at member ⊢
    exact member.imp_right (Or.imp_left ih)

/-- At any place something can stand for what has the same value, or none. -/
theorem settleAll_fill (context : SelectionContext) {input other : InputValue} {variableValues otherValues : Object}
    (same : input.substitute? variableValues = other.substitute? otherValues)
    (around : AgreeOn context.variableNames variableValues otherValues) :
    Selection.settleAll variableValues (context.fill input) =
      Selection.settleAll otherValues (context.fill other) := by
  induction context with
  | argument front call name place after selections back =>
    simp only [variableNames, agreeOn_append] at around
    obtain ⟨before, ⟨⟨first, here, last⟩, below⟩, behind⟩ := around
    have call := InputValue.settleEntries_congr first
    have place := InputValue.settle_congr (place.substitute?_fill same here)
    have after := InputValue.settleEntries_congr last
    simp only [InputValue.settleEntries] at call after
    simp only [fill, Selection.settleAll_append, Selection.settleAll, Selection.settle, FieldCall.settle,
      InputValue.settleEntries, List.map_append, List.map_cons, Selection.settleAll_congr front before, call, place,
      after, Selection.settleAll_congr selections below, Selection.settleAll_congr back behind]
  | field front call inside back ih =>
    simp only [variableNames, agreeOn_append] at around
    obtain ⟨before, ⟨here, inner⟩, behind⟩ := around
    simp only [fill, Selection.settleAll_append, Selection.settleAll, Selection.settle,
      Selection.settleAll_congr front before, FieldCall.settle_congr here, ih inner,
      Selection.settleAll_congr back behind]
  | fragment front condition inside back ih =>
    simp only [variableNames, agreeOn_append] at around
    obtain ⟨before, inner, behind⟩ := around
    simp only [fill, Selection.settleAll_append, Selection.settleAll, Selection.settle,
      Selection.settleAll_congr front before, ih inner, Selection.settleAll_congr back behind]

end SelectionContext

namespace Schema

variable {request : Request} {context : SelectionContext}

/-- Requests that have the same but for what stands at one place are executed
alike if it has the same value, and so have the variables around it. -/
theorem execute_of_substitute? (schema : Schema σ) (settings : ExecutionSettings) {input other : InputValue}
    (atPlace : request.selectionSet = context.fill other) {variableValues : Object}
    (same : input.substitute? variableValues = other.substitute? request.variableValues)
    (around : AgreeOn context.variableNames variableValues request.variableValues) (root : Value) (state : σ) :
    schema.execute settings { request with selectionSet := context.fill input, variableValues } root state =
      schema.execute settings request root state := by
  rw [← execute_settle, ← schema.execute_settle settings request]
  simp only [Request.settle, atPlace, context.settleAll_fill same around]

/-- A value in an operation can be given in a variable of its own, and a list or
an object can be given in parts, at any place in the arguments of any field. -/
theorem execute_fill (schema : Schema σ) (settings : ExecutionSettings) (request : Request)
    (context : SelectionContext) (root : Value) (state : σ) :
    (∀ value name, request.selectionSet = context.fill (.value value) →
      name ∉ Selection.variableNamesOfAll request.selectionSet →
        schema.execute settings { request with
          selectionSet := context.fill (.variable name)
          variableValues := Entries.set name value request.variableValues } root state =
            schema.execute settings request root state) ∧
    (∀ items, request.selectionSet = context.fill (.value (.list items)) →
      schema.execute settings { request with
        selectionSet := context.fill (.list (items.map .value)) } root state =
          schema.execute settings request root state) ∧
    (∀ entries : Object, entries.Distinct → request.selectionSet = context.fill (.value (.object entries)) →
      schema.execute settings { request with
        selectionSet := context.fill (.object (entries.map fun entry => (entry.1, .value entry.2))) } root state =
          schema.execute settings request root state) := by
  refine ⟨fun value name atPlace fresh => ?_, fun items atPlace => ?_, fun entries distinct atPlace => ?_⟩
  · have around : name ∉ context.variableNames := fun member =>
      fresh (atPlace ▸ SelectionContext.mem_variableNames_fill member)
    exact schema.execute_of_substitute? settings atPlace (InputValue.substitute?_variable_set name value _)
      (agreeOn_set around value _) root state
  · exact schema.execute_of_substitute? settings atPlace (InputValue.substitute?_list items _)
      (.refl _ _) root state
  · exact schema.execute_of_substitute? settings atPlace (InputValue.substitute?_object distinct _) (.refl _ _) root
      state

/-- A field that keeps what it is given. -/
def noteQuery : ObjectType (List Object) where
  name := "Query"
  fields := [
    { name := "note", type := .builtIn .int, arguments := [
        { name := "texts", type := .list (.builtIn .string) },
        { name := "more", type := .named "Any" }]
      resolver := some (.acting fun info seen => (.value (.int seen.length), seen ++ [info.arguments])) }]

def noteSchema : Schema (List Object) :=
  (Schema.empty.insert (.scalar "Any")).insert (.object noteQuery)

/-- A place in a list inside of an object, in the second argument of a field in
a fragment. Around it there is one variable that is set and one that is not. -/
def notePlace : SelectionContext :=
  .fragment [] none
    (.argument [] { name := "note", arguments := [("texts", .list [.variable "set", .variable "unset"])] }
    "more" (.entry [("first", .variable "unset")] "deep" (.item [.variable "set"] .whole []) []) [] [] []) []

def noteRequest (input : InputValue) (more : Object) : Request where
  selectionSet := notePlace.fill input
  variableValues := ("set", .string "1") :: more

theorem execute_fill_note :
    noteSchema.execute {} (noteRequest (.variable "null") [("null", .null)]) .null [] =
      noteSchema.execute {} (noteRequest (.value .null) []) .null [] ∧
    (noteSchema.execute {} (noteRequest (.value .null) []) .null []).2 =
      [[("texts", .list [.string "1", .null]), ("more", .object [("deep", .list [.string "1", .null])])]] ∧
    noteSchema.execute {} (noteRequest (.list [.value .null, .value (.int 1)]) []) .null [] =
      noteSchema.execute {} (noteRequest (.value (.list [.null, .int 1])) []) .null [] ∧
    noteSchema.execute {} (noteRequest (.object [("a", .value (.int 1))]) []) .null [] =
      noteSchema.execute {} (noteRequest (.value (.object [("a", .int 1)])) []) .null [] := by
  obtain ⟨byVariable, _, _⟩ := execute_fill noteSchema {} (noteRequest (.value .null) []) notePlace .null []
  obtain ⟨_, byItem, _⟩ :=
    execute_fill noteSchema {} (noteRequest (.value (.list [.null, .int 1])) []) notePlace .null []
  obtain ⟨_, _, byEntry⟩ :=
    execute_fill noteSchema {} (noteRequest (.value (.object [("a", .int 1)])) []) notePlace .null []
  have added : Entries.set "null" .null (noteRequest (.value .null) []).variableValues =
      (noteRequest (.variable "null") [("null", .null)]).variableValues := by decide
  have byNull := byVariable .null "null" rfl (by decide)
  rw [added] at byNull
  exact ⟨byNull, by decide +kernel, byItem [.null, .int 1] rfl, byEntry [("a", .int 1)] (by decide) rfl⟩

end Schema

end SelectionEngine
