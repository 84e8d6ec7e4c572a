import SelectionEngine.Proofs.Execution.Responses
import SelectionEngine.Schema.Registry

namespace SelectionEngine

/-- The entries of two objects one after the other, or null if
one of them is null. -/
def Value.followedBy : Value → Value → Value
  | .object front, .object back => .object (front ++ back)
  | _, _ => .null

namespace Run

variable {ρ σ : Type} {run : Run ρ σ}

/-- The tasks of the fields that are selected on an object. Below each of them
there is as much depth as its selections need. -/
def fieldTasks (run : Run ρ σ) (selections : List Selection) (type : ObjectType ρ) (parent : Value)
    (path : Path) : List (Task σ (Completed Value)) :=
  (run.schema.fieldGroups type selections).map fun group =>
    run.executeGroup (run.executeObject false (Selection.depthOfAll group.selections) group.selections) type
      parent path group

theorem executeObject_of_flat {serial : Bool} {depth : Nat} {selections : List Selection}
    (flat : Selection.depthOfAll selections = 0) :
    run.executeObject serial depth selections = fun _ _ _ => .done (.ok []) := by
  cases depth with
  | zero => rfl
  | succ depth =>
    funext type parent path
    cases serial <;> cases parallel : run.parallel <;>
      simp only [executeObject, gather, parallel, Schema.fieldGroups_eq_nil flat] <;> rfl

/-- Depth that is not needed makes no difference. -/
theorem executeObject_of_enough {serial : Bool} {depth more : Nat} {selections : List Selection}
    (enough : Selection.depthOfAll selections ≤ depth) (also : Selection.depthOfAll selections ≤ more) :
    run.executeObject serial depth selections = run.executeObject serial more selections := by
  induction depth generalizing serial more selections with
  | zero => rw [executeObject_of_flat (Nat.le_zero.mp enough), executeObject_of_flat (Nat.le_zero.mp enough)]
  | succ depth ih =>
    cases more with
    | zero => rw [executeObject_of_flat (Nat.le_zero.mp also), executeObject_of_flat (Nat.le_zero.mp also)]
    | succ more =>
      funext type parent path
      have tasks : (run.schema.fieldGroups type selections).map (fun group =>
            run.executeGroup (run.executeObject false depth group.selections) type parent path group) =
          (run.schema.fieldGroups type selections).map fun group =>
            run.executeGroup (run.executeObject false more group.selections) type parent path group := by
        refine List.map_congr_left fun group member => ?_
        have deeper := Schema.depth_of_mem_fieldGroups member
        have same : run.executeObject false depth group.selections =
            run.executeObject false more group.selections := ih (by omega) (by omega)
        rw [same]
      simp only [executeObject, tasks]

theorem executeObject_eq {serial : Bool} {depth : Nat} {selections : List Selection}
    (enough : Selection.depthOfAll selections ≤ depth) (type : ObjectType ρ) (parent : Value) (path : Path) :
    run.executeObject serial depth selections type parent path =
      (if serial then Task.inTurn (run.fieldTasks selections type parent path)
        else run.gather (run.fieldTasks selections type parent path)).bind fun parts =>
        .done ((Completed.all parts).map fun values =>
          ((run.schema.fieldGroups type selections).map FieldGroup.key).zip values) := by
  have tasks : (run.schema.fieldGroups type selections).map (fun group =>
        run.executeGroup (run.executeObject false depth group.selections) type parent path group) =
      run.fieldTasks selections type parent path := by
    refine List.map_congr_left fun group member => ?_
    have deeper := Schema.depth_of_mem_fieldGroups member
    have same : run.executeObject false depth group.selections =
        run.executeObject false (Selection.depthOfAll group.selections) group.selections :=
      executeObject_of_enough (by omega) (Nat.le_refl _)
    rw [same]
  rw [executeObject_of_enough enough (Nat.le_succ_of_le enough)]
  simp only [executeObject, tasks]

/-- Fields of other keys that are executed one after another go on where the
ones before them ended. -/
theorem run_executeObject_append {type : ObjectType ρ} {front back : List Selection}
    (disjoint : ∀ one ∈ run.schema.fieldGroups type front, ∀ two ∈ run.schema.fieldGroups type back,
      one.key ≠ two.key) (parent : Value) (path : Path) (s : σ) :
    let first := (run.executeObject true (Selection.depthOfAll front) front type parent path).run s
    let second := (run.executeObject true (Selection.depthOfAll back) back type parent path).run first.2
    (run.executeObject true (Selection.depthOfAll (front ++ back)) (front ++ back) type parent path).run s =
      (⟨first.1.value?.bind fun entries => second.1.value?.map fun more => entries ++ more,
        first.1.errors ++ second.1.errors⟩, second.2) := by
  have tasks : run.fieldTasks (front ++ back) type parent path =
      run.fieldTasks front type parent path ++ run.fieldTasks back type parent path := by
    rw [fieldTasks, Schema.fieldGroups_append disjoint, List.map_append]
    rfl
  simp only [executeObject_eq (Nat.le_refl _), if_true, Task.run_bind, tasks, Task.run_inTurn_append, Task.run]
  have length := Task.length_run_inTurn (run.fieldTasks front type parent path) s
  generalize (Task.inTurn (run.fieldTasks front type parent path)).run s = first at length ⊢
  generalize (Task.inTurn (run.fieldTasks back type parent path)).run first.2 = second
  have sameLength : first.1.length = ((run.schema.fieldGroups type front).map FieldGroup.key).length := by
    rw [length, fieldTasks, List.length_map, List.length_map]
  refine Prod.ext ?_ rfl
  simp only [Schema.fieldGroups_append disjoint, List.map_append, Completed.all_append_zip sameLength]

end Run

namespace Schema

variable {σ : Type} {schema : Schema σ}

/-- A request that is accepted is answered with what becomes of
the root object. -/
theorem execute_accepted {settings : ExecutionSettings} {request : Request} {type : ObjectType σ}
    {selections : List Selection} (unlimited : settings.deadline = none)
    (rootType : schema.rootType? request.operation = some type)
    (shallow : Selection.depthOfAll selections ≤ settings.maxDepth)
    (valid : schema.rootArgumentError? type { request with selectionSet := selections } = none) (root : Value)
    (state : σ) :
    schema.execute settings { request with selectionSet := selections } root state =
      let done := ((schema.runOf settings request).executeObject (request.operation == .mutation)
        (Selection.depthOfAll selections) selections type root []).run state
      (respond done.1, done.2) := by
  simp only [execute, prepare, rootType, if_neg (Nat.not_lt.mpr shallow), valid, unlimited]
  rfl

/-- A mutation that is accepted does its root fields one after another, each of
them with all that is selected below it. -/
theorem execute_mutation {settings : ExecutionSettings} {request : Request} {type : ObjectType σ}
    {selections : List Selection} (unlimited : settings.deadline = none)
    (mutation : request.operation = .mutation) (rootType : schema.rootType? .mutation = some type)
    (shallow : Selection.depthOfAll selections ≤ settings.maxDepth)
    (valid : schema.rootArgumentError? type { request with selectionSet := selections } = none) (root : Value)
    (state : σ) :
    schema.execute settings { request with selectionSet := selections } root state =
      let done := ((schema.runOf settings request).executeObject true (Selection.depthOfAll selections)
        selections type root []).run state
      (respond done.1, done.2) := by
  obtain ⟨operation, _, _, _⟩ := request
  obtain rfl : operation = .mutation := mutation
  exact execute_accepted unlimited rootType shallow valid root state

theorem respond_append (one two : Completed Object) :
    (respond ⟨one.value?.bind fun entries => two.value?.map fun more => entries ++ more,
      one.errors ++ two.errors⟩).data =
      some (((one.value?.map Value.object).getD .null).followedBy
        ((two.value?.map Value.object).getD .null)) := by
  simp only [respond]
  rcases one.value? with _ | entries
  · rfl
  · rcases two.value? with _ | more <;> rfl

theorem rootArgumentError?_append {request : Request} {type : ObjectType σ} {front back : List Selection}
    (disjoint : ∀ one ∈ schema.fieldGroups type front, ∀ two ∈ schema.fieldGroups type back, one.key ≠ two.key)
    (valid : schema.rootArgumentError? type { request with selectionSet := front ++ back } = none) :
    schema.rootArgumentError? type { request with selectionSet := front } = none ∧
      schema.rootArgumentError? type { request with selectionSet := back } = none := by
  simpa only [rootArgumentError?, fieldGroups_append disjoint, List.findSome?_append, Option.or_eq_none_iff]
    using valid

/-- A mutation of two lists of root fields with different response keys is the
mutation of the first list and then that of the second one. -/
theorem mutation_append {settings : ExecutionSettings} {request : Request} {type : ObjectType σ}
    {front back : List Selection} (unlimited : settings.deadline = none)
    (mutation : request.operation = .mutation) (rootType : schema.rootType? .mutation = some type)
    (disjoint : ∀ one ∈ schema.fieldGroups type front, ∀ two ∈ schema.fieldGroups type back, one.key ≠ two.key)
    (shallow : Selection.depthOfAll (front ++ back) ≤ settings.maxDepth)
    (valid : schema.rootArgumentError? type { request with selectionSet := front ++ back } = none)
    (root : Value) (state : σ) :
    let whole := schema.execute settings { request with selectionSet := front ++ back } root state
    let first := schema.execute settings { request with selectionSet := front } root state
    let second := schema.execute settings { request with selectionSet := back } root first.2
    whole.2 = second.2 ∧ whole.1.errors = first.1.errors ++ second.1.errors ∧
      ∃ one two, first.1.data = some one ∧ second.1.data = some two ∧
        whole.1.data = some (one.followedBy two) := by
  obtain ⟨validFront, validBack⟩ := rootArgumentError?_append disjoint valid
  obtain ⟨shallowFront, shallowBack⟩ := Nat.max_le.mp (Selection.depthOfAll_append front back ▸ shallow)
  have append := (schema.runOf settings request).run_executeObject_append disjoint root [] state
  simp only [execute_mutation unlimited mutation rootType shallow valid,
    execute_mutation unlimited mutation rootType shallowFront validFront,
    execute_mutation unlimited mutation rootType shallowBack validBack, append]
  exact ⟨trivial, rfl, _, _, rfl, rfl, respond_append _ _⟩

/-- Writes a word down and then ends with the outcome. -/
def scribe (word : String) (outcome : Outcome) : Resolver (List String) :=
  .acting fun _ words => (outcome, words ++ [word])

def scribeMutation : ObjectType (List String) where
  name := "Mutation"
  fields := [
    { name := "refused", type := .nonNull (.builtIn .int)
      resolver := some (scribe "refused" (.error ⟨"no", []⟩)) },
    { name := "pair", type := .named "Pair", resolver := some (scribe "pair" (.value (.object []))) }]

def scribeSchema : Schema (List String) :=
  [.object { name := "Pair", fields := [
      { name := "left", type := .builtIn .int, resolver := some ((scribe "left" (.value (.int 1))).delayed 2) },
      { name := "right", type := .builtIn .int, resolver := some (scribe "right" (.value (.int 2))) }] },
    .object scribeMutation].foldl .insert .empty

def refusedFields : List Selection := [.field { name := "refused" } []]

def pairFields : List Selection :=
  [.field { name := "pair" } [.field { name := "left" } [], .field { name := "right" } []]]

/-- The second field is executed although the first one makes the data null, and
below it the later word is written first. -/
theorem mutation_append_after_refusal :
    let request : Request := { operation := .mutation }
    let whole := scribeSchema.execute {} { request with selectionSet := refusedFields ++ pairFields } .null []
    let first := scribeSchema.execute {} { request with selectionSet := refusedFields } .null []
    let second := scribeSchema.execute {} { request with selectionSet := pairFields } .null first.2
    scribeSchema.rootType? .mutation = some scribeMutation ∧
      (∀ one ∈ scribeSchema.fieldGroups scribeMutation refusedFields,
        ∀ two ∈ scribeSchema.fieldGroups scribeMutation pairFields, one.key ≠ two.key) ∧
      Selection.depthOfAll (refusedFields ++ pairFields) ≤ 32 ∧
      scribeSchema.rootArgumentError? scribeMutation
        { request with selectionSet := refusedFields ++ pairFields } = none ∧
      whole.2 = ["refused", "pair", "right", "left"] ∧
      whole.2 = second.2 ∧ whole.1.errors = first.1.errors ++ second.1.errors ∧
      ∃ one two, first.1.data = some one ∧ second.1.data = some two ∧
        whole.1.data = some (one.followedBy two) := by
  have disjoint : ∀ one ∈ scribeSchema.fieldGroups scribeMutation refusedFields,
      ∀ two ∈ scribeSchema.fieldGroups scribeMutation pairFields, one.key ≠ two.key := by decide
  have shallow : Selection.depthOfAll (refusedFields ++ pairFields) ≤ 32 := by decide
  exact ⟨rfl, disjoint, shallow, rfl, rfl,
    scribeSchema.mutation_append rfl rfl rfl disjoint shallow rfl .null []⟩

end Schema

end SelectionEngine
