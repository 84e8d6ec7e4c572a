import SelectionEngine.Proofs.Execution.Mutations
import SelectionEngine.Proofs.Execution.Scheduling

namespace SelectionEngine

variable {σ : Type}

/-- The outcome of every resolver depends only on what it is told
about its field. -/
def Schema.ComputesAlone (schema : Schema σ) : Prop :=
  ∀ type field resolver, schema.resolver? type field = some resolver → ∃ result, resolver.Computes result

namespace Schema.ComputesAlone

variable {schema : Schema σ}

theorem of_resolvers (each : ∀ entry ∈ schema.resolvers, ∀ bound ∈ entry.2, ∃ result, bound.2.Computes result) :
    schema.ComputesAlone := by
  intro type field resolver found
  obtain ⟨own, ofType, ofField⟩ := mem_of_resolver? found
  exact each (type, own) ofType (field, resolver) ofField

theorem sameResults (alone : schema.ComputesAlone) : schema.SameResults schema where
  types := rfl
  resolvers type field := by
    cases found : schema.resolver? type field with
    | none => exact .inl ⟨rfl, rfl⟩
    | some resolver =>
      obtain ⟨result, computes⟩ := alone type field resolver found
      exact .inr ⟨resolver, resolver, result, rfl, rfl, computes, computes⟩

/-- Each field selected on an object comes to a result of its own,
whatever happens meanwhile. -/
theorem fieldTasks_settle (alone : schema.ComputesAlone) (settings : ExecutionSettings) (request : Request)
    (selections : List Selection) (type : ObjectType σ) (parent : Value) (path : Path) :
    ∃ parts, List.Forall₂ Task.Settles
      ((schema.runOf settings request).fieldTasks selections type parent path) parts := by
  have related := alone.sameResults.related settings settings request
  have tasks : List.Forall₂ (Task.sameResult σ σ).Holds
      ((schema.runOf settings request).fieldTasks selections type parent path)
      ((schema.runOf settings request).fieldTasks selections type parent path) := by
    rw [Run.fieldTasks, List.forall₂_map_left_iff, List.forall₂_map_right_iff, List.forall₂_same]
    exact fun group _ => Run.Related.executeGroup (related.executeObject false _ group.selections) related rfl
      parent path group
  obtain ⟨parts, settle, _⟩ := Task.sameResult_forall₂ tasks
  exact ⟨parts, settle⟩

variable {settings : ExecutionSettings} {request : Request}

/-- Fields that are worked on together come to the parts that
they come to alone. -/
theorem executeObject_settles {selections : List Selection} {type : ObjectType σ} {parent : Value} {path : Path}
    {parts : List (Completed Value)} (settle : List.Forall₂ Task.Settles
      ((schema.runOf settings request).fieldTasks selections type parent path) parts) :
    ((schema.runOf settings request).executeObject false (Selection.depthOfAll selections) selections type parent
      path).Settles ((Completed.all parts).map fun values =>
        ((schema.fieldGroups type selections).map FieldGroup.key).zip values) := by
  rw [Run.executeObject_eq (Nat.le_refl _), if_neg Bool.false_ne_true]
  exact (Run.gather_settles settle).bind rfl

end Schema.ComputesAlone

namespace Schema

variable {schema : Schema σ}

/-- A query of two lists of root fields with different response keys has the
entries and the errors of the first list and then those of the second one, each
of them as they are without the other. -/
theorem query_append (alone : schema.ComputesAlone) {settings : ExecutionSettings} {request : Request}
    {type : ObjectType σ} {front back : List Selection} (unlimited : settings.deadline = none)
    (query : request.operation = .query) (rootType : schema.rootType? .query = some type)
    (disjoint : ∀ one ∈ schema.fieldGroups type front, ∀ two ∈ schema.fieldGroups type back, one.key ≠ two.key)
    (shallow : Selection.depthOfAll (front ++ back) ≤ settings.maxDepth)
    (valid : schema.rootArgumentError? type { request with selectionSet := front ++ back } = none)
    (root : Value) (state stateFront stateBack : σ) :
    let whole := (schema.execute settings { request with selectionSet := front ++ back } root state).1
    let first := (schema.execute settings { request with selectionSet := front } root stateFront).1
    let second := (schema.execute settings { request with selectionSet := back } root stateBack).1
    whole.errors = first.errors ++ second.errors ∧
      ∃ one two, first.data = some one ∧ second.data = some two ∧ whole.data = some (one.followedBy two) := by
  obtain ⟨validFront, validBack⟩ := rootArgumentError?_append disjoint valid
  obtain ⟨shallowFront, shallowBack⟩ := Nat.max_le.mp (Selection.depthOfAll_append front back ▸ shallow)
  have found : schema.rootType? request.operation = some type := query ▸ rootType
  have parallel : (request.operation == .mutation) = false := by rw [query]; rfl
  obtain ⟨parts, settleFront⟩ := alone.fieldTasks_settle settings request front type root []
  obtain ⟨others, settleBack⟩ := alone.fieldTasks_settle settings request back type root []
  -- the groups of all fields are those of the first list and then
  -- those of the second one
  have settleWhole : List.Forall₂ Task.Settles
      ((schema.runOf settings request).fieldTasks (front ++ back) type root []) (parts ++ others) := by
    have groups := fieldGroups_append disjoint
    rw [Run.fieldTasks, show (schema.runOf settings request).schema = schema from rfl, groups, List.map_append]
    exact List.rel_append settleFront settleBack
  have length : parts.length = ((schema.fieldGroups type front).map FieldGroup.key).length := by
    rw [← settleFront.length_eq, Run.fieldTasks, List.length_map, List.length_map]
    rfl
  have together := Completed.all_append_zip length ((schema.fieldGroups type back).map FieldGroup.key) others
  simp only [execute_accepted unlimited found shallow valid,
    execute_accepted unlimited found shallowFront validFront,
    execute_accepted unlimited found shallowBack validBack, parallel,
    (ComputesAlone.executeObject_settles settleFront).run, (ComputesAlone.executeObject_settles settleBack).run,
    (ComputesAlone.executeObject_settles settleWhole).run, fieldGroups_append disjoint, List.map_append, together]
  exact ⟨rfl, _, _, rfl, rfl, respond_append _ _⟩

/-- Breaks down after a while. -/
def stalled (duration : Nat) : Resolver Unit :=
  (Resolver.immediate fun _ => .panic (some "stalled")).delayed duration

def stallQuery : ObjectType Unit where
  name := "Query"
  fields := [
    { name := "price", type := .nonNull (.builtIn .int), resolver := some (stalled 3) },
    { name := "stock", type := .builtIn .int, resolver := some (.immediate fun _ => .value (.int 4)) },
    { name := "label", type := .builtIn .string, resolver := some (stalled 1) }]

def stallSchema : Schema Unit := Schema.insert .empty (.object stallQuery)

def priceFields : List Selection := [.field { name := "price" } []]

def stockFields : List Selection := [.field { name := "stock" } [], .field { name := "label" } []]

theorem computesAlone_stallSchema : stallSchema.ComputesAlone := by
  refine .of_resolvers fun entry member bound inside => ?_
  have bindings : stallSchema.resolvers = [("Query", boundFields stallQuery.fields)] := rfl
  obtain rfl := List.mem_singleton.mp (bindings ▸ member)
  have known : bound.2 = stalled 3 ∨ bound.2 = .immediate (fun _ => .value (.int 4)) ∨ bound.2 = stalled 1 := by
    rcases List.mem_cons.mp inside with rfl | inside
    · exact .inl rfl
    · rcases List.mem_cons.mp inside with rfl | inside
      · exact .inr (.inl rfl)
      · exact .inr (.inr (by rw [List.mem_singleton.mp inside]))
  rcases known with same | same | same <;> rw [same]
  · exact ⟨_, (Resolver.computes_immediate _).delayed 3⟩
  · exact ⟨_, Resolver.computes_immediate _⟩
  · exact ⟨_, (Resolver.computes_immediate _).delayed 1⟩

/-- The price makes the data of both null, and what is said of the stock
is the same without it. -/
theorem query_append_stalled :
    let request : Request := {}
    let whole := (stallSchema.execute {} { request with selectionSet := priceFields ++ stockFields } .null ()).1
    let first := (stallSchema.execute {} { request with selectionSet := priceFields } .null ()).1
    let second := (stallSchema.execute {} { request with selectionSet := stockFields } .null ()).1
    stallSchema.ComputesAlone ∧ stallSchema.rootType? .query = some stallQuery ∧
      (∀ one ∈ stallSchema.fieldGroups stallQuery priceFields,
        ∀ two ∈ stallSchema.fieldGroups stallQuery stockFields, one.key ≠ two.key) ∧
      Selection.depthOfAll (priceFields ++ stockFields) ≤ 32 ∧
      stallSchema.rootArgumentError? stallQuery { request with selectionSet := priceFields ++ stockFields } = none ∧
      second.data = some (.object [("stock", .int 4), ("label", .null)]) ∧
      whole.errors = first.errors ++ second.errors ∧
      ∃ one two, first.data = some one ∧ second.data = some two ∧ whole.data = some (one.followedBy two) := by
  have disjoint : ∀ one ∈ stallSchema.fieldGroups stallQuery priceFields,
      ∀ two ∈ stallSchema.fieldGroups stallQuery stockFields, one.key ≠ two.key := by decide
  have shallow : Selection.depthOfAll (priceFields ++ stockFields) ≤ 32 := by decide
  exact ⟨computesAlone_stallSchema, rfl, disjoint, shallow, rfl, rfl,
    query_append computesAlone_stallSchema rfl rfl rfl disjoint shallow rfl .null () () ()⟩

end Schema

end SelectionEngine
