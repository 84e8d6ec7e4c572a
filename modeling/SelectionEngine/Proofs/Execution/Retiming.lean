import SelectionEngine.Proofs.Execution.DepthFirst
import SelectionEngine.Proofs.Execution.Mutations

namespace SelectionEngine

open SelectionEngine.Task (Logs)

variable {σ : Type}

/-- The resolver that takes the same steps without any sleep. -/
def Resolver.atOnce (resolver : Resolver σ) : Resolver σ := fun info => (resolver info).withoutSleeps

namespace Schema

/-- The schema in which every resolver takes its steps without any sleep. -/
def atOnce (schema : Schema σ) : Schema σ := schema.mapResolvers Resolver.atOnce

/-- Two schemas of the same types, in which fields get their values by the same
steps, each schema in its own time. -/
structure SameSteps (schema other : Schema σ) : Prop where
  types : schema.withoutResolvers = other.withoutResolvers
  dispatch (info : ResolveInfo) : (schema.dispatch info).withoutSleeps = (other.dispatch info).withoutSleeps

variable {schema other : Schema σ}

theorem dispatch_atOnce (schema : Schema σ) (info : ResolveInfo) :
    schema.atOnce.dispatch info = (schema.dispatch info).withoutSleeps := by
  have bound : schema.atOnce.resolver? info.parentType info.field =
      (schema.resolver? info.parentType info.field).map Resolver.atOnce :=
    schema.resolver?_mapResolvers Resolver.atOnce info.parentType info.field
  simp only [dispatch, bound]
  rcases schema.resolver? info.parentType info.field with _ | resolver
  · rfl
  · simp only [Option.map_some, Task.withoutSleeps_bind]
    rfl

theorem sameSteps_atOnce (schema : Schema σ) : schema.SameSteps schema.atOnce where
  types := (schema.withoutResolvers_mapResolvers Resolver.atOnce).symm
  dispatch info := by rw [dispatch_atOnce, Task.withoutSleeps_withoutSleeps]

theorem sameSteps_of_atOnce_eq (retimed : schema.atOnce = other.atOnce) : schema.SameSteps other where
  types := by
    rw [schema.sameSteps_atOnce.types, retimed, other.sameSteps_atOnce.types]
  dispatch info := by
    rw [schema.sameSteps_atOnce.dispatch info, retimed, other.sameSteps_atOnce.dispatch info]

theorem SameSteps.watched (same : schema.SameSteps other) : schema.watched.SameSteps other.watched where
  types := by
    simp only [Schema.watched, withoutResolvers_mapResolvers]
    exact same.types
  dispatch info := by
    rw [dispatch_watched, dispatch_watched, Task.watched_withoutSleeps, Task.watched_withoutSleeps,
      same.dispatch info]

variable {settings : ExecutionSettings} (sequential : settings.parallelFields = false)

include sequential

/-- What is done one after another takes the same steps, however long each
of them is waited for. -/
theorem SameSteps.related (same : schema.SameSteps other) (request : Request) :
    (schema.runOf settings request).Related (Task.sameSteps σ) (other.runOf settings request) where
  schema := same.types
  variableValues := rfl
  gather related := by
    simp only [Run.gather, runOf, sequential, if_neg Bool.false_ne_true]
    exact (Task.sameSteps σ).inTurn related
  dispatch := same.dispatch

variable (unlimited : settings.deadline = none)

include unlimited

theorem SameSteps.execute_eq (same : schema.SameSteps other) (request : Request) (root : Value) (state : σ) :
    schema.execute settings request root state = other.execute settings request root state := by
  rcases prepare_related (same.related sequential request) rfl root with
    ⟨report, refused, alsoRefused⟩ | ⟨task, otherTask, accepted, alsoAccepted, steps⟩
  · simp only [execute, refused, alsoRefused]
  · have ends : task.run state = otherTask.run state := by
      rw [← Task.run_withoutSleeps, steps, Task.run_withoutSleeps]
    simp only [execute, accepted, alsoAccepted, unlimited, ends]

theorem SameSteps.acts_eq (same : schema.SameSteps other) (request : Request) (root : Value) (state : σ) :
    schema.acts settings request root state = other.acts settings request root state := by
  simp only [acts, same.watched.execute_eq sequential unlimited]

omit sequential in
/-- Without a deadline a request is refused, and nothing is done for it, or it
is answered with data. -/
theorem refused_or_data (schema : Schema σ) (request : Request) (root : Value) (state : σ) :
    schema.acts settings request root state = [] ∨
      ∃ data, (schema.execute settings request root state).1.data = some data := by
  rcases prepare_related (schema.watched_related settings request) rfl root with
    ⟨report, refused, alsoRefused⟩ | ⟨task, watched, accepted, _⟩
  · exact .inl (by simp only [acts, execute, alsoRefused])
  · exact .inr ⟨_, by simp only [execute, accepted, unlimited, respond]; rfl⟩

/-- Resolvers take their steps in depth-first order of the response. -/
theorem acts_depthFirst (schema : Schema σ) (request : Request) (root : Value) (state : σ) :
    (schema.acts settings request root state).Pairwise fun one two =>
      DepthFirst schema (schema.position? settings request root state) one.info.path two.info.path := by
  rcases schema.refused_or_data unlimited request root state with none | ⟨data, answered⟩
  · exact none ▸ .nil
  · obtain ⟨type, completed, final, log, visits, found, _, acts, _, resolutions, traced⟩ :=
      acted_of_data answered
    have inOrder := traced.executes.depthFirst position?_join (traced.executes.recorded resolutions)
      (located_root found)
    have own : ∀ visit ∈ visits, ∀ act ∈ visit.log.map Prod.snd, act.info = visit.resolution.info := by
      intro visit member act listed
      obtain ⟨entry, logged, rfl⟩ := List.mem_map.mp listed
      obtain ⟨before, after, known⟩ := Logs.of_watched (traced.timeline.genuine visit member) entry logged
      rw [known]
    -- the visits are in depth-first order, and every step lies
    -- where its visit does
    rw [acts, traced.timeline.inTurn sequential, List.map_flatMap, List.pairwise_flatMap]
    refine ⟨fun visit member => ?_, ?_⟩
    · refine List.pairwise_iff_forall_sublist.mpr fun {one two} pair => .inl ?_
      have same : one.info = two.info := (own visit member one (pair.subset (.head _))).trans
        (own visit member two (pair.subset (.tail _ (.head _)))).symm
      exact same ▸ List.prefix_refl _
    · refine (List.pairwise_map.mp inOrder).imp_of_mem fun {one two} oneMember twoMember before => ?_
      intro act inOne other inTwo
      rw [own one oneMember act inOne, own two twoMember other inTwo]
      exact before

/-- Where fields are worked on one after another, time has no effect: the
response, the state and the steps on the state are the same for all schemas
whose resolvers take the same steps, as if no resolver ever slept, and resolvers
take their steps in depth-first order of the response. -/
theorem timing_without_effect (retimed : schema.atOnce = other.atOnce) (request : Request) (root : Value)
    (state : σ) :
    other.execute settings request root state = schema.execute settings request root state ∧
      other.acts settings request root state = schema.acts settings request root state ∧
      schema.atOnce.execute settings request root state = schema.execute settings request root state ∧
      schema.atOnce.acts settings request root state = schema.acts settings request root state ∧
      (schema.acts settings request root state).Pairwise fun one two =>
        DepthFirst schema (schema.position? settings request root state) one.info.path two.info.path := by
  have same := sameSteps_of_atOnce_eq retimed
  have awake := schema.sameSteps_atOnce
  exact ⟨(same.execute_eq sequential unlimited request root state).symm,
    (same.acts_eq sequential unlimited request root state).symm,
    (awake.execute_eq sequential unlimited request root state).symm,
    (awake.acts_eq sequential unlimited request root state).symm,
    schema.acts_depthFirst sequential unlimited request root state⟩

omit sequential unlimited

/-- A list of objects, each with two fields that take the given
times to write a word. -/
def ledgerTypes (debit credit : Nat) : List (TypeDef (List String)) := [
  .object { name := "Line", fields := [
    { name := "debit", type := .builtIn .int
      resolver := some ((scribe "debit" (.value (.int 1))).delayed debit) },
    { name := "credit", type := .builtIn .int
      resolver := some ((scribe "credit" (.error ⟨"no", []⟩)).delayed credit) }] },
  .object { name := "Query", fields := [
    { name := "lines", type := .list (.named "Line") },
    { name := "total", type := .builtIn .int, resolver := some (scribe "total" (.value (.int 2))) }] }]

def ledgerSchema (debit credit : Nat) : Schema (List String) := (ledgerTypes debit credit).foldl .insert .empty

def ledgerRequest : Request where
  selectionSet := [.field { name := "lines" } [.field { name := "debit" } [], .field { name := "credit" } []],
    .field { name := "total" } []]

def ledgerRoot : Value := .object [("lines", .list [.object [], .object []])]

/-- The last field is asked last although it is the only one that
writes its word at once. -/
theorem timing_without_effect_ledger :
    let settings : ExecutionSettings := { parallelFields := false }
    let slow := ledgerSchema 5 1
    let quick := ledgerSchema 0 0
    let other := ledgerSchema 2 7
    slow.atOnce = other.atOnce ∧ slow.atOnce.acts settings ledgerRequest ledgerRoot [] =
        quick.acts settings ledgerRequest ledgerRoot [] ∧
      (slow.execute settings ledgerRequest ledgerRoot []).2 = ["debit", "credit", "debit", "credit", "total"] ∧
      (slow.execute {} ledgerRequest ledgerRoot []).2 = ["total", "credit", "credit", "debit", "debit"] ∧
      (slow.acts settings ledgerRequest ledgerRoot []).map (fun act => act.info.path) = [
        [.key "lines", .index 0, .key "debit"], [.key "lines", .index 0, .key "credit"],
        [.key "lines", .index 1, .key "debit"], [.key "lines", .index 1, .key "credit"], [.key "total"]] ∧
      other.execute settings ledgerRequest ledgerRoot [] = slow.execute settings ledgerRequest ledgerRoot [] ∧
      other.acts settings ledgerRequest ledgerRoot [] = slow.acts settings ledgerRequest ledgerRoot [] ∧
      slow.atOnce.execute settings ledgerRequest ledgerRoot [] =
        slow.execute settings ledgerRequest ledgerRoot [] ∧
      slow.atOnce.acts settings ledgerRequest ledgerRoot [] = slow.acts settings ledgerRequest ledgerRoot [] ∧
      (slow.acts settings ledgerRequest ledgerRoot []).Pairwise fun one two =>
        DepthFirst slow (slow.position? settings ledgerRequest ledgerRoot []) one.info.path two.info.path := by
  have retimed : (ledgerSchema 5 1).atOnce = (ledgerSchema 2 7).atOnce := rfl
  exact ⟨retimed, rfl, rfl, rfl, rfl,
    timing_without_effect rfl rfl retimed ledgerRequest ledgerRoot []⟩

end Schema

end SelectionEngine
