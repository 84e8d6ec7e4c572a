import SelectionEngine.Proofs.Execution.Responses
import SelectionEngine.Proofs.Task.Settling
import SelectionEngine.Schema.Registry

namespace SelectionEngine

variable {σ τ : Type}

/-- The tasks end with the same result, whatever happens to their
states meanwhile. -/
def Task.sameResult (σ τ : Type) : TaskRelation σ τ where
  Holds task other := ∃ a, task.Settles a ∧ other.Settles a
  done a := ⟨a, rfl, rfl⟩
  bind := by
    rintro _ _ _ _ next otherNext ⟨a, first, otherFirst⟩ rest
    obtain ⟨b, second, otherSecond⟩ := rest a
    exact ⟨b, first.bind second, otherFirst.bind otherSecond⟩

theorem Task.sameResult_forall₂ {α : Type} {tasks : List (Task σ α)} {others : List (Task τ α)}
    (related : List.Forall₂ (Task.sameResult σ τ).Holds tasks others) :
    ∃ as, List.Forall₂ Task.Settles tasks as ∧ List.Forall₂ Task.Settles others as := by
  induction related with
  | nil => exact ⟨[], .nil, .nil⟩
  | cons first _ ih =>
    obtain ⟨a, settles, otherSettles⟩ := first
    obtain ⟨as, rest, otherRest⟩ := ih
    exact ⟨a :: as, .cons settles rest, .cons otherSettles otherRest⟩

theorem Run.gather_settles {ρ α : Type} {run : Run ρ σ} {tasks : List (Task σ α)} {as : List α}
    (settle : List.Forall₂ Task.Settles tasks as) : (run.gather tasks).Settles as := by
  unfold gather
  split
  · exact .all settle
  · exact .inTurn settle

namespace Resolver

/-- The outcome of the resolver depends only on what it is told about the field.
It may take any time and touch the state, but not look at it. -/
def Computes (resolver : Resolver σ) (result : ResolveInfo → Outcome) : Prop :=
  ∀ info, (resolver info).Settles (result info)

theorem computes_immediate (result : ResolveInfo → Outcome) : (immediate result : Resolver σ).Computes result :=
  fun _ => rfl

theorem Computes.delayed {resolver : Resolver σ} {result : ResolveInfo → Outcome}
    (computes : resolver.Computes result) (duration : Nat) : (resolver.delayed duration).Computes result := by
  intro info
  unfold Resolver.delayed Task.after
  split <;> exact computes info

end Resolver

theorem Schema.mem_of_resolver? {schema : Schema σ} {type field : String} {resolver : Resolver σ}
    (bound : schema.resolver? type field = some resolver) :
    ∃ own, (type, own) ∈ schema.resolvers ∧ (field, resolver) ∈ own := by
  obtain ⟨own, ofType, ofField⟩ := Option.bind_eq_some_iff.mp bound
  exact ⟨own, Entries.mem_of_get? ofType, Entries.mem_of_get? ofField⟩

/-- Two schemas of the same types in which the same fields have resolvers, and
these compute the same results, each in its own time. -/
structure Schema.SameResults (schema : Schema σ) (other : Schema τ) : Prop where
  types : schema.withoutResolvers = other.withoutResolvers
  resolvers (type field : String) :
    schema.resolver? type field = none ∧ other.resolver? type field = none ∨
      ∃ resolver otherResolver result, schema.resolver? type field = some resolver ∧
        other.resolver? type field = some otherResolver ∧
        resolver.Computes result ∧ otherResolver.Computes result

namespace Schema

variable {schema : Schema σ} {other : Schema τ}

theorem SameResults.dispatch (same : schema.SameResults other) (info : ResolveInfo) :
    (Task.sameResult σ τ).Holds (schema.dispatch info) (other.dispatch info) := by
  unfold Schema.dispatch
  rcases same.resolvers info.parentType info.field with
    ⟨none, otherNone⟩ | ⟨resolver, otherResolver, result, found, otherFound, computes, otherComputes⟩
  · rw [none, otherNone]
    exact (Task.sameResult σ τ).done _
  · rw [found, otherFound]
    exact (Task.sameResult σ τ).bind ⟨_, computes info, otherComputes info⟩ fun _ =>
      (Task.sameResult σ τ).done _

theorem SameResults.related (same : schema.SameResults other) (settings otherSettings : ExecutionSettings)
    (request : Request) :
    (schema.runOf settings request).Related (Task.sameResult σ τ) (other.runOf otherSettings request) where
  schema := same.types
  variableValues := rfl
  gather related := by
    obtain ⟨as, settle, otherSettle⟩ := Task.sameResult_forall₂ related
    exact ⟨as, Run.gather_settles settle, Run.gather_settles otherSettle⟩
  dispatch := same.dispatch

/-- Requests are accepted by both of two related schemas and then lead to
related work, or both refuse them for the same reason. -/
theorem prepare_related {R : TaskRelation σ τ} {settings otherSettings : ExecutionSettings} {request : Request}
    (related : (schema.runOf settings request).Related R (other.runOf otherSettings request))
    (sameDepth : settings.maxDepth = otherSettings.maxDepth) (root : Value) :
    (∃ report, schema.prepare settings request root = .error report ∧
        other.prepare otherSettings request root = .error report) ∨
      ∃ task otherTask, schema.prepare settings request root = .ok task ∧
        other.prepare otherSettings request root = .ok otherTask ∧ R.Holds task otherTask := by
  have types : schema.withoutResolvers = other.withoutResolvers := related.schema
  have roots := schema.rootType?_withoutResolvers request.operation
  rw [types, rootType?_withoutResolvers] at roots
  simp only [prepare, sameDepth]
  rcases one : schema.rootType? request.operation with _ | type <;>
    rcases two : other.rootType? request.operation with _ | otherType <;>
    simp only [one, two, Option.map_some, Option.map_none, Option.some.injEq, reduceCtorEq] at roots
  · exact .inl ⟨_, rfl, rfl⟩
  · have arguments : other.rootArgumentError? otherType request = schema.rootArgumentError? type request := by
      rw [← rootArgumentError?_withoutResolvers, ← types, roots, rootArgumentError?_withoutResolvers]
    dsimp only
    rw [arguments]
    split
    · exact .inl ⟨_, rfl, rfl⟩
    · split
      · exact .inl ⟨_, rfl, rfl⟩
      · exact .inr ⟨_, _, rfl, rfl, related.executeObject _ _ _ type otherType roots.symm root []⟩

/-- The response is the same whether fields are worked on at the same time or
one after another, and whenever their resolvers end. -/
theorem response_eq_of_sameResults (same : schema.SameResults other)
    {settings otherSettings : ExecutionSettings} (sameDepth : settings.maxDepth = otherSettings.maxDepth)
    (unlimited : settings.deadline = none) (otherUnlimited : otherSettings.deadline = none) (request : Request)
    (root : Value) (state : σ) (otherState : τ) :
    (schema.execute settings request root state).1 =
      (other.execute otherSettings request root otherState).1 := by
  simp only [execute, unlimited, otherUnlimited]
  rcases prepare_related (same.related settings otherSettings request) sameDepth root with
    ⟨report, refused, otherRefused⟩ |
    ⟨task, otherTask, accepted, otherAccepted, completed, settles, otherSettles⟩
  · simp only [refused, otherRefused]
  · simp only [accepted, otherAccepted, settles.run, otherSettles.run]

/-- Two fields whose resolvers fail after the given times. -/
def failureTypes (first second : Nat) : List (TypeDef Unit) := [
  .object { name := "Query", fields := [
    { name := "first", type := .builtIn .int
      resolver := some ((Resolver.immediate fun _ => .error ⟨"first", []⟩).delayed first) },
    { name := "second", type := .builtIn .int
      resolver := some ((Resolver.immediate fun _ => .panic (some "second")).delayed second) }] }]

def failureSchema (first second : Nat) : Schema Unit := (failureTypes first second).foldl .insert .empty

theorem resolver?_failureSchema (first second : Nat) (type field : String) :
    (failureSchema first second).resolver? type field =
      if "Query" = type then
        if "first" = field then some ((Resolver.immediate fun _ => .error ⟨"first", []⟩).delayed first)
        else if "second" = field then
          some ((Resolver.immediate fun _ => .panic (some "second")).delayed second)
        else none
      else none := by
  by_cases query : "Query" = type
  · subst query
    rfl
  · simp only [if_neg query]
    simp [resolver?, failureSchema, failureTypes, insert, empty, Entries.set, Entries.get?, query]

theorem sameResults_failureSchema (first second otherFirst otherSecond : Nat) :
    (failureSchema first second).SameResults (failureSchema otherFirst otherSecond) where
  types := rfl
  resolvers type field := by
    simp only [resolver?_failureSchema]
    split
    · split
      · exact .inr ⟨_, _, _, rfl, rfl, (Resolver.computes_immediate _).delayed _,
          (Resolver.computes_immediate _).delayed _⟩
      · split
        · exact .inr ⟨_, _, _, rfl, rfl, (Resolver.computes_immediate _).delayed _,
            (Resolver.computes_immediate _).delayed _⟩
        · exact .inl ⟨rfl, rfl⟩
    · exact .inl ⟨rfl, rfl⟩

def failureRequest : Request where
  selectionSet := [.field { name := "first" } [], .field { name := "second" } []]

/-- The first error stays the first one when it happens last. -/
theorem response_eq_of_delays : (failureSchema 0 0).SameResults (failureSchema 2 1) ∧
    ((failureSchema 0 0).execute { parallelFields := false } failureRequest .null ()).1 =
      ((failureSchema 2 1).execute { parallelFields := true } failureRequest .null ()).1 :=
  ⟨sameResults_failureSchema 0 0 2 1,
    response_eq_of_sameResults (sameResults_failureSchema 0 0 2 1) rfl rfl rfl failureRequest .null () ()⟩

end Schema

end SelectionEngine
