import SelectionEngine.Proofs.Execution.Scheduling

namespace SelectionEngine.Schema

open SelectionEngine.Task (Moves Refines)

variable {σ τ : Type} {schema : Schema σ} {settings : ExecutionSettings} {request : Request}

/-- What is seen of an execution is the execution on what is seen. -/
theorem execute_of_refines {other : Schema τ} {view : τ → σ}
    (related : (schema.runOf settings request).Related (Refines.relation view) (other.runOf settings request))
    (root : Value) (state : τ) :
    (other.execute settings request root state).1 = (schema.execute settings request root (view state)).1 ∧
      view (other.execute settings request root state).2 =
        (schema.execute settings request root (view state)).2 := by
  rcases prepare_related related rfl root with
    ⟨report, refused, alsoRefused⟩ | ⟨task, fine, accepted, alsoAccepted, refines⟩
  · simp only [execute, refused, alsoRefused, and_self]
  · simp only [execute, accepted, alsoAccepted]
    cases settings.deadline with
    | none =>
      obtain ⟨result, seen⟩ := Refines.run refines state
      simp only [result, seen, and_self]
    | some deadline =>
      obtain ⟨result, seen⟩ := Refines.runWithin refines deadline.nanoseconds state
      rcases coarse : task.runWithin deadline.nanoseconds (view state) with ⟨_ | completed, after⟩ <;>
        rcases whole : fine.runWithin deadline.nanoseconds state with ⟨_ | other, final⟩ <;>
        simp_all

/-- The tasks of a schema whose resolvers only take steps that a
relation admits. -/
theorem moves_runOf {R : σ → σ → Prop} (each : ∀ type field resolver, schema.resolver? type field = some resolver →
    ∀ info, Moves R (resolver info)) (settings : ExecutionSettings) (request : Request) :
    (schema.runOf settings request).Related (Moves.relation R) (schema.runOf settings request) := by
  refine Run.moves_related fun info => ?_
  simp only [runOf, dispatch]
  split
  · next resolver found => exact (each _ _ resolver found info).bind fun outcome => .done _
  · exact .done _

/-- What the steps of all resolvers keep holds after an execution
if it holds before. -/
theorem execute_keeps {R : σ → σ → Prop} (each : ∀ type field resolver,
    schema.resolver? type field = some resolver → ∀ info, Moves R (resolver info)) {I : σ → Prop}
    (keeps : ∀ s s', R s s' → I s → I s') (root : Value) {state : σ} (holds : I state) :
    I (schema.execute settings request root state).2 := by
  rcases prepare_related (moves_runOf each settings request) rfl root with
    ⟨report, refused, _⟩ | ⟨task, _, accepted, _, moves⟩
  · simpa only [execute, refused] using holds
  · simp only [execute, accepted]
    cases settings.deadline with
    | none => exact Moves.run moves keeps holds
    | some deadline =>
      have kept := Moves.runWithin moves keeps deadline.nanoseconds holds
      rcases ends : task.runWithin deadline.nanoseconds state with ⟨_ | completed, final⟩ <;>
        simpa only [ends] using kept

end SelectionEngine.Schema
