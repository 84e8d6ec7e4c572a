import SelectionEngine.Proofs.Execution.Replay

namespace SelectionEngine

open SelectionEngine.Task (Logs)

variable {σ : Type}

theorem Act.Linked.of_nil {start final : σ} (linked : Act.Linked start [] final) : final = start := by
  generalize none : ([] : List (Act σ)) = acts at linked
  cases linked with
  | nil => rfl
  | concat => simp at none

theorem Act.Linked.of_cons {start final : σ} {act : Act σ} {acts : List (Act σ)}
    (linked : Act.Linked start (act :: acts) final) : act.before = start ∧ Act.Linked act.after acts final := by
  generalize whole : act :: acts = all at linked
  induction linked generalizing acts with
  | nil => cases whole
  | @concat front last earlier ih =>
    cases front with
    | nil =>
      obtain ⟨rfl, rfl⟩ := List.cons.inj whole
      exact ⟨earlier.of_nil, .nil⟩
    | cons first front =>
      obtain ⟨rfl, rfl⟩ := List.cons.inj whole
      obtain ⟨before, later⟩ := ih rfl
      exact ⟨before, .concat later⟩

namespace Schema

/-- Fields get their values one after another, each of them on the state that
the one before it left. -/
inductive Succession (schema : Schema σ) : σ → List Resolution → σ → Prop
  | nil {state} : Succession schema state [] state
  | cons {resolution resolutions state middle final} :
      (schema.dispatch resolution.info).run state = (resolution.outcome, middle) →
      Succession schema middle resolutions final → Succession schema state (resolution :: resolutions) final

namespace Succession

variable {schema : Schema σ} {state final : σ} {resolutions front back : List Resolution}

theorem of_cons {resolution : Resolution}
    (succession : schema.Succession state (resolution :: resolutions) final) :
    ∃ middle, (schema.dispatch resolution.info).run state = (resolution.outcome, middle) ∧
      schema.Succession middle resolutions final := by
  cases succession with
  | cons run rest => exact ⟨_, run, rest⟩

theorem of_append (succession : schema.Succession state (front ++ back) final) :
    ∃ middle, schema.Succession state front middle ∧ schema.Succession middle back final := by
  induction front generalizing state with
  | nil => exact ⟨state, .nil, succession⟩
  | cons resolution front ih =>
    obtain ⟨next, run, rest⟩ := succession.of_cons
    obtain ⟨middle, before, after⟩ := ih rest
    exact ⟨middle, .cons run before, after⟩

/-- Fields that leave every state as it is get their values on the first one. -/
theorem of_steady (steady : ∀ resolution ∈ resolutions, ∀ s, ((schema.dispatch resolution.info).run s).2 = s)
    (succession : schema.Succession state resolutions final) :
    final = state ∧ ∀ resolution ∈ resolutions,
      (schema.dispatch resolution.info).run state = (resolution.outcome, state) := by
  induction succession with
  | nil => exact ⟨rfl, nofun⟩
  | @cons resolution resolutions state middle final run _ ih =>
    obtain ⟨own, others⟩ := List.forall_mem_cons.mp steady
    obtain rfl : middle = state := by rw [← own state, run]
    obtain ⟨same, each⟩ := ih others
    exact ⟨same, List.forall_mem_cons.mpr ⟨run, each⟩⟩

end Succession

variable {schema : Schema σ} {settings : ExecutionSettings} {request : Request} {root : Value} {state final : σ}
  {delay : String → String → Nat}

theorem ActsAfter.succession_of_visits (timed : schema.ActsAfter delay) {visits : List (Visit (Act σ))}
    (genuine : ∀ visit ∈ visits,
      Logs ((schema.dispatch visit.resolution.info).watched (Act.mk visit.resolution.info))
      visit.start visit.log visit.resolution.outcome (visit.start + visit.took))
    (linked : Act.Linked state (visits.flatMap fun visit => visit.log.map Prod.snd) final) :
    schema.Succession state (visits.map Visit.resolution) final := by
  induction visits generalizing state with
  | nil =>
    obtain rfl := linked.of_nil
    exact .nil
  | cons visit visits ih =>
    obtain ⟨own, others⟩ := List.forall_mem_cons.mp genuine
    rw [List.flatMap_cons] at linked
    rcases timed.run_of_logs own with ⟨none, same⟩ | ⟨act, logged, _, run⟩
    · rw [none] at linked
      exact .cons (same state) (ih others linked)
    · rw [logged] at linked
      obtain ⟨rfl, later⟩ := linked.of_cons
      exact .cons run (ih others later)

/-- Where no resolver sleeps, fields get their values one after another in the
order of the response. -/
theorem Awake.exists_succession (awake : schema.Awake) (timed : schema.ActsAfter delay) {data : Value}
    (answered : (schema.execute settings request root state).1.data = some data) :
    ∃ type account, schema.rootType? request.operation = some type ∧
      Executes schema request.variableValues (.object type request.selectionSet root) [] account ∧
      (schema.resolutions settings request root state).Perm account.resolutions ∧
      (schema.execute settings request root state).1.errors = account.completed.errors ∧
      schema.Succession state account.resolutions (schema.execute settings request root state).2 := by
  let sequential : ExecutionSettings := { settings with parallelFields := false }
  have sameDepth : settings.maxDepth = sequential.maxDepth := rfl
  have linked := schema.linked_acts sequential request root state
  rw [awake.execute_eq sameDepth] at answered ⊢
  rw [awake.resolutions_eq request root state settings sequential]
  obtain ⟨type, completed, final, log, visits, found, executed, acts, _, resolutions, traced⟩ :=
    acted_of_data answered
  rw [acts, traced.timeline.inTurn rfl, List.map_flatMap] at linked
  refine ⟨type, _, found, traced.executes, resolutions, ?_,
    timed.succession_of_visits traced.timeline.genuine linked⟩
  rw [executed]
  rfl

end Schema

end SelectionEngine
