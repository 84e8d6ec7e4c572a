import SelectionEngine.Proofs.Execution.EffectOrder

namespace SelectionEngine

open SelectionEngine.Task (Logs Moves NotesStep)

variable {σ α : Type}

/-- Steps that lead from one state to another, each of them from the state that
the one before it left. -/
inductive Act.Linked (start : σ) : List (Act σ) → σ → Prop
  | nil : Linked start [] start
  | concat {acts act} : Linked start acts act.before → Linked start (acts ++ [act]) act.after

/-- What holds at the start and is kept by every step holds after all of
them, and before each one. -/
theorem Act.Linked.keeps {I : List (Act σ) → σ → Prop} {start final : σ} {acts : List (Act σ)}
    (linked : Act.Linked start acts final) (initial : I [] start)
    (step : ∀ front act, front ++ [act] <+: acts → I front act.before → I (front ++ [act]) act.after) :
    I acts final ∧ ∀ front act, front ++ [act] <+: acts → I front act.before := by
  induction linked with
  | nil => exact ⟨initial, fun front act upper => absurd (List.prefix_nil.mp upper) (by simp)⟩
  | @concat acts last _ ih =>
    obtain ⟨holds, before⟩ := ih fun front act upper => step front act (upper.trans (List.prefix_append _ _))
    refine ⟨step acts last (List.prefix_refl _) holds, fun front act upper => ?_⟩
    rcases List.prefix_concat_iff.mp upper with same | upper
    · obtain ⟨rfl, own⟩ := List.append_inj' same rfl
      obtain rfl := List.singleton_inj.mp own
      exact holds
    · exact before front act upper

theorem Task.run_after (duration : Nat) (task : Task σ α) (s : σ) : (task.after duration).run s = task.run s := by
  unfold Task.after
  split <;> rfl

namespace Schema

section

variable (schema : Schema σ) (settings : ExecutionSettings) (request : Request) (root : Value) (state : σ)

/-- The steps of resolvers lead from the state before a request
to the one after it. -/
theorem linked_acts : Act.Linked state (schema.acts settings request root state)
    (schema.execute settings request root state).2 := by
  have moves (type field : String) (resolver : Resolver (σ × List (Act σ)))
      (found : schema.watched.resolver? type field = some resolver) (info : ResolveInfo) :
      Moves (fun s s' => ∃ note, NotesStep (Act.mk note) s s') (resolver info) := by
    rw [watched, resolver?_mapResolvers] at found
    obtain ⟨own, _, rfl⟩ := Option.map_eq_some_iff.mp found
    exact (Task.moves_watched (Act.mk info) (own info)).mono fun _ _ noted => ⟨info, noted⟩
  have keeps (s s' : σ × List (Act σ)) : (∃ note, NotesStep (Act.mk note) s s') →
      Act.Linked state s.2 s.1 → Act.Linked state s'.2 s'.1 := by
    rintro ⟨note, noted⟩ linked
    rw [noted]
    exact @Act.Linked.concat _ state s.2 ⟨note, s.1, s'.1⟩ linked
  have linked : Act.Linked state (schema.watched.execute settings request root (state, [])).2.2
      (schema.watched.execute settings request root (state, [])).2.1 := execute_keeps moves keeps root .nil
  rwa [execute_watched] at linked

end

variable {schema : Schema σ} {settings : ExecutionSettings} {request : Request} {root : Value} {state : σ}
  {delay : String → String → Nat}

/-- Where no resolver sleeps, a request is refused before anything is done for
it, or answered with data. -/
theorem Awake.refused_or_data (awake : schema.Awake) (settings : ExecutionSettings)
    (request : Request) (root : Value) (state : σ) :
    (∃ report, schema.prepare settings request root = .error report ∧
        schema.execute settings request root state = (.ofError report, state)) ∨
      ∃ data, (schema.execute settings request root state).1.data = some data := by
  cases prepared : schema.prepare settings request root with
  | error report => exact .inl ⟨report, rfl, by simp only [execute, prepared]⟩
  | ok task =>
    let unlimited : ExecutionSettings := { settings with deadline := none }
    have accepted : schema.prepare unlimited request root = .ok task := prepared
    have sameDepth : settings.maxDepth = unlimited.maxDepth := rfl
    have same : schema.execute settings request root state = schema.execute unlimited request root state :=
      awake.execute_eq sameDepth request root state
    have answered : (schema.execute unlimited request root state).1.data =
        some (((task.run state).1.value?.map Value.object).getD .null) := by
      simp only [execute, accepted]
      rfl
    exact .inr ⟨_, same ▸ answered⟩

/-- Every field that is asked for its value is called on an object of the run. -/
theorem called_of_data {data : Value} (answered : (schema.execute settings request root state).1.data = some data) :
    ∀ resolution ∈ schema.resolutions settings request root state,
      schema.Called request root (schema.resolutions settings request root state) resolution.info := by
  obtain ⟨_, ⟨type, found⟩, started⟩ := started_of_data answered
  obtain ⟨account, executes, log⟩ := started type found
  exact fun resolution member => executes.called log.symm.subset (.root found) resolution (log.subset member)

/-- A field gets what its resolver ends with. -/
theorem run_dispatch {info : ResolveInfo} {resolver : Resolver σ}
    (bound : schema.resolver? info.parentType info.field = some resolver) (s : σ) :
    (schema.dispatch info).run s = (((resolver info).run s).1.settle, ((resolver info).run s).2) := by
  simp only [dispatch, bound, Task.run_bind, Task.run]

/-- The value of a field is there after its one step on the state, or
whatever the state is. -/
theorem ActsAfter.run_of_logs (timed : schema.ActsAfter delay) {info : ResolveInfo} {now finish : Nat}
    {log : List (Nat × Act σ)} {outcome : Except ResolverError Value}
    (logs : Logs ((schema.dispatch info).watched (Act.mk info)) now log outcome finish) :
    (log = [] ∧ ∀ s, (schema.dispatch info).run s = (outcome, s)) ∨
      ∃ act, log.map Prod.snd = [act] ∧ act.info = info ∧
        (schema.dispatch info).run act.before = (outcome, act.after) := by
  cases bound : schema.resolver? info.parentType info.field with
  | none =>
    simp only [dispatch, bound] at logs ⊢
    cases logs
    exact .inl ⟨rfl, fun _ => rfl⟩
  | some resolver =>
    cases timed _ _ resolver bound with
    | acting f =>
      obtain ⟨_, s, rfl, rfl⟩ := logs_acting bound logs
      refine .inr ⟨_, rfl, rfl, ?_⟩
      rw [run_dispatch bound, Resolver.delayed, Task.run_after]
      rfl
    | immediate f =>
      simp only [dispatch, bound, Task.watched_bind] at logs
      obtain ⟨result, asked, rfl⟩ := Logs.of_bind_done logs
      cases asked.of_after
      refine .inl ⟨rfl, fun s => ?_⟩
      rw [run_dispatch bound, Resolver.delayed, Task.run_after]
      rfl

/-- Every field gets its value in one step of its own, or does not look at the
state, and there are no other steps. -/
theorem ActsAfter.replayed (timed : schema.ActsAfter delay) {data : Value}
    (answered : (schema.execute settings request root state).1.data = some data) :
    (∀ resolution ∈ schema.resolutions settings request root state,
      (∀ s, (schema.dispatch resolution.info).run s = (resolution.outcome, s)) ∨
        ∃ act ∈ schema.acts settings request root state, act.info = resolution.info ∧
          (schema.dispatch act.info).run act.before = (resolution.outcome, act.after)) ∧
      ∀ act ∈ schema.acts settings request root state, ∃ outcome,
        ⟨act.info, outcome⟩ ∈ schema.resolutions settings request root state ∧
          (schema.dispatch act.info).run act.before = (outcome, act.after) := by
  obtain ⟨type, completed, final, log, visits, _, _, acts, _, resolutions, traced⟩ := acted_of_data answered
  have genuine := traced.timeline.genuine
  have noted (act : Act σ) : act ∈ schema.acts settings request root state ↔
      ∃ visit ∈ visits, act ∈ visit.log.map Prod.snd := by
    rw [acts, (traced.timeline.noted.map Prod.snd).mem_iff, List.map_flatMap, List.mem_flatMap]
  refine ⟨fun resolution asked => ?_, fun act taken => ?_⟩
  · obtain ⟨visit, member, rfl⟩ := List.mem_map.mp (resolutions.subset asked)
    rcases timed.run_of_logs (genuine visit member) with ⟨_, same⟩ | ⟨act, logged, own, run⟩
    · exact .inl same
    · exact .inr ⟨act, (noted act).mpr ⟨visit, member, logged ▸ .head _⟩, own, own ▸ run⟩
  · obtain ⟨visit, member, inside⟩ := (noted act).mp taken
    rcases timed.run_of_logs (genuine visit member) with ⟨none, _⟩ | ⟨other, logged, own, run⟩
    · simp [none] at inside
    · obtain rfl := List.mem_singleton.mp (logged ▸ inside)
      refine ⟨visit.resolution.outcome, resolutions.symm.subset (List.mem_map.mpr ⟨visit, member, ?_⟩), own ▸ run⟩
      rw [own]

end Schema

end SelectionEngine
