import SelectionEngine.Proofs.Execution.Calls

namespace SelectionEngine

open SelectionEngine.Task (Logs Refines sifted)

variable {ρ σ : Type}

/-- The resolver that also notes down each of its steps on the state. -/
def Resolver.watched (resolver : Resolver σ) : Resolver (σ × List (Act σ)) := fun info =>
  (resolver info).watched (Act.mk info)

/-- The steps on the state in notes about everything that happens. -/
def Event.actsIn (log : List (Nat × Event σ)) : List (Nat × Act σ) :=
  log.filterMap fun entry => entry.2.act?.map (entry.1, ·)

theorem Event.map_snd_actsIn (log : List (Nat × Event σ)) :
    (actsIn log).map Prod.snd = (log.map Prod.snd).filterMap act? := by
  simp [actsIn, List.map_filterMap, List.filterMap_map, Function.comp_def]

theorem Event.inOrder_actsIn {log : List (Nat × Event σ)} (inOrder : log.Pairwise fun one two => one.1 ≤ two.1) :
    (actsIn log).Pairwise fun one two => one.1 ≤ two.1 := by
  refine inOrder.filterMap _ fun one two before act found other known => ?_
  obtain ⟨_, _, rfl⟩ := Option.map_eq_some_iff.mp found
  obtain ⟨_, _, rfl⟩ := Option.map_eq_some_iff.mp known
  exact before

/-- The visit with only the steps on the state in its notes. -/
def Visit.acting (visit : Visit (Event σ)) : Visit (Act σ) := { visit with log := Event.actsIn visit.log }

namespace Run

variable {run : Run ρ σ}

theorem logs_acting {info : ResolveInfo} {now finish : Nat} {log : List (Nat × Event σ)}
    {outcome : Except ResolverError Value} (logs : Logs (run.chronicle.dispatch info) now log outcome finish) :
    Logs (run.watched.dispatch info) now (Event.actsIn log) outcome finish := by
  obtain ⟨acts, watched, rfl⟩ := logs_chronicle logs
  have same : Event.actsIn (acts.map (fun act => (act.1, Event.acted act.2)) ++
      [(finish, .settled ⟨info, outcome⟩)]) = acts := by
    simp [Event.actsIn, Event.act?, List.filterMap_map]
  exact same.symm ▸ watched

theorem spentAbove_acting (visits : List (Visit (Event σ))) (path : Path) :
    Visit.spentAbove (visits.map Visit.acting) path = Visit.spentAbove visits path := by
  simp only [Visit.spentAbove, List.filter_map, List.map_map]
  rfl

/-- The chronicle tells of the steps on the state by the same visits. -/
theorem Timeline.acting {together : Prop} {now : Nat} {log : List (Nat × Event σ)} {visits : List (Visit (Event σ))}
    (timeline : run.chronicle.Timeline together now log visits) :
    run.watched.Timeline together now (Event.actsIn log) (visits.map Visit.acting) := by
  have whole : Event.actsIn (visits.flatMap Visit.log) = (visits.map Visit.acting).flatMap Visit.log := by
    simp only [Event.actsIn, List.filterMap_flatMap, List.flatMap_map]
    rfl
  refine ⟨?_, ?_, fun serial => ?_, fun all => ?_⟩
  · exact List.forall_mem_map.mpr fun visit member => logs_acting (timeline.genuine visit member)
  · exact whole ▸ timeline.noted.filterMap _
  · rw [← whole, ← timeline.inTurn serial]
  · refine List.forall_mem_map.mpr fun visit member => ?_
    rw [spentAbove_acting]
    exact timeline.timely all visit member

end Run

namespace Schema

variable (schema : Schema σ) (settings : ExecutionSettings) (request : Request) (root : Value) (state : σ)

def watched : Schema (σ × List (Act σ)) := schema.mapResolvers Resolver.watched

/-- The steps that resolvers take on the state while a request is executed, in
the order in which they take them. -/
def acts : List (Act σ) := (schema.watched.execute settings request root (state, [])).2.2

theorem dispatch_watched (info : ResolveInfo) :
    schema.watched.dispatch info = (schema.dispatch info).watched (Act.mk info) := by
  have bound : schema.watched.resolver? info.parentType info.field =
      (schema.resolver? info.parentType info.field).map Resolver.watched :=
    schema.resolver?_mapResolvers Resolver.watched info.parentType info.field
  simp only [dispatch, bound]
  rcases schema.resolver? info.parentType info.field with _ | resolver
  · rfl
  · simp only [Option.map_some, Task.watched_bind]
    rfl

theorem watched_related : (schema.runOf settings request).Related (Refines.relation Prod.fst)
    (schema.watched.runOf settings request) where
  schema := (schema.withoutResolvers_mapResolvers Resolver.watched).symm
  variableValues := rfl
  gather := Run.refines_gather _ (by rfl)
  dispatch info := by
    simp only [runOf, dispatch_watched]
    exact Task.refines_watched _ _

theorem watched_chronicle : (schema.watched.runOf settings request).Related (Refines.relation (sifted Event.act?))
    (schema.runOf settings request).chronicle where
  schema := schema.withoutResolvers_mapResolvers Resolver.watched
  variableValues := rfl
  gather := Run.refines_gather _ (by rfl)
  dispatch info := by
    have own := (schema.runOf settings request).watched_refines_chronicle.dispatch info
    simp only [runOf, dispatch_watched]
    exact own

/-- A request is answered alike whether the steps of resolvers
are watched or not. -/
theorem execute_watched : (schema.watched.execute settings request root (state, [])) =
    ((schema.execute settings request root state).1, (schema.execute settings request root state).2,
      schema.acts settings request root state) := by
  have seen := execute_of_refines (schema.watched_related settings request) root (state, [])
  exact Prod.ext seen.1 (Prod.ext seen.2 rfl)

variable {schema settings request root state}

theorem acts_eq_chronicle {data : Value}
    (answered : (schema.execute settings request root state).1.data = some data) :
    schema.acts settings request root state =
      (schema.chronicle settings request root state).filterMap Event.act? := by
  have alsoAnswered : (schema.watched.execute settings request root (state, [])).1.data = some data := by
    rw [execute_watched]
    exact answered
  obtain ⟨task, accepted, executed⟩ := execute_of_data alsoAnswered
  obtain ⟨watchedType, watchedFound, _, _, rfl⟩ := prepare_eq_ok accepted
  have roots := schema.watched.rootType?_withoutResolvers request.operation
  rw [watched, withoutResolvers_mapResolvers, rootType?_withoutResolvers, ← watched, watchedFound] at roots
  obtain ⟨type, found, same⟩ := Option.map_eq_some_iff.mp roots
  have seen := Refines.run ((schema.watched_chronicle settings request).executeObject
    (request.operation == .mutation) (Selection.depthOfAll request.selectionSet) request.selectionSet
    watchedType type same.symm root []) (state, [])
  simp only [acts, executed, chronicle, found]
  exact (congrArg Prod.snd seen.2).symm

/-- The steps on the state of a request that is answered with data are told by
visits to its fields. -/
theorem acted_of_data {data : Value}
    (answered : (schema.execute settings request root state).1.data = some data) :
    ∃ type completed final log visits, schema.rootType? request.operation = some type ∧
      schema.execute settings request root state = (respond completed, final) ∧
      schema.acts settings request root state = log.map Prod.snd ∧
      (log.Pairwise fun one two => one.1 ≤ two.1) ∧
      (schema.resolutions settings request root state).Perm (visits.map Visit.resolution) ∧
      (schema.runOf settings request).watched.Traced
        (settings.parallelFields = true ∧ (request.operation == .mutation) = false)
        (.object type request.selectionSet root) [] 0 log (completed.map .object) visits := by
  obtain ⟨type, completed, final, log, visits, found, executed, events, inOrder, traced⟩ := traced_of_data answered
  have resolutions : (visits.map Visit.acting).map Visit.resolution = visits.map Visit.resolution := by
    rw [List.map_map]
    rfl
  refine ⟨type, completed, final, Event.actsIn log, visits.map Visit.acting, found, executed, ?_,
    Event.inOrder_actsIn inOrder, ?_, ⟨?_, traced.timeline.acting⟩⟩
  · rw [acts_eq_chronicle answered, events, Event.map_snd_actsIn]
  · rw [resolutions_eq_chronicle, events, resolutions]
    exact traced.timeline.resolutions_perm
  · rw [resolutions]
    exact traced.executes

end Schema

end SelectionEngine
