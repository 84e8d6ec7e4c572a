import SelectionEngine.Proofs.Showcase.Resolving

namespace SelectionEngine.Showcase

variable {draw : Draws}

/-- Every field of every object type is reliable. -/
theorem reliable : ∀ type ∈ objects draw, ∀ field ∈ type.fields, Reliable draw type field := by
  refine List.forall_mem_cons.mpr ⟨reliable_query, List.forall_mem_cons.mpr ⟨reliable_randomDie,
    List.forall_mem_cons.mpr ⟨reliable_mutation, List.forall_mem_cons.mpr ⟨?message,
    List.forall_mem_cons.mpr ⟨?article, List.forall_mem_singleton.mpr ?podcast⟩⟩⟩⟩⟩
  all_goals
    exact List.forall_mem_cons.mpr ⟨reliable_of_property rfl, List.forall_mem_cons.mpr ⟨reliable_of_property rfl,
      List.forall_mem_singleton.mpr (reliable_of_property rfl)⟩⟩

theorem nodup_arguments : ∀ type ∈ objects draw, ∀ field ∈ type.fields,
    (field.arguments.map ArgumentDef.name).Nodup := by
  have declared : ∀ type ∈ declarations.objects, ∀ field ∈ type.fields,
      (field.arguments.map ArgumentDef.name).Nodup := by decide
  exact List.forall_mem_map.mpr fun type listed => List.forall_mem_map.mpr (declared type listed)

/-- The types from which operations start. -/
def rootNames : List String := ["Query", "Mutation"]

theorem mem_rootNames {name : String} : name ∈ rootNames ↔ name = "Query" ∨ name = "Mutation" := by
  simp [rootNames]

theorem innerName_not_mem_rootNames : ∀ type ∈ objects draw, ∀ field ∈ type.fields,
    field.type.innerName ∉ rootNames := by
  have declared : ∀ type ∈ declarations.objects, ∀ field ∈ type.fields,
      field.type.innerName ∉ rootNames := by decide
  exact List.forall_mem_map.mpr fun type listed => List.forall_mem_map.mpr (declared type listed)

theorem name_not_mem_rootNames_of_interfaces : ∀ type ∈ objects draw, type.interfaces ≠ [] →
    type.name ∉ rootNames := by
  have declared : ∀ type ∈ declarations.objects, type.interfaces ≠ [] → type.name ∉ rootNames := by decide
  exact List.forall_mem_map.mpr declared

/-- A field of the schema is called as it is declared. -/
theorem called_of_calls {own : String} {type : ObjectType Store}
    (found : (served draw).lookup? own = some (.object type)) {group : FieldGroup} {variableValues : Object}
    {field : FieldDef Store} {arguments : Object}
    (calls : group.Calls (served draw) variableValues type field arguments) (parent : Value) (path : Path) :
    type ∈ objects draw ∧ field ∈ type.fields ∧
      Called draw type field (group.info type field parent path arguments) := by
  have ofType := mem_objects_of_lookup? found
  have ofField : field ∈ type.fields := List.mem_of_find?_eq_some calls.declared
  have coerces := Schema.fieldsCoerceTo_of_coerceArguments (registered_served draw)
    (nodup_arguments type ofType field ofField) calls.coerced
  exact ⟨ofType, ofField, rfl, rfl, _, coerces⟩

/-- A field of a query or a mutation is called at the root. -/
theorem group_of_called {request : Request} {root : Value} {log : List Resolution} {info : ResolveInfo}
    (called : (served draw).Called request root log info) (ofRoot : info.parentType ∈ rootNames) :
    ∃ type group field arguments, (served draw).rootType? request.operation = some type ∧
      group ∈ (served draw).fieldGroups type request.selectionSet ∧
      group.Calls (served draw) request.variableValues type field arguments ∧
      info = group.info type field root [] arguments := by
  obtain ⟨type, selections, parent, path, group, field, arguments, executed, member, calls, rfl⟩ := called
  cases executed with
  | root found => exact ⟨type, group, field, arguments, found, member, calls, rfl⟩
  | inside outer _ above _ inside =>
    obtain ⟨_, own⟩ := outer.registered
    obtain ⟨ofType, ofField, _⟩ := called_of_calls own above .null []
    obtain ⟨_, found⟩ := inside.concreteType?
    refine absurd (show type.name ∈ rootNames from ofRoot) ?_
    rcases (registered_served draw).declares_of_concreteType? found with own | ⟨_, _, own, declares⟩
    · rw [show type.name = _ from (registered_served draw).name_of_lookup? own]
      exact innerName_not_mem_rootNames _ ofType _ ofField
    · exact name_not_mem_rootNames_of_interfaces type (mem_objects_of_lookup? own) (List.ne_nil_of_mem declares)

theorem parentType_of_called {request : Request} {root : Value} {log : List Resolution} {info : ResolveInfo}
    (called : (served draw).Called request root log info) (ofRoot : info.parentType ∈ rootNames) :
    info.parentType = (served draw).rootTypeName request.operation := by
  obtain ⟨type, _, _, _, found, _, _, rfl⟩ := group_of_called called ofRoot
  exact (registered_served draw).name_of_lookup? (Schema.rootType?_eq_some.mp found)

theorem length_path_of_called {request : Request} {root : Value} {log : List Resolution} {info : ResolveInfo}
    (called : (served draw).Called request root log info) (ofRoot : info.parentType ∈ rootNames) :
    info.path.length = 1 := by
  obtain ⟨_, _, _, _, _, _, _, rfl⟩ := group_of_called called ofRoot
  rfl

/-- In a query no field of a mutation is called. -/
theorem parentType_of_query {request : Request} {root : Value} {log : List Resolution} {info : ResolveInfo}
    (called : (served draw).Called request root log info) (query : request.operation = .query) :
    info.parentType ≠ "Mutation" := by
  intro ofMutation
  have own := parentType_of_called called (mem_rootNames.mpr (.inr ofMutation))
  rw [ofMutation, query] at own
  exact absurd own (show "Mutation" ≠ "Query" by decide)

/-- In a mutation no field of a query is called. -/
theorem parentType_of_mutation {request : Request} {root : Value} {log : List Resolution} {info : ResolveInfo}
    (called : (served draw).Called request root log info) (mutation : request.operation = .mutation) :
    info.parentType ≠ "Query" := by
  intro ofQuery
  have own := parentType_of_called called (mem_rootNames.mpr (.inl ofQuery))
  rw [ofQuery, mutation] at own
  exact absurd own (show "Query" ≠ "Mutation" by decide)

theorem publication?_eq_some {info : ResolveInfo} {entry : String × Object}
    (found : publication? info = some entry) :
    info.parentType = "Mutation" ∧ (info.field = "createArticle" ∨ info.field = "createPodcast") ∧
      entry.1 = info.field := by
  unfold publication? at found
  split at found
  · next names =>
    cases found
    exact ⟨names.1, names.2, rfl⟩
  · cases found

/-- A field that no resolver is bound to publishes nothing. -/
theorem publication?_of_unbound {info : ResolveInfo}
    (unbound : (served draw).resolver? info.parentType info.field = none) : publication? info = none := by
  refine if_neg ?_
  rintro ⟨ofType, named⟩
  rw [ofType] at unbound
  rcases named with named | named <;> rw [named] at unbound <;> cases unbound

variable {history : Publications} {store : Store}

/-- Whether or not a resolver is bound to it, a field keeps the store in order
and is resolved to a value of its type. -/
theorem run_dispatch {type : ObjectType Store} {field : FieldDef Store} {info : ResolveInfo}
    (ofType : type ∈ objects draw) (ofField : field ∈ type.fields) (called : Called draw type field info)
    (stocked : Stocked history store) :
    Stocked (history ++ (publication? info).toList) (((served draw).dispatch info).run store).2 ∧
      ((served draw).FitsProperties type info.parent →
        (served draw).FitsOutcome Refusal field.type (((served draw).dispatch info).run store).1) ∧
      ∀ entry, publication? info = some entry → (((served draw).dispatch info).run store).1 =
        .ok (.object (Record.made (toString (history.length + 1)) entry.2 [])) := by
  cases bound : (served draw).resolver? info.parentType info.field with
  | none =>
    have unpublished := publication?_of_unbound bound
    simp only [Schema.dispatch, bound, unpublished, Option.toList_none, List.append_nil, Task.run]
    refine ⟨stocked, fun parent => ?_, by simp⟩
    rw [called.parentType, called.fieldName] at bound
    rw [called.fieldName]
    exact parent field ofField bound
  | some resolver =>
    have own : (served draw).resolver? type.name field.name = some resolver := by
      rwa [called.parentType, called.fieldName] at bound
    obtain ⟨kept, fits, made⟩ := reliable type ofType field ofField resolver own info called history store stocked
    rw [Schema.run_dispatch bound]
    refine ⟨kept, fits, fun entry found => ?_⟩
    rw [made entry found]
    rfl

/-- What is published by steps of resolvers. -/
def publications (acts : List (Act Store)) : Publications := acts.filterMap fun act => publication? act.info

variable (draw) in
/-- The step made a record of content. -/
def Creates (act : Act Store) (field : String) (record : Record) : Prop :=
  (∃ input, publication? act.info = some (field, input)) ∧
    (((served draw).dispatch act.info).run act.before).1 = .ok (.object record)

theorem publications_concat (acts : List (Act Store)) (act : Act Store) :
    publications (acts ++ [act]) = publications acts ++ (publication? act.info).toList := by
  rw [publications, List.filterMap_append, List.filterMap_cons]
  cases publication? act.info <;> rfl

section

variable {settings : ExecutionSettings} {request : Request} {root data : Value}
  (stocked : Stocked history store)
  (answered : ((served draw).execute settings request root store).1.data = some data)

include answered

theorem called_of_resolution {resolution : Resolution}
    (asked : resolution ∈ (served draw).resolutions settings request root store) :
    ∃ type ∈ objects draw, ∃ field ∈ type.fields, Called draw type field resolution.info := by
  obtain ⟨type, _, _, _, _, field, _, executed, _, calls, info⟩ := Schema.called_of_data answered _ asked
  obtain ⟨_, found⟩ := executed.registered
  obtain ⟨ofType, ofField, called⟩ := called_of_calls found calls _ _
  exact ⟨type, ofType, field, ofField, info ▸ called⟩

/-- A step on a store in order keeps it in order, and what it
publishes is what it makes. -/
theorem step_of_mem {act : Act Store} (taken : act ∈ (served draw).acts settings request root store)
    (before : Stocked history act.before) :
    Stocked (history ++ (publication? act.info).toList) act.after ∧
      ∀ field record, (field, record) ∈ published (history ++ (publication? act.info).toList) ↔
        (field, record) ∈ published history ∨ Creates draw act field record := by
  obtain ⟨outcome, asked, run⟩ := ((actsAfter_served draw).replayed answered).2 act taken
  obtain ⟨_, ofType, _, ofField, called⟩ := called_of_resolution answered asked
  obtain ⟨kept, _, made⟩ := run_dispatch ofType ofField called before
  rw [run] at kept made
  refine ⟨kept, fun field record => ?_⟩
  simp only [Creates, run]
  dsimp only at kept made ⊢
  cases publication : publication? act.info with
  | none => simp
  | some entry =>
    rw [made entry publication, Option.toList_some, published_concat, List.mem_append, List.mem_singleton]
    simp [Prod.ext_iff, eq_comm]

include stocked

/-- Every step of an answered request keeps the store in order. -/
theorem stocked_acts :
    let acts := (served draw).acts settings request root store
    (Stocked (history ++ publications acts) ((served draw).execute settings request root store).2 ∧
      ∀ field record, (field, record) ∈ published (history ++ publications acts) ↔
        (field, record) ∈ published history ∨ ∃ act ∈ acts, Creates draw act field record) ∧
      ∀ act ∈ acts, ∃ front, Stocked (history ++ publications front) act.before ∧ front <+: acts := by
  intro acts
  -- the invariant tells the records by the steps that made them
  let inOrder (front : List (Act Store)) (state : Store) : Prop :=
    Stocked (history ++ publications front) state ∧
      ∀ field record, (field, record) ∈ published (history ++ publications front) ↔
        (field, record) ∈ published history ∨ ∃ act ∈ front, Creates draw act field record
  have initial : inOrder [] store := by simpa [inOrder, publications] using stocked
  have step (front : List (Act Store)) (act : Act Store) (upper : front ++ [act] <+: acts)
      (holds : inOrder front act.before) : inOrder (front ++ [act]) act.after := by
    have taken : act ∈ acts := upper.subset (List.mem_append_right front (.head _))
    obtain ⟨kept, created⟩ := step_of_mem answered taken holds.1
    simp only [inOrder, publications_concat, ← List.append_assoc]
    refine ⟨kept, fun field record => ?_⟩
    rw [created, holds.2, or_assoc]
    simp [or_and_right, exists_or]
  obtain ⟨final, before⟩ := ((served draw).linked_acts settings request root store).keeps initial step
  refine ⟨final, fun act taken => ?_⟩
  obtain ⟨front, back, split⟩ := List.append_of_mem taken
  have upper : front ++ [act] <+: acts := ⟨back, by rw [List.append_assoc]; exact split.symm⟩
  exact ⟨front, (before front act upper).1, act :: back, split.symm⟩

/-- What a field was resolved to is what it gives on a store in order. In a
query that is the store of before. -/
theorem run_of_resolution {info : ResolveInfo} {outcome : Except ResolverError Value}
    (asked : ⟨info, outcome⟩ ∈ (served draw).resolutions settings request root store) :
    ∃ more state, Stocked (history ++ more) state ∧ (((served draw).dispatch info).run state).1 = outcome ∧
      (request.operation = .query → more = []) := by
  obtain ⟨resolved, each⟩ := (actsAfter_served draw).replayed answered
  rcases resolved _ asked with same | ⟨act, taken, own, run⟩
  · exact ⟨[], store, by simpa using stocked, congrArg Prod.fst (same store), fun _ => rfl⟩
  · obtain ⟨front, before, upper⟩ := (stocked_acts stocked answered).2 act taken
    obtain rfl : act.info = info := own
    refine ⟨publications front, act.before, before, congrArg Prod.fst run, fun query => ?_⟩
    refine List.filterMap_eq_nil_iff.mpr fun earlier listed => publication?_eq_none ?_
    obtain ⟨_, known, _⟩ := each earlier (upper.subset listed)
    exact parentType_of_query (Schema.called_of_data answered _ known) query

theorem fitsResolutions : (served draw).FitsResolutions request.variableValues Refusal
    ((served draw).resolutions settings request root store) := by
  intro own type parent path group field arguments outcome found properties calls asked
  obtain ⟨ofType, ofField, called⟩ := called_of_calls found calls parent path
  obtain ⟨more, state, inOrder, run, _⟩ := run_of_resolution stocked answered asked
  obtain ⟨_, fits, _⟩ := run_dispatch ofType ofField called inOrder
  exact run ▸ fits properties

/-- Records of content are made by the fields that are resolved to
them, and by no others. -/
theorem exists_creates {field : String} {record : Record} :
    (∃ act ∈ (served draw).acts settings request root store, Creates draw act field record) ↔
      ∃ resolution ∈ (served draw).resolutions settings request root store,
        (∃ input, publication? resolution.info = some (field, input)) ∧
          resolution.outcome = .ok (.object record) := by
  obtain ⟨resolved, each⟩ := (actsAfter_served draw).replayed answered
  constructor
  · rintro ⟨act, taken, publication, made⟩
    obtain ⟨outcome, asked, run⟩ := each act taken
    rw [run] at made
    exact ⟨_, asked, publication, made⟩
  · rintro ⟨resolution, asked, ⟨input, publication⟩, made⟩
    rcases resolved resolution asked with same | ⟨act, taken, info, run⟩
    · -- publishing changes the store
      obtain ⟨_, ofType, _, ofField, called⟩ := called_of_resolution answered asked
      have kept := (run_dispatch ofType ofField called stocked).1
      rw [same, publication] at kept
      have contents := congrArg Collection.lastId (stocked.content.symm.trans kept.content)
      simp [Collection.made] at contents
    · refine ⟨act, taken, ⟨input, info ▸ publication⟩, ?_⟩
      rw [run]
      exact made

end

end SelectionEngine.Showcase
