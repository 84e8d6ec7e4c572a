import SelectionEngine.Proofs.Execution.Admission
import SelectionEngine.Proofs.Showcase.Dispatching

namespace SelectionEngine.Showcase

variable {draw : Draws} {history : Publications} {store : Store}

/-- The object type of every published record is that of the
field that made it. -/
theorem concreteType?_published {field : String} {record : Record} (publishes : Publishes field record)
    (path : Path) : ∃ type,
      (served draw).concreteType? "Content" (.object record) path = .ok (some type) ∧ type.name = typeOf field := by
  have interface : (served draw).lookup? "Content" = some (.interface contentInterface) := rfl
  have resolved : (served draw).resolveConcrete contentInterface (.object record) = .ok (typeOf field) :=
    resolveConcrete_published publishes
  simp only [Schema.concreteType?, interface, resolved]
  cases publishes with
  | article => exact ⟨_, rfl, rfl⟩
  | podcast => exact ⟨_, rfl, rfl⟩

theorem resolver?_of_root {kind : OperationKind} {type : ObjectType Store}
    (found : (served draw).rootType? kind = some type) :
    ∀ field ∈ type.fields, (served draw).resolver? type.name field.name ≠ none := by
  have bound : (type.fields.all fun field => ((served draw).resolver? type.name field.name).isSome) = true := by
    cases kind with
    | query =>
      obtain rfl : (bindings draw).bindObject query = type := Option.some.inj found
      rfl
    | mutation =>
      obtain rfl : (bindings draw).bindObject mutation = type := Option.some.inj found
      rfl
  exact fun field listed => Option.isSome_iff_ne_none.mp (List.all_eq_true.mp bound field listed)

theorem run_random {info : ResolveInfo} (ofType : info.parentType = "Query") (named : info.field = "random") :
    ∃ number, (((served draw).dispatch info).run store).1 = .ok (.double number) := by
  have bound : (served draw).resolver? "Query" "random" = some (computing fun info =>
      .ok (.double ((Double.nearest? false (draw info.path 0) (1 <<< 53)).getD (Double.zero false)))) := rfl
  simp only [Schema.dispatch, ofType, named, bound]
  exact ⟨_, rfl⟩

/-- The one field of a query that must not be null is the random number. -/
theorem random_of_nonNull {kind : OperationKind} (query : kind = .query) {type : ObjectType Store}
    (found : (served draw).rootType? kind = some type) {name : String} {field : FieldDef Store}
    (declared : type.field? name = some field) (strict : ¬ field.type.isNonNull = false) :
    type.name = "Query" ∧ field.name = "random" ∧ field.type = required .float := by
  obtain rfl := query
  obtain rfl : (bindings draw).bindObject Showcase.query = type := Option.some.inj found
  have each : ∀ field ∈ Showcase.query.fields, ¬ field.type.isNonNull = false →
      field.name = "random" ∧ field.type = required .float := by decide
  obtain ⟨own, listed, rfl⟩ := List.mem_map.mp (List.mem_of_find?_eq_some declared)
  exact ⟨rfl, each own listed strict⟩

theorem declared_getArticle {kind : OperationKind} (query : kind = .query) {type : ObjectType Store}
    (found : (served draw).rootType? kind = some type) {field : FieldDef Store}
    (declared : type.field? "getArticle" = some field) :
    type.name = "Query" ∧ field.name = "getArticle" ∧ field.type = .named "Article" ∧
      input "id" (required .id) ∈ field.arguments := by
  obtain rfl := query
  obtain rfl : (bindings draw).bindObject Showcase.query = type := Option.some.inj found
  cases declared
  exact ⟨rfl, rfl, rfl, .head _⟩

section

variable {settings : ExecutionSettings} {request : Request} {root data : Value}
  (stocked : Stocked history store)
  (answered : ((served draw).execute settings request root store).1.data = some data)

theorem fitting_root {type : ObjectType Store} (found : (served draw).rootType? request.operation = some type) :
    (Subject.object type request.selectionSet root).Fitting (served draw) :=
  ⟨⟨_, Schema.rootType?_eq_some.mp found⟩,
    fun field listed unbound => absurd unbound (resolver?_of_root found field listed)⟩

include stocked answered

/-- The errors of an answer are those of the resolvers, and of
arguments below the root. -/
theorem fromField_of_answered :
    ∀ error ∈ ((served draw).execute settings request root store).1.errors, error.FromField Refusal := by
  obtain ⟨type, account, found, executes, log, _, errors⟩ := Schema.account_of_data answered
  rw [errors]
  intro error member
  exact (executes.errors_of_fitting (fitsResolutions stocked answered) log.symm.subset (fitting_root found) error
    member).1

/-- A field at the root is resolved to a value of its type. -/
theorem fits_of_root {type : ObjectType Store} (found : (served draw).rootType? request.operation = some type)
    {group : FieldGroup} {field : FieldDef Store} {arguments : Object} {value : Value}
    (calls : group.Calls (served draw) request.variableValues type field arguments)
    (known : ⟨group.info type field root [] arguments, .ok value⟩ ∈
      (served draw).resolutions settings request root store) : Fits (served draw) field.type value :=
  fitsResolutions stocked answered _ type root [] group field arguments _ (Schema.rootType?_eq_some.mp found)
    (fitting_root found).2 calls known

/-- No field at the root of a query loses its value. -/
theorem value?_of_query (query : request.operation = .query) {type : ObjectType Store}
    (found : (served draw).rootType? request.operation = some type) {group : FieldGroup}
    (member : group ∈ (served draw).fieldGroups type request.selectionSet) {part : Account}
    (executes : Executes (served draw) request.variableValues (.group type root group) [] part)
    (known : part.resolutions ⊆ (served draw).resolutions settings request root store) :
    part.completed.value? ≠ none := by
  obtain ⟨task, accepted, _⟩ := Schema.execute_of_data answered
  by_cases typename : group.lead.call.name = typenameField
  · cases executes with
    | typename => exact Option.some_ne_none _
    | badArguments other | unresolved other | resolved other => exact absurd typename other
  obtain ⟨field, arguments, calls⟩ := Schema.exists_calls_of_prepare accepted found member typename
  by_cases nullable : field.type.isNonNull = false
  · exact executes.value?_of_nullable calls.declared nullable
  obtain ⟨ofType, random, float⟩ := random_of_nonNull query found calls.declared nullable
  rcases executes.outcome_of_calls calls with ⟨error, rfl⟩ | ⟨value, below, place, rfl⟩
  · obtain ⟨_, state, _, run, _⟩ := run_of_resolution stocked answered (known (.head _))
    obtain ⟨number, drawn⟩ := @run_random draw state (group.info type field root [] arguments) ofType random
    simp [run] at drawn
  · have fits := fits_of_root stocked answered found calls (known (.head _))
    rw [float] at place fits
    exact place.value?_of_fitting fits

theorem outcome_of_getArticle (query : request.operation = .query) {info : ResolveInfo}
    {outcome : Except ResolverError Value}
    (known : ⟨info, outcome⟩ ∈ (served draw).resolutions settings request root store)
    (ofType : info.parentType = "Query") (named : info.field = "getArticle") {id : String}
    (asked : Resolver.recordId info = .ok id) :
    (∃ record, ("createArticle", record) ∈ published history ∧ Entries.get? "id" record = some (.string id) ∧
        outcome = .ok (.object record)) ∨
      (∀ record, ("createArticle", record) ∈ published history → Entries.get? "id" record ≠ some (.string id)) ∧
        outcome = .ok .null := by
  obtain ⟨more, state, inOrder, run, unchanged⟩ := run_of_resolution stocked answered known
  rw [unchanged query, List.append_nil] at inOrder
  have bound : (served draw).resolver? info.parentType info.field = some fun info =>
      (Resolver.getRecord content info).bind fun outcome => .done (articleOnly outcome) := by
    rw [ofType, named]
    rfl
  rw [Schema.run_dispatch bound] at run
  rcases run_getArticle asked inOrder with ⟨record, listed, own, value⟩ | ⟨absent, value⟩
  · rw [value] at run
    exact .inl ⟨record, listed, own, run.symm⟩
  · rw [value] at run
    exact .inr ⟨absent, run.symm⟩

/-- In a query an article is found exactly if it was created under the id,
unless there is an error below it. -/
theorem getArticle_of_query (query : request.operation = .query) {type : ObjectType Store}
    (found : (served draw).rootType? request.operation = some type) {group : FieldGroup}
    (member : group ∈ (served draw).fieldGroups type request.selectionSet)
    (named : group.lead.call.name = "getArticle") :
    ∃ field arguments id value, group.Calls (served draw) request.variableValues type field arguments ∧
      Entries.get? "id" arguments = some (.string id) ∧ data.at? [.key group.key] = some value ∧
      (value ≠ .null →
        ∃ record, ("createArticle", record) ∈ published history ∧ Entries.get? "id" record = some (.string id)) ∧
      ((∃ record, ("createArticle", record) ∈ published history ∧ Entries.get? "id" record = some (.string id)) →
        value ≠ .null ∨ ∃ error ∈ ((served draw).execute settings request root store).1.errors,
          ∃ element place, error.path = some place ∧ [.key group.key, element] <+: place) := by
  obtain ⟨task, accepted, _⟩ := Schema.execute_of_data answered
  have typename : group.lead.call.name ≠ typenameField := named ▸ by decide
  obtain ⟨field, arguments, calls⟩ := Schema.exists_calls_of_prepare accepted found member typename
  obtain ⟨_, account, same, executes, log, answer, errors⟩ := Schema.account_of_data answered
  obtain rfl := Option.some.inj (found.symm.trans same)
  -- the data is an object, since no field at the root can take it down
  obtain ⟨object, completed, parts⟩ := executes.at?_of_object fun group member part executes known =>
    value?_of_query stocked answered query found member executes (List.Subset.trans known log.symm.subset)
  obtain ⟨part, value, executes, known, reported, present, atKey⟩ := parts group member
  obtain rfl : data = object := by rw [answer, completed, Option.getD_some]
  have known : part.resolutions ⊆ (served draw).resolutions settings request root store :=
    List.Subset.trans known log.symm.subset
  obtain ⟨ofType, ofField, reference, takesId⟩ := declared_getArticle query found (named ▸ calls.declared)
  obtain ⟨_, _, called⟩ := called_of_calls (Schema.rootType?_eq_some.mp found) calls root []
  obtain ⟨given, coerces⟩ := called.arguments
  obtain ⟨id, takes, asked⟩ := exists_id coerces takesId
  refine ⟨field, arguments, id, value, calls, takes, atKey, ?_⟩
  rw [errors]
  rcases executes.outcome_of_calls calls with ⟨error, rfl⟩ | ⟨raw, below, place, rfl⟩
  · rcases outcome_of_getArticle stocked answered query (known (.head _)) ofType ofField asked with
      ⟨_, _, _, impossible⟩ | ⟨_, impossible⟩ <;> cases impossible
  have nullable : field.type.isNonNull = false := reference ▸ rfl
  obtain ⟨result, own, ofNull, ofError⟩ := place.null_of_fitting nullable (fitsResolutions stocked answered)
    (fun _ listed => known (.tail _ listed)) (fits_of_root stocked answered found calls (known (.head _)))
  obtain rfl : result = value := Option.some.inj (own.symm.trans present)
  rcases outcome_of_getArticle stocked answered query (known (.head _)) ofType ofField asked with
    ⟨record, listed, sameId, outcome⟩ | ⟨absent, outcome⟩
  · refine ⟨fun _ => ⟨record, listed, sameId⟩, fun _ => ?_⟩
    obtain rfl := Except.ok.inj outcome
    by_cases null : result = .null
    · obtain ⟨error, inside, element, place, located, below⟩ := ofError null (by simp)
      exact .inr ⟨error, reported inside, element, place, located, below⟩
    · exact .inl null
  · obtain rfl := Except.ok.inj outcome
    refine ⟨fun present => absurd (ofNull rfl) present, ?_⟩
    rintro ⟨record, listed, own⟩
    exact absurd own (absent record listed)

end

end SelectionEngine.Showcase
