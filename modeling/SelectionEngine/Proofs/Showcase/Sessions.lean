import SelectionEngine.Proofs.Showcase.Answers
import SelectionEngine.Proofs.Showcase.Faults

namespace SelectionEngine.Showcase

/-- A request of a session, with what is drawn while it is executed. -/
structure Turn where
  draw : Draws
  settings : ExecutionSettings := {}
  request : Request
  root : Value := .null

namespace Turn

variable (turn : Turn) (store : Store)

/-- The response, and the store that the request leaves. -/
def execute : Response × Store := (served turn.draw).execute turn.settings turn.request turn.root store

/-- The records that a field of a mutation was resolved to. Nothing is done for
a request without data. -/
def made (field : String) : List Record :=
  if (turn.execute store).1.data.isSome then
    ((served turn.draw).resolutions turn.settings turn.request turn.root store).filterMap fun resolution =>
      match resolution.outcome with
      | .ok (.object record) =>
        if resolution.info.parentType = "Mutation" ∧ resolution.info.field = field then some record else none
      | _ => none
  else []

end Turn

/-- The store after the requests of a session. -/
def after (turns : List Turn) (store : Store) : Store :=
  turns.foldl (fun store turn => (turn.execute store).2) store

/-- The records that a field of mutations was resolved to in a session. -/
def made (field : String) : List Turn → Store → List Record
  | [], _ => []
  | turn :: turns, store => turn.made store field ++ made field turns (turn.execute store).2

variable {history : Publications} {store : Store}

theorem Turn.mem_made {turn : Turn} {data : Value} (answered : (turn.execute store).1.data = some data)
    {field : String} (publishing : field = "createArticle" ∨ field = "createPodcast") {record : Record} :
    record ∈ turn.made store field ↔
      ∃ resolution ∈ (served turn.draw).resolutions turn.settings turn.request turn.root store,
        (∃ input, publication? resolution.info = some (field, input)) ∧
          resolution.outcome = .ok (.object record) := by
  have publishes (info : ResolveInfo) : (∃ input, publication? info = some (field, input)) ↔
      info.parentType = "Mutation" ∧ info.field = field := by
    constructor
    · rintro ⟨input, published⟩
      obtain ⟨ofType, _, named⟩ := publication?_eq_some published
      exact ⟨ofType, named.symm⟩
    · rintro ⟨ofType, rfl⟩
      exact ⟨_, if_pos ⟨ofType, publishing⟩⟩
  rw [Turn.made, if_pos (answered ▸ rfl), List.mem_filterMap]
  refine exists_congr fun resolution => and_congr_right fun _ => ?_
  rw [publishes]
  rcases resolution with ⟨info, _ | value⟩
  · simp
  · cases value <;> simp

/-- What is published in a turn is what its mutations make. -/
theorem Turn.exists_history (turn : Turn) (stocked : Stocked history store) :
    ∃ more, Stocked (history ++ more) (turn.execute store).2 ∧
      ∀ field, field = "createArticle" ∨ field = "createPodcast" → ∀ record,
        ((field, record) ∈ published (history ++ more) ↔
          (field, record) ∈ published history ∨ record ∈ turn.made store field) := by
  rcases (awake_served turn.draw).refused_or_data turn.settings turn.request turn.root store with
    ⟨report, _, refused⟩ | ⟨data, answered⟩
  · have executed : turn.execute store = (.ofError report, store) := refused
    refine ⟨[], by rwa [executed, List.append_nil], fun field _ record => ?_⟩
    simp [Turn.made, executed, Response.ofError]
  · obtain ⟨⟨kept, published⟩, _⟩ := stocked_acts stocked answered
    refine ⟨_, kept, fun field publishing record => ?_⟩
    rw [published, exists_creates stocked answered, Turn.mem_made answered publishing]

/-- What is published in a session is what its mutations make. -/
theorem exists_history (turns : List Turn) (stocked : Stocked history store) :
    ∃ more, Stocked (history ++ more) (after turns store) ∧
      ∀ field, field = "createArticle" ∨ field = "createPodcast" → ∀ record,
        ((field, record) ∈ published (history ++ more) ↔
          (field, record) ∈ published history ∨ record ∈ made field turns store) := by
  induction turns generalizing history store with
  | nil => exact ⟨[], by rwa [List.append_nil], by simp [made]⟩
  | cons turn turns ih =>
    obtain ⟨first, kept, published⟩ := turn.exists_history stocked
    obtain ⟨more, final, later⟩ := ih kept
    refine ⟨first ++ more, by rwa [← List.append_assoc], fun field publishing record => ?_⟩
    rw [← List.append_assoc, later field publishing, published field publishing, made, List.mem_append, or_assoc]

/-- No response has an error that is the fault of the schema. -/
theorem Turn.not_isFault (turn : Turn) (stocked : Stocked history store) :
    ∀ error ∈ (turn.execute store).1.errors, ¬ error.IsFault := by
  rcases (awake_served turn.draw).refused_or_data turn.settings turn.request turn.root store with
    ⟨report, refused, same⟩ | ⟨data, answered⟩
  · have executed : turn.execute store = (.ofError report, store) := same
    rw [executed]
    refine List.forall_mem_singleton.mpr ?_
    rcases Schema.report_of_prepare refused with ⟨error, rfl⟩ | ⟨error, path, rfl⟩
    · exact error.not_isFault none
    · exact error.not_isFault (some path)
  · intro error member
    rcases fromField_of_answered stocked answered error member with ⟨error, path, refusal, rfl⟩ | ⟨error, path, rfl⟩
    · exact refusal.not_isFault (some path)
    · exact error.not_isFault (some path)

/-- What holds of the answer to a request after a session on an empty store, and
of the content from the session. -/
structure TypeSafe (turns : List Turn) (turn : Turn) : Prop where
  built : ∀ draw, schema draw = .ok (served draw)
  faultless : ∀ error ∈ (turn.execute (after turns {})).1.errors, ¬ error.IsFault
  stored : ∀ record, record ∈ (after turns {}).list ((after turns {}).handle content) ↔
    record ∈ made "createArticle" turns {} ∨ record ∈ made "createPodcast" turns {}
  articles : ∀ record ∈ made "createArticle" turns {}, ∀ path, ∃ type,
    (served turn.draw).concreteType? "Content" (.object record) path = .ok (some type) ∧ type.name = "Article"
  podcasts : ∀ record ∈ made "createPodcast" turns {}, ∀ path, ∃ type,
    (served turn.draw).concreteType? "Content" (.object record) path = .ok (some type) ∧ type.name = "Podcast"
  /-- An article is found exactly if one was made under the id, unless an error
  below it makes it null. -/
  found : ∀ data, (turn.execute (after turns {})).1.data = some data → turn.request.operation = .query →
    ∀ type, (served turn.draw).rootType? turn.request.operation = some type →
    ∀ group ∈ (served turn.draw).fieldGroups type turn.request.selectionSet,
      group.lead.call.name = "getArticle" → ∃ field arguments id value,
        group.Calls (served turn.draw) turn.request.variableValues type field arguments ∧
        Entries.get? "id" arguments = some (.string id) ∧ data.at? [.key group.key] = some value ∧
        (value ≠ .null → ∃ record ∈ made "createArticle" turns {}, Entries.get? "id" record = some (.string id)) ∧
        ((∃ record ∈ made "createArticle" turns {}, Entries.get? "id" record = some (.string id)) →
          value ≠ .null ∨ ∃ error ∈ (turn.execute (after turns {})).1.errors, ∃ element place,
            error.path = some place ∧ [.key group.key, element] <+: place)

/-- Whatever is asked for in a session, and whatever is drawn, no error is the
fault of the schema, and content keeps the type of the field that made it. -/
theorem type_safe_session (turns : List Turn) (turn : Turn) : TypeSafe turns turn := by
  obtain ⟨history, stocked, each⟩ := exists_history turns stocked_empty
  rw [List.nil_append] at stocked each
  have article (record : Record) :
      ("createArticle", record) ∈ published history ↔ record ∈ made "createArticle" turns {} := by
    simpa [published] using each "createArticle" (.inl rfl) record
  have podcast (record : Record) :
      ("createPodcast", record) ∈ published history ↔ record ∈ made "createPodcast" turns {} := by
    simpa [published] using each "createPodcast" (.inr rfl) record
  refine ⟨schema_eq_served, turn.not_isFault stocked, fun record => ?_, fun record listed => ?_,
    fun record listed => ?_, fun data answered query type found group member named => ?_⟩
  · rw [stocked.list_content, List.mem_map, ← article, ← podcast]
    constructor
    · rintro ⟨⟨field, _⟩, listed, rfl⟩
      rcases (stocked.publishes _ listed).field with same | same
      · exact .inl (same ▸ listed)
      · exact .inr (same ▸ listed)
    · rintro (listed | listed)
      · exact ⟨_, listed, rfl⟩
      · exact ⟨_, listed, rfl⟩
  · exact concreteType?_published (stocked.publishes _ ((article record).mpr listed))
  · exact concreteType?_published (stocked.publishes _ ((podcast record).mpr listed))
  · have answer := getArticle_of_query stocked answered query found member named
    simp only [article] at answer
    exact answer

/-- Publishes an article, and a podcast with a text that podcasts do not have. -/
def publishing : Turn where
  draw := fun _ _ => 0
  request :=
    { operation := .mutation
      selectionSet := [
        .field { name := "createArticle", arguments := [("input", .value (.object
          [("title", .string "Oaks"), ("bodyText", .string "Oaks grow.")]))] } [.field { name := "id" } []],
        .field { name := "createPodcast", arguments := [("input", .value (.object
          [("audio", .string "elms.ogg"), ("bodyText", .string "Elms grow.")]))] } [.field { name := "id" } []]] }

/-- Asks for both of them as articles. -/
def reading : Turn where
  draw := fun _ _ => 0
  request :=
    { selectionSet := [
        .field { name := "getArticle", arguments := [("id", .value (.string "1"))] }
          [.field { name := "title" } []],
        .field { name := "getArticle", label := some "other", arguments := [("id", .value (.int 2))] }
          [.field { name := "title" } []]] }

def oaks : Record := [("id", .string "1"), ("title", .string "Oaks"), ("bodyText", .string "Oaks grow.")]

def elms : Record := [("id", .string "2"), ("audio", .string "elms.ogg")]

/-- The podcast has lost its text, so that it is no article, and only the
article is found as one. -/
theorem type_safe_session_oaks :
    let response := (reading.execute (after [publishing] {})).1
    made "createArticle" [publishing] {} = [oaks] ∧ made "createPodcast" [publishing] {} = [elms] ∧
      response.data = some (.object [("getArticle", .object [("title", .string "Oaks")]), ("other", .null)]) ∧
      (∀ error ∈ response.errors, ¬ error.IsFault) ∧
      (∃ type, (served reading.draw).concreteType? "Content" (.object elms) [] = .ok (some type) ∧
        type.name = "Podcast") ∧
      ∃ (group : FieldGroup) (type : ObjectType Store) (field : FieldDef Store) (arguments : Object),
        group.key = "getArticle" ∧
          group.Calls (served reading.draw) reading.request.variableValues type field arguments ∧
          Entries.get? "id" arguments = Entries.get? "id" oaks := by
  intro response
  have data : response.data =
      some (.object [("getArticle", .object [("title", .string "Oaks")]), ("other", .null)]) :=
    rfl
  have safe : TypeSafe [publishing] reading := type_safe_session [publishing] reading
  obtain ⟨_, _, id, value, calls, asked, atKey, made, _⟩ := safe.found _ data rfl _ rfl _ (.head _) rfl
  obtain rfl := Option.some.inj atKey
  obtain ⟨record, listed, named⟩ := made (by simp)
  obtain rfl : record = oaks := List.mem_singleton.mp listed
  exact ⟨rfl, rfl, data, safe.faultless, safe.podcasts elms (.head _) [], _, _, _, _, rfl, calls,
    asked.trans named.symm⟩

end SelectionEngine.Showcase
