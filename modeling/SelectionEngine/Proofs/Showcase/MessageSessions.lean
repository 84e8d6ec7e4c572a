import SelectionEngine.Proofs.Showcase.Posting
import SelectionEngine.Proofs.Showcase.Sessions

namespace SelectionEngine.Showcase

namespace Turn

variable (turn : Turn)

/-- The groups of fields at the root that are executed. A request
that is refused has none. -/
def groups : List FieldGroup :=
  match (served turn.draw).prepare turn.settings turn.request turn.root,
    (served turn.draw).rootType? turn.request.operation with
  | .ok _, some type => (served turn.draw).fieldGroups type turn.request.selectionSet
  | _, _ => []

/-- The fields that are asked for their values, with what became of each. A
request that is refused has none. -/
def resolutions (store : Store) : List Resolution :=
  if (turn.execute store).1.data.isSome then
    (served turn.draw).resolutions turn.settings turn.request turn.root store
  else []

/-- What the request makes of the messages. Only mutations change them. -/
def post (messages : Messages) : Messages :=
  if turn.request.operation = .mutation then messages.postAll turn.request.variableValues turn.groups else messages

/-- The request finds these messages in the store. What it makes of them, group
by group, and what it learns about them is told by the list. -/
structure ToldBy (messages : Messages) (store : Store) : Prop where
  built : schema turn.draw = .ok (served turn.draw)
  stored : store.collection (store.handle Showcase.messages) = messages.collection
  changed : turn.request.operation = .mutation → ∀ front group back, turn.groups = front ++ group :: back →
    group.lead.call.name ∈ messageFields → ∃ info outcome,
      (messages.postAll turn.request.variableValues front).posted? group.lead.call turn.request.variableValues =
        some outcome ∧
      (turn.resolutions store).filter (fun resolution => resolution.path = [.key group.key]) = [⟨info, outcome⟩] ∧
      ∀ error, outcome = .error error →
        Reportable.report error (some [.key group.key]) ∈ (turn.execute store).1.errors
  listed : ∀ resolution ∈ turn.resolutions store, resolution.info.parentType = "Query" →
    resolution.info.field = "getMessages" → resolution.outcome = .ok (.list (messages.map .object))
  found : ∀ resolution ∈ turn.resolutions store, resolution.info.parentType = "Query" →
    resolution.info.field = "getMessage" → ∃ group ∈ turn.groups, ∃ id,
      group.lead.call.name = "getMessage" ∧ resolution.path = [.key group.key] ∧
      givenId? group.lead.call turn.request.variableValues = some id ∧
      resolution.outcome = .ok (((messages.find? id).map .object).getD .null)

end Turn

/-- The messages that a session on an empty store makes, by what
its requests ask for. -/
def posted (turns : List Turn) : Messages := turns.foldl (fun messages turn => turn.post messages) []

variable {messages : Messages} {store : Store} {turn : Turn}

section

variable {data : Value} (answered : (turn.execute store).1.data = some data)

include answered

theorem Turn.resolutions_of_data :
    turn.resolutions store = (served turn.draw).resolutions turn.settings turn.request turn.root store := by
  rw [resolutions, answered]
  rfl

theorem Turn.groups_of_data {type : ObjectType Store}
    (found : (served turn.draw).rootType? turn.request.operation = some type) :
    turn.groups = (served turn.draw).fieldGroups type turn.request.selectionSet := by
  obtain ⟨task, accepted, _⟩ := Schema.execute_of_data answered
  rw [groups, accepted, found]

theorem Turn.called_of_data : ∀ resolution ∈ turn.resolutions store,
    (served turn.draw).Called turn.request turn.root (turn.resolutions store) resolution.info := by
  rw [resolutions_of_data answered]
  exact Schema.called_of_data answered

theorem Turn.distinct_of_data : ((turn.resolutions store).map Resolution.path).Nodup := by
  rw [resolutions_of_data answered]
  exact (Schema.dispatched_once answered).distinct

/-- A message is asked for by the id that a group at the root gives. -/
theorem Turn.exists_getMessage (query : turn.request.operation = .query) {resolution : Resolution}
    (member : resolution ∈ turn.resolutions store) (ofType : resolution.info.parentType = "Query")
    (named : resolution.info.field = "getMessage") : ∃ group ∈ turn.groups, ∃ id,
      group.lead.call.name = "getMessage" ∧ resolution.path = [.key group.key] ∧
      givenId? group.lead.call turn.request.variableValues = some id ∧
        Resolver.recordId resolution.info = .ok id := by
  obtain ⟨info, _⟩ := resolution
  obtain ⟨type, group, field, arguments, found, inGroups, calls, rfl⟩ :=
    group_of_called (called_of_data answered _ member) (mem_rootNames.mpr (.inl ofType))
  have ofField := List.mem_of_find?_eq_some calls.declared
  have distinct := nodup_arguments _ (mem_objects_of_lookup? (Schema.rootType?_eq_some.mp found)) field ofField
  have sameName : field.name = group.lead.call.name := by simpa using List.find?_some calls.declared
  have name : group.lead.call.name = "getMessage" := sameName.symm.trans named
  have known (takesId : input "id" (required .id) ∈ field.arguments) :
      ∃ id, givenId? group.lead.call turn.request.variableValues = some id ∧
        Resolver.recordId (group.info type field turn.root [] arguments) = .ok id :=
    recordId_of_given distinct calls.coerced takesId
  refine ⟨group, groups_of_data answered found ▸ inGroups, ?_⟩
  rw [query] at found
  obtain rfl : (bindings turn.draw).bindObject Showcase.query = type := Option.some.inj found
  have declared := name ▸ calls.declared
  cases declared
  obtain ⟨id, given, known⟩ := known (.head _)
  exact ⟨id, name, rfl, given, known⟩

end

/-- A request that is refused does nothing. -/
theorem Turn.of_refused {report : Report} (mirrors : Mirrors messages store)
    (refused : (served turn.draw).prepare turn.settings turn.request turn.root = .error report)
    (executed : turn.execute store = (.ofError report, store)) :
    Mirrors (turn.post messages) (turn.execute store).2 ∧ turn.ToldBy messages store := by
  have none : turn.groups = [] := by rw [groups, refused]
  have unasked : turn.resolutions store = [] := by
    rw [resolutions, executed]
    rfl
  have same : turn.post messages = messages := by
    rw [post, none]
    exact ite_self messages
  rw [same, executed]
  refine ⟨mirrors, schema_eq_served turn.draw, mirrors.collection, fun _ front group back split => ?_, ?_, ?_⟩
  · simp [none] at split
  · simp [unasked]
  · simp [unasked]

theorem Mirrors.run_getMessages {draw : Draws} {info : ResolveInfo} (mirrors : Mirrors messages store)
    (ofType : info.parentType = "Query") (named : info.field = "getMessages") :
    (((served draw).dispatch info).run store).1 = .ok (.list (messages.map .object)) := by
  have bound : (served draw).resolver? info.parentType info.field = some (.listRecords Showcase.messages) := by
    rw [ofType, named]
    rfl
  rw [Schema.run_dispatch bound]
  simp only [Resolver.listRecords, Resolver.acting, Task.access, Task.run, mirrors.list]
  rfl

theorem Mirrors.run_getMessage {draw : Draws} {info : ResolveInfo} {id : String} (mirrors : Mirrors messages store)
    (ofType : info.parentType = "Query") (named : info.field = "getMessage")
    (known : Resolver.recordId info = .ok id) :
    (((served draw).dispatch info).run store).1 = .ok (((messages.find? id).map .object).getD .null) := by
  have bound : (served draw).resolver? info.parentType info.field = some (.getRecord Showcase.messages) := by
    rw [ofType, named]
    rfl
  rw [Schema.run_dispatch bound]
  simp only [Resolver.getRecord, Resolver.acting, Task.access, Task.run, known, mirrors.get?]
  rfl

theorem Turn.of_query {data : Value} (mirrors : Mirrors messages store)
    (answered : (turn.execute store).1.data = some data) (query : turn.request.operation = .query) :
    Mirrors (turn.post messages) (turn.execute store).2 ∧ turn.ToldBy messages store := by
  have other : ¬ turn.request.operation = .mutation := query ▸ nofun
  obtain ⟨type, account, found, _, listed, _, succession⟩ :=
    (awake_served turn.draw).exists_succession (actsAfter_served turn.draw) answered
  have called := Turn.called_of_data answered
  rw [← Turn.resolutions_of_data answered] at listed
  obtain ⟨final, run⟩ := succession.of_steady fun resolution member =>
    run_of_reading (parentType_of_query (called resolution (listed.symm.subset member)) query)
  rw [post, if_neg other, show (turn.execute store).2 = store from final]
  refine ⟨mirrors, schema_eq_served turn.draw, mirrors.collection, fun mutation => absurd mutation other,
    fun resolution member ofType named => ?_, fun resolution member ofType named => ?_⟩
  · have outcome := congrArg Prod.fst (run resolution (listed.subset member))
    exact outcome.symm.trans (mirrors.run_getMessages ofType named)
  · have outcome := congrArg Prod.fst (run resolution (listed.subset member))
    obtain ⟨group, inGroups, id, name, path, given, known⟩ :=
      Turn.exists_getMessage answered query member ofType named
    exact ⟨group, inGroups, id, name, path, given, outcome.symm.trans (mirrors.run_getMessage ofType named known)⟩

theorem Turn.of_mutation {data : Value} (mirrors : Mirrors messages store)
    (answered : (turn.execute store).1.data = some data) (mutation : turn.request.operation = .mutation) :
    Mirrors (turn.post messages) (turn.execute store).2 ∧ turn.ToldBy messages store := by
  obtain ⟨type, account, found, executes, listed, errors, succession⟩ :=
    (awake_served turn.draw).exists_succession (actsAfter_served turn.draw) answered
  obtain ⟨task, accepted, _⟩ := Schema.execute_of_data answered
  have called := Turn.called_of_data answered
  rw [← Turn.resolutions_of_data answered] at listed
  cases executes with
  | @object _ _ _ _ accounts length each =>
    have groups := Turn.groups_of_data answered found
    have ofMutation : (served turn.draw).rootType? .mutation = some type := mutation ▸ found
    have atRoot (resolution : Resolution) (member : resolution ∈ accounts.flatMap Account.resolutions)
        (ofType : resolution.info.parentType = "Mutation") : resolution.path.length = 1 :=
      length_path_of_called (called resolution (listed.symm.subset member)) (mem_rootNames.mpr (.inr ofType))
    obtain ⟨final, parts⟩ := mirrors.post_groups ofMutation (forall₂_of_getElem? length.symm each)
      (fun group member => Schema.exists_calls_of_prepare accepted found member) atRoot succession
    have noQuery (resolution : Resolution) (member : resolution ∈ turn.resolutions store) :
        resolution.info.parentType ≠ "Query" := parentType_of_mutation (called resolution member) mutation
    rw [post, if_pos mutation, groups]
    refine ⟨final, schema_eq_served turn.draw, mirrors.collection, fun _ front group back split changes => ?_,
      fun resolution member ofType => absurd ofType (noQuery resolution member),
      fun resolution member ofType => absurd ofType (noQuery resolution member)⟩
    obtain ⟨part, member, posted⟩ := parts front group back (groups ▸ split)
    obtain ⟨outcome, posts, ⟨info, path, resolved⟩, reported⟩ := posted changes
    refine ⟨info, outcome, posts, ?_, fun error failed => ?_⟩
    · have inTurn := listed.symm.subset (List.mem_flatMap.mpr ⟨part, member, resolved⟩)
      exact path ▸ filter_eq_singleton_of_nodup (Turn.distinct_of_data answered) inTurn
    · rw [show (turn.execute store).1.errors = _ from errors]
      exact List.mem_flatMap.mpr ⟨part.completed, List.mem_map_of_mem member, reported error failed⟩

/-- A request does with the messages of the store what it is to do
with the list of them. -/
theorem Turn.keeps (turn : Turn) (mirrors : Mirrors messages store) :
    Mirrors (turn.post messages) (turn.execute store).2 ∧ turn.ToldBy messages store := by
  rcases (awake_served turn.draw).refused_or_data turn.settings turn.request turn.root store with
    ⟨report, refused, executed⟩ | ⟨data, answered⟩
  · exact Turn.of_refused mirrors refused executed
  · cases operation : turn.request.operation with
    | query => exact Turn.of_query mirrors answered operation
    | mutation => exact Turn.of_mutation mirrors answered operation

theorem mirrors_after (mirrors : Mirrors messages store) (turns : List Turn) :
    Mirrors (turns.foldl (fun messages turn => turn.post messages) messages) (after turns store) := by
  induction turns generalizing messages store with
  | nil => exact mirrors
  | cons turn turns ih => exact ih (turn.keeps mirrors).1

/-- Whatever is asked for in a session, the messages are those of a list
that each mutation changes as its fields say, one after another, and
queries see that list. -/
theorem messages_told_by_list (turns : List Turn) (turn : Turn) : turn.ToldBy (posted turns) (after turns {}) :=
  (turn.keeps (mirrors_after mirrors_empty turns)).2

/-- Creates a message whose author is null and whose content is not
set, and an empty one. -/
def creating : Turn where
  draw := fun _ _ => 0
  request :=
    { operation := .mutation
      variableValues := [("author", .null)]
      selectionSet := [
        .field { name := "createMessage", arguments := [("input", .object
          [("content", .variable "content"), ("author", .variable "author")])] } [.field { name := "id" } []],
        .field { name := "createMessage", label := some "empty" } [.field { name := "id" } []]] }

/-- Updates a message that is not there, and then one that is. -/
def updating : Turn where
  draw := fun _ _ => 0
  request :=
    { operation := .mutation
      selectionSet := [
        .field { name := "updateMessage", label := some "late", arguments := [("id", .value (.string "3")),
          ("input", .value (.object [("content", .string "Late")]))] } [.field { name := "id" } []],
        .field { name := "updateMessage", arguments := [("id", .value (.int 1)),
          ("input", .value (.object [("content", .string "Elms grow.")]))] } [.field { name := "id" } []]] }

/-- Creates a message, but also one whose content is a number. -/
def mistaken : Turn where
  draw := fun _ _ => 0
  request :=
    { operation := .mutation
      selectionSet := [
        .field { name := "createMessage" } [],
        .field { name := "createMessage", label := some "number", arguments := [("input", .value (.object
          [("content", .int 5)]))] } []] }

def listing : Turn where
  draw := fun _ _ => 0
  request :=
    { selectionSet := [
        .field { name := "getMessages" } [.field { name := "content" } []],
        .field { name := "getMessage", arguments := [("id", .value (.int 3))] } [.field { name := "id" } []]] }

def elmMessage : Record := [("id", .string "1"), ("author", .null), ("content", .string "Elms grow.")]

def emptyMessage : Record := [("id", .string "2")]

/-- The update of a missing message is reported and changes nothing, and so does
the mutation that is refused. -/
theorem messages_told_by_list_elms :
    let turns := [creating, updating, mistaken]
    posted turns = [elmMessage, emptyMessage] ∧ listing.ToldBy [elmMessage, emptyMessage] (after turns {}) ∧
      (listing.execute (after turns {})).1.data = some (.object
        [("getMessages", .list [.object [("content", .string "Elms grow.")], .object [("content", .null)]]),
          ("getMessage", .null)]) ∧
      (updating.execute (after [creating] {})).1.errors.map (fun error => (error.code?, error.path)) =
        [(some "NOT_FOUND", some [.key "late"])] ∧
      (mistaken.execute (after [creating, updating] {})).1.data = none := by
  intro turns
  have list : posted turns = [elmMessage, emptyMessage] := rfl
  exact ⟨list, list ▸ messages_told_by_list turns listing, rfl, rfl, rfl⟩

end SelectionEngine.Showcase
