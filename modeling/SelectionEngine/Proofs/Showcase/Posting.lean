import SelectionEngine.Proofs.Execution.Succession
import SelectionEngine.Proofs.Showcase.Dispatching
import SelectionEngine.Proofs.Showcase.Given

namespace SelectionEngine.Showcase

namespace Messages

variable (messages : Messages)

/-- What an update of the message with the id gives. There has to be one. -/
def updated (id : String) (texts : Object) : Except ResolverError Value :=
  (messages.find? id).elim (.error (.ofReportable (NotFoundError.mk Showcase.messages id))) fun old =>
    .ok (.object (Entries.overwrite old texts))

end Messages

/-- The fields of mutations that change messages. -/
def messageFields : List String := ["createMessage", "updateMessage"]

namespace Messages

variable (messages : Messages) (call : FieldCall) (variableValues : Object)

/-- What a field of a mutation makes of the messages. -/
def post : Messages :=
  if call.name = "createMessage" then messages.create (givenTexts call variableValues)
  else if call.name = "updateMessage" then
    (givenId? call variableValues).elim messages fun id => messages.update id (givenTexts call variableValues)
  else messages

/-- What a field that creates or updates a message is resolved to. -/
def posted? : Option (Except ResolverError Value) :=
  if call.name = "createMessage" then some (.ok (.object (messages.next (givenTexts call variableValues))))
  else if call.name = "updateMessage" then
    (givenId? call variableValues).map fun id => messages.updated id (givenTexts call variableValues)
  else none

/-- What the fields of several groups make of the messages, one after another. -/
def postAll (groups : List FieldGroup) : Messages :=
  groups.foldl (fun messages group => messages.post group.lead.call variableValues) messages

end Messages

variable {draw : Draws}

/-- A field that is not one of a mutation only reads. -/
theorem run_of_reading {info : ResolveInfo} (reading : info.parentType ≠ "Mutation") (store : Store) :
    (((served draw).dispatch info).run store).2 = store := by
  have each : ∀ entry ∈ (served draw).resolvers, entry.1 ≠ "Mutation" → ∀ bound ∈ entry.2, ∀ info store,
      ((bound.2 info).run store).2 = store := by
    have computes (f : ResolveInfo → Except ResolverError Value) (info : ResolveInfo) (store : Store) :
        ((computing f info).run store).2 = store := rfl
    have lists (collection : String) (info : ResolveInfo) (store : Store) :
        ((Resolver.listRecords collection info).run store).2 = store := rfl
    simp only [served, queries, dieFields, List.forall_mem_cons, computes, reads_getRecord, lists, Task.run_bind,
      Task.run, List.not_mem_nil, false_implies, implies_true, and_self, ne_eq, not_true_eq_false]
  cases bound : (served draw).resolver? info.parentType info.field with
  | none => simp only [Schema.dispatch, bound, Task.run]
  | some resolver =>
    obtain ⟨own, ofType, ofField⟩ := Schema.mem_of_resolver? bound
    rw [Schema.run_dispatch bound]
    exact each _ ofType reading _ ofField info store

section

variable {messages : Messages} {call : FieldCall} {variableValues : Object}

theorem Messages.post_of_other (other : call.name ∉ messageFields) :
    messages.post call variableValues = messages := by
  have names : call.name ≠ "createMessage" ∧ call.name ≠ "updateMessage" := by simpa [messageFields] using other
  rw [post, if_neg names.1, if_neg names.2]

variable {store after : Store} {info : ResolveInfo} {texts : Object} {id : String}

theorem Mirrors.createRecord (mirrors : Mirrors messages store) (message : MessageTexts texts)
    (asked : Resolver.inputFields info = .ok texts) :
    ((Resolver.createRecord Showcase.messages info).run store).1.settle = .ok (.object (messages.next texts)) ∧
      Mirrors (messages.create texts) ((Resolver.createRecord Showcase.messages info).run store).2 := by
  obtain ⟨record, kept⟩ := mirrors.create message
  rw [run_createRecord asked, record]
  exact ⟨rfl, kept⟩

theorem Mirrors.updateRecord (mirrors : Mirrors messages store) (message : MessageTexts texts)
    (known : Resolver.recordId info = .ok id) (asked : Resolver.inputFields info = .ok texts) :
    ((Resolver.updateRecord Showcase.messages info).run store).1.settle = messages.updated id texts ∧
      Mirrors (messages.update id texts) ((Resolver.updateRecord Showcase.messages info).run store).2 := by
  rw [run_updateRecord known asked, Messages.updated]
  cases found : messages.find? id with
  | none =>
    obtain ⟨refused, same⟩ := mirrors.update_of_missing texts found
    rw [refused, same]
    exact ⟨rfl, mirrors⟩
  | some old =>
    obtain ⟨updated, kept⟩ := mirrors.update message found
    rw [updated]
    exact ⟨rfl, kept⟩

theorem Mirrors.createRecord_content (mirrors : Mirrors messages store) (info : ResolveInfo) :
    Mirrors messages ((Resolver.createRecord content info).run store).2 := by
  cases asked : Resolver.inputFields info with
  | ok entries =>
    rw [run_createRecord asked]
    exact mirrors.create_content entries
  | error error =>
    simp only [Resolver.createRecord, Resolver.acting, Task.access, Task.run, asked]
    exact mirrors

variable {type : ObjectType Store} {group : FieldGroup} {field : FieldDef Store} {arguments : Object}

/-- A field of a mutation does with the messages of the store what it is to do
with the list of them. -/
theorem Mirrors.post (mirrors : Mirrors messages store) (found : (served draw).rootType? .mutation = some type)
    (calls : group.Calls (served draw) variableValues type field arguments) (root : Value) :
    let run := ((served draw).dispatch (group.info type field root [] arguments)).run store
    Mirrors (messages.post group.lead.call variableValues) run.2 ∧
      (group.lead.call.name ∈ messageFields →
        messages.posted? group.lead.call variableValues = some run.1) := by
  obtain rfl : (bindings draw).bindObject mutation = type := Option.some.inj found
  have ofField := List.mem_of_find?_eq_some calls.declared
  have named : field.name = group.lead.call.name := by simpa using List.find?_some calls.declared
  have distinct := nodup_arguments _ (mem_objects_of_lookup? (Schema.rootType?_eq_some.mp found)) field ofField
  have message := messageTexts_givenTexts group.lead.call variableValues
  let info : ResolveInfo := group.info ((bindings draw).bindObject mutation) field root [] arguments
  have asked (member : input "input" (.named "MessageInput") ∈ field.arguments) :
      Resolver.inputFields info = .ok (givenTexts group.lead.call variableValues) :=
    inputFields_of_given distinct calls.coerced member
  have known (member : input "id" (required .id) ∈ field.arguments) :
      ∃ id, givenId? group.lead.call variableValues = some id ∧ Resolver.recordId info = .ok id :=
    recordId_of_given distinct calls.coerced member
  have ofContent (bound : (served draw).resolver? "Mutation" field.name = some (Resolver.createRecord content))
      (other : field.name ∉ messageFields) :
      let run := ((served draw).dispatch info).run store
      Mirrors (messages.post group.lead.call variableValues) run.2 ∧
        (group.lead.call.name ∈ messageFields →
          messages.posted? group.lead.call variableValues = some run.1) := by
    rw [Schema.run_dispatch bound, Messages.post_of_other (named ▸ other)]
    exact ⟨mirrors.createRecord_content info, fun changes => absurd changes (named ▸ other)⟩
  intro run
  rcases List.mem_cons.mp ofField with rfl | ofField
  · have name : group.lead.call.name = "createMessage" := named.symm
    obtain ⟨record, kept⟩ := mirrors.createRecord message (asked (.head _))
    rw [show run = _ from Schema.run_dispatch rfl store, record, Messages.post, if_pos name, Messages.posted?,
      if_pos name]
    exact ⟨kept, fun _ => rfl⟩
  rcases List.mem_cons.mp ofField with rfl | ofField
  · have name : group.lead.call.name = "updateMessage" := named.symm
    have other : ¬ group.lead.call.name = "createMessage" := name.symm ▸ by decide
    obtain ⟨id, given, known⟩ := known (.head _)
    obtain ⟨updated, kept⟩ := mirrors.updateRecord message known (asked (.tail _ (.head _)))
    rw [show run = _ from Schema.run_dispatch rfl store, updated, Messages.post, if_neg other, if_pos name,
      Messages.posted?, if_neg other, if_pos name, given]
    exact ⟨kept, fun _ => rfl⟩
  rcases List.mem_cons.mp ofField with rfl | ofField
  · exact ofContent rfl (show "createArticle" ∉ messageFields by decide)
  · obtain rfl := List.mem_singleton.mp ofField
    exact ofContent rfl (show "createPodcast" ∉ messageFields by decide)

variable {root : Value} {account : Account}

/-- A group of fields at the root was resolved to what is to become of the
messages. A failure is reported. -/
def Posted (messages : Messages) (variableValues : Object) (group : FieldGroup) (account : Account) : Prop :=
  group.lead.call.name ∈ messageFields → ∃ outcome,
    messages.posted? group.lead.call variableValues = some outcome ∧
    (∃ info, info.path = [.key group.key] ∧ ⟨info, outcome⟩ ∈ account.resolutions) ∧
    ∀ error, outcome = .error error → Reportable.report error (some [.key group.key]) ∈ account.completed.errors

theorem Mirrors.post_group (mirrors : Mirrors messages store)
    (found : (served draw).rootType? .mutation = some type)
    (executes : Executes (served draw) variableValues (.group type root group) [] account)
    (callable : group.lead.call.name ≠ typenameField → ∃ field arguments,
      group.Calls (served draw) variableValues type field arguments)
    (atRoot : ∀ resolution ∈ account.resolutions, resolution.info.parentType = "Mutation" →
      resolution.path.length = 1)
    (succession : (served draw).Succession store account.resolutions after) :
    Mirrors (messages.post group.lead.call variableValues) after ∧
      Posted messages variableValues group account := by
  by_cases typename : group.lead.call.name = typenameField
  · have other : group.lead.call.name ∉ messageFields := typename ▸ by decide
    have unasked : account.resolutions = [] := by
      cases executes with
      | typename => rfl
      | badArguments other | unresolved other | resolved other => exact absurd typename other
    rw [unasked] at succession
    obtain ⟨rfl, _⟩ := succession.of_steady nofun
    rw [Messages.post_of_other other]
    exact ⟨mirrors, fun changes => absurd changes other⟩
  · obtain ⟨field, arguments, calls⟩ := callable typename
    obtain ⟨outcome, rest, resolutions, reported⟩ := executes.resolutions_of_calls calls
    obtain ⟨distinct, below⟩ := executes.paths
    rw [resolutions] at atRoot succession distinct below
    obtain ⟨middle, run, later⟩ := succession.of_cons
    -- the field itself is the only one at the root
    have reading : ∀ resolution ∈ rest, resolution.info.parentType ≠ "Mutation" := by
      intro resolution member ofMutation
      have level := atRoot resolution (.tail _ member) ofMutation
      have same := (below resolution (.tail _ member)).eq_of_length level.symm
      exact (List.nodup_cons.mp distinct).1 (List.mem_map.mpr ⟨resolution, member, same.symm⟩)
    obtain ⟨rfl, _⟩ := later.of_steady fun resolution member => run_of_reading (reading resolution member)
    obtain ⟨kept, posts⟩ := mirrors.post found calls root
    rw [run] at kept posts
    refine ⟨kept, fun changes => ⟨outcome, posts changes, ?_, reported⟩⟩
    rw [resolutions]
    exact ⟨_, rfl, .head _⟩

theorem Mirrors.post_groups {groups : List FieldGroup} {accounts : List Account}
    (mirrors : Mirrors messages store) (found : (served draw).rootType? .mutation = some type)
    (related : List.Forall₂ (fun group account =>
      Executes (served draw) variableValues (.group type root group) [] account) groups accounts)
    (callable : ∀ group ∈ groups, group.lead.call.name ≠ typenameField → ∃ field arguments,
      group.Calls (served draw) variableValues type field arguments)
    (atRoot : ∀ resolution ∈ accounts.flatMap Account.resolutions, resolution.info.parentType = "Mutation" →
      resolution.path.length = 1)
    (succession : (served draw).Succession store (accounts.flatMap Account.resolutions) after) :
    Mirrors (messages.postAll variableValues groups) after ∧
      ∀ front group back, groups = front ++ group :: back → ∃ account ∈ accounts,
        Posted (messages.postAll variableValues front) variableValues group account := by
  induction related generalizing messages store with
  | nil =>
    obtain ⟨rfl, _⟩ := succession.of_steady nofun
    exact ⟨mirrors, by simp⟩
  | @cons group account groups accounts executes _ ih =>
    obtain ⟨own, others⟩ := List.forall_mem_cons.mp callable
    rw [List.flatMap_cons] at atRoot succession
    obtain ⟨ownAtRoot, othersAtRoot⟩ := List.forall_mem_append.mp atRoot
    obtain ⟨middle, first, rest⟩ := succession.of_append
    obtain ⟨kept, posted⟩ := mirrors.post_group found executes own ownAtRoot first
    obtain ⟨final, later⟩ := ih kept others othersAtRoot rest
    refine ⟨final, fun front other back split => ?_⟩
    rcases List.cons_eq_append_iff.mp split with ⟨rfl, same⟩ | ⟨front, rfl, same⟩
    · cases same
      exact ⟨account, .head _, posted⟩
    · obtain ⟨part, member, posted⟩ := later front other back same
      exact ⟨part, .tail _ member, posted⟩

end

end SelectionEngine.Showcase
